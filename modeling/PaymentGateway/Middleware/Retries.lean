import PaymentGateway.Lib.Interference
import PaymentGateway.Middleware.Stack

/-! # What a retry can find

A record that a later request can find is left by a request that shares its key. `Inv` says that
such a record holds a success, as long as no request that shares its key is refused: counted above
the limit, or answered with a status in `[300, 500)`. `outline_dispatch` says how a request ends
then. -/

namespace PaymentGateway.Middleware.Retries

open PaymentGateway.Lib.Program PaymentGateway.Lib.Sessions PaymentGateway.Lib.Interference
open PaymentGateway.Middleware.Statements (Request Response Exc StoredState)
open PaymentGateway.Middleware.Idempotency PaymentGateway.Middleware.Stack
open PaymentGateway.Middleware.RateLimit (Arrival Event limit next setLimitHeaders tooManyRequests)

variable {ι : Type} {ts : ι → Task} {i j : ι} {w w' : World ι} {k : String}

/-! ### The condition -/

/-- Another task is a request with the same Redis key. -/
def Shared (ts : ι → Task) (i : ι) : Prop := (ts i).key ≠ none ∧ ∃ j ≠ i, (ts j).key = (ts i).key

/-- A status that is kept, though it is no success. -/
def Refusal (r : Response) : Prop := 300 ≤ r.statusCode ∧ r.statusCode < 500

/-- The statement refuses no request that shares its key: it does not count it above the limit, and
it is not the end of its handler with a refusal. -/
def Accepts (ts : ι → Task) (w : World ι) : Stmt ι → Prop
  | .rateLimit (.incr i key _ now) =>
    Shared ts i → next (w.rateLimit.counters key) now ≤ limit
  | .rateLimit (.await i (.ok r)) => Shared ts i → ¬ Refusal r
  | _ => True

instance [Fintype ι] [DecidableEq ι] (ts : ι → Task) (i : ι) : Decidable (Shared ts i) :=
  inferInstanceAs (Decidable (_ ∧ _))

instance (r : Response) : Decidable (Refusal r) := inferInstanceAs (Decidable (_ ∧ _))

instance [Fintype ι] [DecidableEq ι] (ts : ι → Task) (w : World ι) :
    (s : Stmt ι) → Decidable (Accepts ts w s)
  | .idempotency _ => isTrue trivial
  | .rateLimit (.time _) => isTrue trivial
  | .rateLimit (.incr _ _ _ _) => inferInstanceAs (Decidable (_ → _))
  | .rateLimit (.start _) => isTrue trivial
  | .rateLimit (.await _ (.ok _)) => inferInstanceAs (Decidable (_ → _))
  | .rateLimit (.await _ (.error _)) => isTrue trivial

/-! ### The invariant -/

/-- `200 <= status_code < 300` -/
def Success (statusCode : ℕ) : Prop := 200 ≤ statusCode ∧ statusCode < 300

/-- At most one request has the key. -/
def Sole (ts : ι → Task) (k : String) : Prop :=
  ∀ i j, (ts i).key = some k → (ts j).key = some k → i = j

theorem sole_of_not_shared (hk : (ts i).key = some k) (h : ¬ Shared ts i) : Sole ts k := by
  have hall : ∀ j, (ts j).key = some k → j = i := fun j hj => by
    by_contra hne
    exact h ⟨by simp [hk], j, hne, hj.trans hk.symm⟩
  exact fun j j' hj hj' => (hall j hj).trans (hall j' hj').symm

structure Inv (ts : ι → Task) (w : World ι) : Prop where
  kept : ∀ k state statusCode, w.idempotency.store k = some state →
    state.statusCode = some statusCode → Success statusCode ∨ Sole ts k
  counted : ∀ i n, .counted i n ∈ w.rateLimit.events → limit < n → ¬ Shared ts i

theorem inv_start {counters : String → Option RateLimit.Counter} :
    Inv ts ⟨⟨fun _ => none, []⟩, ⟨0, counters, []⟩⟩ :=
  ⟨fun _ _ _ h => (by cases h), fun _ _ h => by cases h⟩

/-- A record without a status code, or with one that may be found. -/
theorem Inv.store (h : Inv ts w) {state : StoredState}
    (hstate : ∀ statusCode, state.statusCode = some statusCode → Success statusCode ∨ Sole ts k)
    (hstore : w'.idempotency.store = Function.update w.idempotency.store k (some state))
    (hrate : w'.rateLimit = w.rateLimit) : Inv ts w' := by
  refine ⟨fun k' state' statusCode hs hc => ?_, fun i n hn => h.counted i n (hrate ▸ hn)⟩
  rw [hstore] at hs
  by_cases hk : k' = k
  · subst hk
    rw [Function.update_self] at hs
    cases hs
    exact hstate statusCode hc
  · rw [Function.update_of_ne hk] at hs
    exact h.kept k' state' statusCode hs hc

theorem Inv.delete (h : Inv ts w)
    (hstore : w'.idempotency.store = Function.update w.idempotency.store k none)
    (hrate : w'.rateLimit = w.rateLimit) : Inv ts w' := by
  refine ⟨fun k' state' statusCode hs hc => ?_, fun i n hn => h.counted i n (hrate ▸ hn)⟩
  rw [hstore] at hs
  by_cases hk : k' = k
  · rw [hk, Function.update_self] at hs
    cases hs
  · rw [Function.update_of_ne hk] at hs
    exact h.kept k' state' statusCode hs hc

theorem Inv.event (h : Inv ts w) {e : Event ι} (hstore : w'.idempotency = w.idempotency)
    (hevents : w'.rateLimit.events = w.rateLimit.events ++ [e])
    (he : ∀ i n, e = .counted i n → limit < n → ¬ Shared ts i) : Inv ts w' := by
  refine ⟨fun k state statusCode hs hc => h.kept k state statusCode (hstore ▸ hs) hc,
    fun i n hn => ?_⟩
  rw [hevents] at hn
  rcases List.mem_append.mp hn with hn | hn
  · exact h.counted i n hn
  · exact he i n (List.mem_singleton.mp hn).symm

/-! ### The contract -/

/-- A task adds events of its own, and records under its own key only. -/
def contract (ts : ι → Task) (i : ι) : Contract (server (ι := ι)) where
  assume s w _ := Inv ts w ∧ Accepts ts w s
  rely _ w w' :=
    (∃ es, w'.rateLimit.events = w.rateLimit.events ++ es ∧ ∀ e ∈ es, e.of ≠ i) ∧
      ∀ k, (ts i).key = some k → ¬ Shared ts i →
        w.idempotency.store k = none → w'.idempotency.store k = none
  guar w w' := Inv ts w' ∧
    (∃ es, w'.rateLimit.events = w.rateLimit.events ++ es ∧ ∀ e ∈ es, e.of = i) ∧
      ∀ k, (ts i).key ≠ some k → w.idempotency.store k = none → w'.idempotency.store k = none
  refl _ w := ⟨⟨[], by simp, by simp⟩, fun _ _ _ h => h⟩
  trans := by
    rintro - w w' w'' ⟨⟨es, he, hes⟩, hs⟩ ⟨⟨es', he', hes'⟩, hs'⟩
    refine ⟨⟨es ++ es', by rw [he', he, List.append_assoc], fun e h => ?_⟩,
      fun k hk hn h => hs' k hk hn (hs k hk hn h)⟩
    rcases List.mem_append.mp h with h | h
    · exact hes e h
    · exact hes' e h

/-- What a request knows of its events survives what the others do. -/
theorem mem_rely {e : Event ι} {l : Option String} (hr : (contract ts i).rely l w w')
    (h : e ∈ w.rateLimit.events) : e ∈ w'.rateLimit.events := by
  obtain ⟨⟨es, hes, -⟩, -⟩ := hr
  rw [hes]
  exact List.mem_append_left _ h

/-- A statement that writes no record. -/
theorem guar_event (h : Inv ts w) {e : Event ι} (hstore : w'.idempotency = w.idempotency)
    (hevents : w'.rateLimit.events = w.rateLimit.events ++ [e]) (hof : e.of = i)
    (he : ∀ i n, e = .counted i n → limit < n → ¬ Shared ts i) : (contract ts i).guar w w' :=
  ⟨h.event hstore hevents he, ⟨[e], hevents, by simpa using hof⟩, fun k _ hn => by rwa [hstore]⟩

/-- A statement that changes nothing. -/
theorem guar_refl (h : Inv ts w) (hstore : w'.idempotency = w.idempotency)
    (hevents : w'.rateLimit.events = w.rateLimit.events) : (contract ts i).guar w w' :=
  ⟨⟨fun k state statusCode hs => h.kept k state statusCode (hstore ▸ hs),
      fun i n hn => h.counted i n (hevents ▸ hn)⟩,
    ⟨[], by simpa using hevents, by simp⟩, fun k _ hn => by rwa [hstore]⟩

/-- A statement that writes the record of its own key. -/
theorem guar_own {state : Option StoredState} (hkey : (ts i).key = some k) (h : Inv ts w')
    (hstore : w'.idempotency.store = Function.update w.idempotency.store k state)
    (hrate : w'.rateLimit = w.rateLimit) : (contract ts i).guar w w' := by
  refine ⟨h, ⟨[], by simp [hrate], by simp⟩, fun k' hk' hn => ?_⟩
  have hne : k' ≠ k := by
    rintro rfl
    exact hk' hkey
  rw [hstore, Function.update_of_ne hne]
  exact hn

/-- `SET XX` of a record that a later request may find. -/
theorem guar_setXx (state : StoredState) (l : Option String) (hkey : (ts i).key = some k)
    (h : Inv ts w)
    (hstate : ∀ statusCode, state.statusCode = some statusCode → Success statusCode ∨ Sole ts k) :
    (exec (.idempotency (.setXx k state)) w l).1 = .ok () ∧
      (contract ts i).guar w (exec (.idempotency (.setXx k state)) w l).2.1 := by
  cases hk : w.idempotency.store k with
  | none =>
    simp only [exec, Statements.exec, hk]
    exact ⟨trivial, guar_refl h rfl rfl⟩
  | some old =>
    simp only [exec, Statements.exec, hk]
    exact ⟨trivial, guar_own hkey (h.store hstate rfl rfl) rfl rfl⟩

/-! ### The outline of a request -/

/-- The handler was called, or the request was counted above the limit. -/
def Passed (i : ι) (w : World ι) : Prop :=
  .started i ∈ w.rateLimit.events ∨ ∃ n, limit < n ∧ .counted i n ∈ w.rateLimit.events

/-- How the `call_next` of the idempotency middleware ends. -/
def Forwarded (ts : ι → Task) (i : ι) (r : Except Exc Response) (w : World ι) : Prop :=
  match r with
  | .ok response => Passed i w ∧ (Shared ts i → ¬ Refusal response)
  | .error _ => True

/-- What the idempotency middleware answers by itself. -/
def Answer (r : Response) : Prop := r = keyInUse ∨ r = beingProcessed ∨ Success r.statusCode

/-- How a task ends. -/
def Ended (ts : ι → Task) (i : ι) (r : Except Exc Response) (w : World ι) : Prop :=
  match r with
  | .ok response => Passed i w ∨ Shared ts i ∧ Answer response
  | .error _ => True

theorem Passed.rely {l : Option String} (h : Passed i w) (hr : (contract ts i).rely l w w') :
    Passed i w' := by
  rcases h with h | ⟨n, hn, h⟩
  · exact .inl (mem_rely hr h)
  · exact .inr ⟨n, hn, mem_rely hr h⟩

theorem Passed.mono (h : Passed i w) (he : w'.rateLimit.events = w.rateLimit.events) :
    Passed i w' := by
  unfold Passed
  rwa [he]

variable {l : Option String}

theorem outline_callNext (outcome : Except Exc Response) :
    Outline (contract ts i) (fun r _ w => Forwarded ts i r w)
      ((RateLimit.callNext i outcome).lift rateLimit) l w := by
  refine Outline.call (fun _ => True) (fun _ _ _ _ => trivial) trivial fun w _ ⟨hJ, _⟩ => ?_
  refine ⟨guar_event (e := .started i) hJ rfl rfl rfl (fun _ _ e => by cases e), ?_⟩
  refine Outline.call (fun w => .started i ∈ w.rateLimit.events) (fun w w' hr h => mem_rely hr h)
    (List.mem_append_right _ (List.mem_singleton_self _)) fun w hstarted ⟨hJ, hacc⟩ => ?_
  cases outcome with
  | ok response =>
    exact ⟨guar_event (e := .returned i response) hJ rfl rfl rfl (fun _ _ e => by cases e),
      .inl (List.mem_append_left _ hstarted), hacc⟩
  | error exc =>
    exact ⟨guar_event (e := .raised i exc) hJ rfl rfl rfl (fun _ _ e => by cases e), trivial⟩

theorem outline_afterCount (outcome : Except Exc Response) (b : ℕ) {n : ℕ}
    (hn : .counted i n ∈ w.rateLimit.events) (hshared : limit < n → ¬ Shared ts i) :
    Outline (contract ts i) (fun r _ w => Forwarded ts i r w)
      ((RateLimit.afterCount i outcome b n).lift rateLimit) l w := by
  unfold RateLimit.afterCount
  split_ifs with hlimit
  · exact ⟨.inr ⟨n, hlimit, hn⟩, fun h => absurd h (hshared hlimit)⟩
  · rw [Prog.lift_bind]
    exact (outline_callNext outcome).bind (fun response _ w h => h) fun _ _ _ _ => trivial

/-- The rate limiter. -/
theorem outline_rateLimit (a : Arrival) :
    Outline (contract ts i) (fun r _ w => Forwarded ts i r w)
      ((RateLimit.dispatch i a).lift rateLimit) l w := by
  unfold RateLimit.dispatch
  split_ifs with hlimited
  · refine Outline.call (fun _ => True) (fun _ _ _ _ => trivial) trivial fun w _ ⟨hJ, _⟩ => ?_
    refine ⟨guar_refl hJ rfl rfl, ?_⟩
    refine Outline.call (fun _ => True) (fun _ _ _ _ => trivial) trivial fun w _ ⟨hJ, hacc⟩ => ?_
    have hshared := fun hlimit hs => Nat.not_lt.mpr (hacc hs) hlimit
    refine ⟨guar_event hJ rfl rfl rfl (fun j n e => ?_), ?_⟩
    · cases e
      exact hshared
    · exact outline_afterCount _ _ (List.mem_append_right _ (List.mem_singleton_self _)) hshared
  · exact outline_callNext a.outcome

/-- What is done with the response. -/
theorem outline_finish {response : Response} (hkey : (ts i).key = some k)
    (h : Forwarded ts i (.ok response) w) :
    Outline (contract ts i) (fun r _ w => Ended ts i r w)
      ((finish k response).lift idempotency) l w := by
  obtain ⟨hpassed, hrefusal⟩ := h
  unfold finish
  split_ifs with hcacheable
  · cases response.bytes with
    | error e => trivial
    | ok bytes =>
      -- a response that is kept is a success, or no other request has the key
      have hkept : Success response.statusCode ∨ Sole ts k := by
        by_cases hs : Shared ts i
        · refine .inl ⟨hcacheable.1, ?_⟩
          by_contra h300
          exact hrefusal hs ⟨Nat.not_lt.mp h300, hcacheable.2⟩
        · exact .inr (sole_of_not_shared hkey hs)
      refine Outline.call (Passed i) (fun w w' hr h => h.rely hr) hpassed
        fun w hpassed ⟨hJ, _⟩ => ?_
      obtain ⟨hresp, hguar⟩ := guar_setXx (done response bytes) l hkey hJ
        fun statusCode hc => by cases hc; exact hkept
      refine ⟨hguar, ?_⟩
      change Outline _ _ (Prog.lift idempotency (Prog.ofExcept
        (exec (.idempotency (.setXx k (done response bytes))) w l).1 >>= _)) _ _
      rw [hresp]
      exact .inl (hpassed.mono rfl)
  · refine Outline.call (Passed i) (fun w w' hr h => h.rely hr) hpassed
      fun w hpassed ⟨hJ, _⟩ => ?_
    exact ⟨guar_own hkey (hJ.delete rfl rfl) rfl rfl, .inl hpassed⟩

/-- The answer to a request whose key is taken by another. -/
theorem outline_answerDuplicate (hkey : (ts i).key = some k) (hs : Shared ts i) :
    Outline (contract ts i) (fun r _ w => Ended ts i r w)
      ((answerDuplicate k).lift idempotency) l w := by
  refine Outline.call (fun _ => True) (fun _ _ _ _ => trivial) trivial fun w _ ⟨hJ, _⟩ => ?_
  refine ⟨guar_refl hJ rfl rfl, ?_⟩
  have hget : (exec (.idempotency (.get k)) w l).1 = .ok (w.idempotency.store k) := rfl
  change Outline _ _ (Prog.lift idempotency
    (Prog.ofExcept (exec (.idempotency (.get k)) w l).1 >>= _)) _ _
  rw [hget]
  cases hk : w.idempotency.store k with
  | none => exact .inr ⟨hs, .inl rfl⟩
  | some state =>
    change Outline _ _ (Prog.lift idempotency
      (if state.status = some statusInProgress then pure beingProcessed else pure (replay state)))
      _ _
    split_ifs
    · exact .inr ⟨hs, .inr (.inl rfl)⟩
    · refine .inr ⟨hs, .inr (.inr ?_)⟩
      change Success (state.statusCode.getD 200)
      cases hc : state.statusCode with
      | none => exact ⟨le_rfl, by decide⟩
      | some statusCode =>
        refine (hJ.kept k state statusCode hk hc).resolve_right fun hsole => ?_
        obtain ⟨-, j, hne, hj⟩ := hs
        exact hne (hsole j i (hj.trans hkey) hkey)

/-- A request that has reserved its key. -/
theorem outline_reserved (hkey : (ts i).key = some k) (a : Arrival) :
    Outline (contract ts i) (fun r _ w => Ended ts i r w) (do
      (Statements.await (.setXx k inProgress)).lift idempotency
      let response ← (RateLimit.dispatch i a).lift rateLimit
      (finish k response).lift idempotency) l w := by
  refine Outline.call (fun _ => True) (fun _ _ _ _ => trivial) trivial fun w _ ⟨hJ, _⟩ => ?_
  obtain ⟨hresp, hguar⟩ := guar_setXx inProgress l hkey hJ
    fun _ hc => by cases hc
  refine ⟨hguar, ?_⟩
  change Outline _ _ (Prog.lift idempotency (Prog.ofExcept
    (exec (.idempotency (.setXx k inProgress)) w l).1) >>= _) _ _
  rw [hresp]
  exact (outline_rateLimit a).bind (fun response l w h => outline_finish hkey h)
    fun _ _ _ _ => trivial

/-- **A request** whose key no other has does not find a record. -/
theorem outline_dispatch {a : Arrival} (hi : ts i = .request a)
    (hnone : ∀ k, (ts i).key = some k → w.idempotency.store k = none) :
    Outline (contract ts i) (fun r _ w => Ended ts i r w) (Stack.dispatch i a) none w := by
  unfold Stack.dispatch around
  cases hkey : redisKey a.request with
  | none =>
    exact (outline_rateLimit a).mono fun r _ w h => by
      cases r with
      | ok response => exact .inl h.1
      | error e => trivial
  | some k =>
    have hkey : (ts i).key = some k := by rw [hi]; exact hkey
    refine Outline.call (fun w => ¬ Shared ts i → w.idempotency.store k = none)
      (fun w w' hr h hs => hr.2 k hkey hs (h hs)) (fun _ => hnone k hkey) fun w hk ⟨hJ, _⟩ => ?_
    change (contract ts i).guar w
        (exec (.idempotency (.setNx k (reservation a.request))) w none).2.1 ∧
      Outline _ _ (Prog.lift idempotency (Prog.ofExcept
        (exec (.idempotency (.setNx k (reservation a.request))) w none).1) >>= _) _ _
    cases hstore : w.idempotency.store k with
    | some state =>
      have hs : Shared ts i := by
        by_contra hs
        rw [hk hs] at hstore
        cases hstore
      simp only [exec, Statements.exec, hstore]
      exact ⟨guar_refl hJ rfl rfl, outline_answerDuplicate hkey hs⟩
    | none =>
      simp only [exec, Statements.exec, hstore]
      exact ⟨guar_own hkey (hJ.store (fun _ h => by cases h) rfl rfl) rfl rfl,
        outline_reserved hkey a⟩

theorem outline_expire :
    Outline (contract ts i) (fun r _ w => Ended ts i r w) (expire k) none w := by
  refine Outline.call (fun _ => True) (fun _ _ _ _ => trivial) trivial fun w _ ⟨hJ, _⟩ => ?_
  refine ⟨⟨hJ.delete rfl rfl, ⟨[], (List.append_nil _).symm, by simp⟩, fun k' _ hn => ?_⟩, trivial⟩
  change Function.update w.idempotency.store k none k' = none
  by_cases hk : k' = k
  · rw [hk, Function.update_self]
  · rw [Function.update_of_ne hk]
    exact hn

end PaymentGateway.Middleware.Retries
