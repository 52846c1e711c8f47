import PaymentGateway.Lib.Noninterference
import PaymentGateway.Middleware.Lifecycle

/-! # Callers and the idempotency cache

What a caller receives in two runs that differ in the requests of others. A Redis key is made of the
path and the `Idempotency-Key`, not of the credentials: as long as no one else uses a caller's keys,
others do not show to the caller; with a shared key they get the caller's responses. -/

namespace PaymentGateway.Results.Tenants

open PaymentGateway.Lib.Program PaymentGateway.Lib.Sessions PaymentGateway.Lib.Noninterference
open PaymentGateway.Lib.Utf8 PaymentGateway.Middleware.Statements
open PaymentGateway.Middleware.Idempotency PaymentGateway.Middleware.Lifecycle
open PaymentGateway.Api.Deps (Credentials)

variable {ι : Type}

/-! ### A dispatch works on its own key -/

/-- The Redis key a statement is about. -/
def Stmt.key : Stmt ι → Option String
  | .setNx k _ => some k
  | .setXx k _ => some k
  | .get k => some k
  | .delete k => some k
  | _ => none

/-- A statement about another key than `key`. -/
def Foreign (key : Option String) (s : Stmt ι) : Prop := ∃ k, Stmt.key s = some k ∧ key ≠ some k

section Quiet

variable {α β : Type} {k : String} {key : Option String}

theorem not_foreign_self {s : Stmt ι} (h : Stmt.key s = some k) : ¬ Foreign (some k) s := by
  rintro ⟨k', hk, hne⟩
  exact hne (h.symm.trans hk)

theorem not_foreign_none {s : Stmt ι} (h : Stmt.key s = none) : ¬ Foreign key s := by
  rintro ⟨k', hk, -⟩
  rw [h] at hk
  cases hk

theorem quiet_await {s : Stmt ι} {f : s.Resp → Async ι β} (hs : ¬ Foreign key s)
    (hf : ∀ a, (f a).Quiet (Foreign key)) : (await s >>= f).Quiet (Foreign key) :=
  Prog.Quiet.bind (Prog.quiet_exec (σ := redis ι) hs) hf

theorem quiet_callNext (i : ι) (outcome : Except Exc Response) :
    (callNext i outcome).Quiet (Foreign key) :=
  quiet_await (not_foreign_none rfl) fun _ =>
    Prog.quiet_exec (σ := redis ι) (not_foreign_none rfl)

theorem quiet_finish (r : Response) : (finish k r : Async ι Response).Quiet (Foreign (some k)) := by
  unfold finish
  split_ifs
  · refine Prog.Quiet.bind Prog.quiet_ofExcept fun bytes => ?_
    exact quiet_await (not_foreign_self rfl) fun _ => trivial
  · exact quiet_await (not_foreign_self rfl) fun _ => trivial

theorem quiet_answerDuplicate :
    (answerDuplicate k : Async ι Response).Quiet (Foreign (some k)) := by
  refine quiet_await (not_foreign_self rfl) fun existing => ?_
  cases existing with
  | none => trivial
  | some state => dsimp only; split_ifs <;> trivial

theorem quiet_dispatch (i : ι) (request : Request) (outcome : Except Exc Response) :
    (dispatch i request outcome).Quiet (Foreign (redisKey request)) := by
  unfold dispatch
  cases redisKey request with
  | none => exact quiet_callNext i outcome
  | some k =>
    refine quiet_await (not_foreign_self rfl) fun reserved => ?_
    split_ifs
    · refine quiet_await (not_foreign_self rfl) fun _ => ?_
      exact (quiet_callNext i outcome).bind fun r => quiet_finish r
    · exact quiet_answerDuplicate

end Quiet

/-! ### What a statement shows -/

section Exec

variable {s : Stmt ι} {w w' : World ι} {l : Option String} {k : String}

/-- A statement does not show at other keys than its own. -/
theorem exec_other (h : Stmt.key s ≠ some k) : (exec s w l).2.1.store k = w.store k := by
  cases s with
  | setNx k' state =>
    have hk : k ≠ k' := fun e => h (congrArg some e.symm)
    simp only [exec]
    cases w.store k' <;> simp [hk]
  | setXx k' state =>
    have hk : k ≠ k' := fun e => h (congrArg some e.symm)
    simp only [exec]
    cases w.store k' <;> simp [hk]
  | get k' => rfl
  | delete k' =>
    have hk : k ≠ k' := fun e => h (congrArg some e.symm)
    simp [exec, hk]
  | start i => rfl
  | await i outcome => cases outcome <;> rfl

/-- A statement does the same where its key is the same. -/
theorem exec_same (h : ∀ k, Stmt.key s = some k → w.store k = w'.store k) :
    (exec s w l).1 = (exec s w' l).1 ∧ (exec s w l).2.2 = (exec s w' l).2.2 ∧
      ∀ k, w.store k = w'.store k → (exec s w l).2.1.store k = (exec s w' l).2.1.store k := by
  cases s with
  | setNx k' state =>
    have hk := h k' rfl
    simp only [exec, ← hk]
    cases w.store k' with
    | none => exact ⟨rfl, rfl, fun k hk => by by_cases e : k = k' <;> simp [e, hk]⟩
    | some _ => exact ⟨rfl, rfl, fun k hk => hk⟩
  | setXx k' state =>
    have hk := h k' rfl
    simp only [exec, ← hk]
    cases w.store k' with
    | none => exact ⟨rfl, rfl, fun k hk => hk⟩
    | some _ => exact ⟨rfl, rfl, fun k hk => by by_cases e : k = k' <;> simp [e, hk]⟩
  | get k' => exact ⟨congrArg Except.ok (h k' rfl), rfl, fun k hk => hk⟩
  | delete k' => exact ⟨rfl, rfl, fun k hk => by by_cases e : k = k' <;> simp [exec, e, hk]⟩
  | start i => exact ⟨rfl, rfl, fun k hk => hk⟩
  | await i outcome => cases outcome <;> exact ⟨rfl, rfl, fun k hk => hk⟩

end Exec

/-! ### Two runs -/

/-- The requests with handlers that see nothing but the request. -/
def exchanges (handler : Request → Except Exc Response) (requests : ι → Request) : ι → Exchange :=
  fun i => ⟨requests i, handler (requests i)⟩

/-- No one else uses a key of the caller. -/
def NoSharedKey (caller : Credentials) (requests : ι → Request) : Prop :=
  ∀ i j k, (requests i).credentials = caller → redisKey (requests i) = some k →
    redisKey (requests j) = some k → (requests j).credentials = caller

/-- Every request has only statements about its own key left. -/
def OwnKeys (requests : ι → Request)
    (c : Config (redis ι) (World ι) (Option String) ι Response) : Prop :=
  ∀ i, (c.procs i).prog.Quiet (Foreign (redisKey (requests i)))

/-- The caller's requests are where they are, and so is what is under their keys. -/
structure LooksSame (caller : Credentials) (requests : ι → Request)
    (c c' : Config (redis ι) (World ι) (Option String) ι Response) : Prop where
  procs : ∀ i, (requests i).credentials = caller → c.procs i = c'.procs i
  store : ∀ i k, (requests i).credentials = caller → redisKey (requests i) = some k →
    c.shared.store k = c'.shared.store k

variable {caller : Credentials} {requests requests' : ι → Request} {i : ι}
  {c c' : Config (redis ι) (World ι) (Option String) ι Response}

theorem LooksSame.symm (h : LooksSame caller requests c c') : LooksSame caller requests c' c :=
  ⟨fun i hi => (h.procs i hi).symm, fun i k hi hk => (h.store i k hi hk).symm⟩

variable [DecidableEq ι]

theorem OwnKeys.fire (h : OwnKeys requests c) (i : ι) : OwnKeys requests (server.fire c i) := by
  intro j
  by_cases hj : j = i
  · subst hj
    by_cases hd : (c.procs j).prog.Done
    · rw [Machine.fire_done hd]
      exact h j
    · obtain ⟨s, f, hp⟩ := Prog.eq_call_of_not_done hd
      have hq := h j
      rw [hp] at hq
      rw [Machine.fire_self hp]
      exact hq.2 _
  · rw [Machine.fire_of_ne hj]
    exact h j

/-- A step of `i` does not show at the keys of others. -/
theorem OwnKeys.store (h : OwnKeys requests c) {k : String} (hk : redisKey (requests i) ≠ some k) :
    (server.fire c i).shared.store k = c.shared.store k := by
  by_cases hd : (c.procs i).prog.Done
  · rw [Machine.fire_done hd]
  · obtain ⟨s, f, hp⟩ := Prog.eq_call_of_not_done hd
    have hq := h i
    rw [hp] at hq
    rw [Machine.fire_call hp]
    exact exec_other fun hs => hq.1 ⟨k, hs, hk⟩

/-- A step of someone else. -/
theorem LooksSame.other (h : LooksSame caller requests c c') (hown : OwnKeys requests' c)
    (hkeys : ∀ j k, (requests j).credentials = caller → redisKey (requests j) = some k →
      redisKey (requests' i) ≠ some k) (hi : (requests i).credentials ≠ caller) :
    LooksSame caller requests (server.fire c i) c' := by
  refine ⟨fun j hj => ?_, fun j k hj hk => ?_⟩
  · have hji : j ≠ i := fun e => hi (e ▸ hj)
    rw [Machine.fire_of_ne hji]
    exact h.procs j hj
  · rw [hown.store (hkeys j k hj hk)]
    exact h.store j k hj hk

/-- A step of the caller. -/
theorem LooksSame.step (h : LooksSame caller requests c c') (hown : OwnKeys requests c)
    (hi : (requests i).credentials = caller) :
    LooksSame caller requests (server.fire c i) (server.fire c' i) := by
  have hpi := h.procs i hi
  by_cases hd : (c.procs i).prog.Done
  · rw [Machine.fire_done hd, Machine.fire_done (hpi ▸ hd)]
    exact h
  obtain ⟨s, f, hp⟩ := Prog.eq_call_of_not_done hd
  have hq := hown i
  rw [hp] at hq
  have hkey : ∀ k, Stmt.key s = some k → c.shared.store k = c'.shared.store k := by
    intro k hk
    refine h.store i k hi ?_
    by_contra hne
    exact hq.1 ⟨k, hk, hne⟩
  obtain ⟨hres, hses, hst⟩ := exec_same (l := (c.procs i).loc) hkey
  rw [Machine.fire_call hp, Machine.fire_call (hpi ▸ hp)]
  refine ⟨fun j hj => ?_, fun j k hj hk => ?_⟩
  · by_cases hji : j = i
    · subst hji
      simp only [Function.update_self, ← hpi]
      simp only [Machine.session, server, hres, hses]
    · simp only [Function.update_of_ne hji]
      exact h.procs j hj
  · simp only [← hpi]
    exact hst k (h.store j k hj hk)

/-- What a caller's request is answered with when it is not the response of its own handler: a
conflict, what is made up for the reservation of a request of the same caller, or the response to
such a request. -/
def FromCaller (caller : Credentials) (handler : Request → Except Exc Response)
    (requests : ι → Request) (r : Response) : Prop :=
  r.statusCode = 409 ∨
    (∃ j, (requests j).credentials = caller ∧ r = replay (reservation (requests j))) ∨
    ∃ j response bytes, (requests j).credentials = caller ∧ handler (requests j) = .ok response ∧
      response.bytes = .ok bytes ∧ r = replay (done response bytes)

/-- The requests that are the same in both runs. -/
def SameCaller (caller : Credentials) (requests requests' : ι → Request) : Prop :=
  ∀ i, (requests i).credentials = caller ∨ (requests' i).credentials = caller →
    requests i = requests' i

/-- **Noninterference.** In two runs that differ in the requests of others, who do not use a key of
the caller, the caller's requests have the same results; and none of them has the response of a
handler to a request with other credentials. -/
theorem caller_isolated (handler : Request → Except Exc Response)
    (hsame : SameCaller caller requests requests') (hkeys : NoSharedKey caller requests)
    (hkeys' : NoSharedKey caller requests') (is js : List ι)
    (hs : is.filter (fun i => (requests i).credentials = caller) =
      js.filter fun i => (requests i).credentials = caller) :
    (∀ i, (requests i).credentials = caller →
      ((server.fireAll is (pool (exchanges handler requests))).procs i).prog.result? =
        ((server.fireAll js (pool (exchanges handler requests'))).procs i).prog.result?) ∧
    ∀ i r, (requests i).credentials = caller →
      ((server.fireAll is (pool (exchanges handler requests))).procs i).prog.result? =
        some (.ok r) →
      redisKey (requests i) = none ∨
      .started i ∈ (server.fireAll is (pool (exchanges handler requests))).shared.events ∨
      FromCaller caller handler requests r := by
  have hcaller : ∀ i, (requests i).credentials = caller → requests i = requests' i :=
    fun i hi => hsame i (.inl hi)
  have hunwind : Unwinding server.fire (fun i => (requests i).credentials = caller)
      (OwnKeys requests) (OwnKeys requests') (LooksSame caller requests) := by
    refine ⟨fun h => h.fire _, fun h => h.fire _, fun h hi hR => ?_, fun h hi hR => ?_,
      fun h _ hi hR => hR.step h hi⟩
    · exact hR.other h (fun j k hj hk hik => hi (hkeys j _ k hj hk hik)) hi
    · refine (hR.symm.other h (fun j k hj hk hik => hi ?_) hi).symm
      -- the caller's keys are the same in both runs
      have hjj := hcaller j hj
      rw [hjj] at hj hk
      have hcred := hkeys' j _ k hj hk hik
      rw [hsame _ (.inr hcred)]
      exact hcred
  have hR : LooksSame caller requests (pool (exchanges handler requests))
      (pool (exchanges handler requests')) := by
    refine ⟨fun i hi => ?_, fun _ _ _ _ => rfl⟩
    have hi := hcaller i hi
    simp only [pool, Machine.start, exchanges, hi]
  have hend := hunwind.run hs (fun i => quiet_dispatch i _ _) (fun i => quiet_dispatch i _ _) hR
  refine ⟨fun i hi => by rw [Machine.fireAll, Machine.fireAll, hend.procs i hi],
    fun i r hi hr => ?_⟩
  have h : Inv (exchanges handler requests) True _ := inv_pool.fireAll is
  rcases h.ended hr with hk | hc | hstart | ⟨r', hr', hd⟩
  · exact .inl hk
  · cases hc
  · exact .inr (.inl hstart)
  · cases hr'
    by_cases hk : redisKey (requests i) = none
    · exact .inl hk
    obtain ⟨k, hk⟩ := Option.ne_none_iff_exists'.mp hk
    refine .inr (.inr ?_)
    rcases hd with h409 | ⟨-, j, hj, he⟩ | ⟨j, response, bytes, hj, ho, -, hb, -, he⟩
    · exact .inl h409
    · exact .inr (.inl ⟨j, hkeys i j k hi hk (hj.trans hk), he⟩)
    · exact .inr (.inr ⟨j, response, bytes, hkeys i j k hi hk (hj.trans hk), ho, hb, he⟩)

/-! ### A merchant and a stranger -/

namespace Sample

def merchant : Credentials := ⟨none, some "api-key"⟩

def stranger : Credentials := ⟨none, none⟩

/-- The same order with the same key, sent by the merchant, and without credentials. -/
def request (credentials : Credentials) : Request where
  method := "POST"
  path := "/v1/orders"
  idempotencyKey := some "key-0001"
  requestId := none
  credentials := credentials
  body := encode "100"

/-- An endpoint that answers the merchant, and no one else. -/
def endpoint (request : Request) : Except Exc Response :=
  if request.credentials = merchant then
    .ok (.new (encode "order") 201 [] (some "application/json"))
  else .ok (.new (encode "unauthorized") 401 [] (some "application/json"))

def together : Two → Request
  | .first => request merchant
  | .second => request stranger

/-- The merchant's request with a key of its own. -/
def apart : Two → Request
  | .first => { request merchant with idempotencyKey := some "key-0002" }
  | .second => request stranger

/-- The stranger's request alone, and after the merchant's. -/
def alone : List Two := List.replicate 5 .second

def after : List Two := List.replicate 5 .first ++ List.replicate 5 .second

/-- What the stranger gets. -/
abbrev answer (requests : Two → Request) (schedule : List Two) :
    Option (Except Exc Response) :=
  ((server.fireAll schedule (pool (exchanges endpoint requests))).procs .second).prog.result?

end Sample

/-- With keys of their own the stranger sees no difference. -/
theorem caller_isolated_apart :
    Sample.answer Sample.apart Sample.after = Sample.answer Sample.apart Sample.alone ∧
      Sample.answer Sample.apart Sample.alone =
        some (Sample.endpoint (Sample.request Sample.stranger)) := by
  have hkeys : NoSharedKey Sample.stranger Sample.apart := by
    intro i j k hi hk hk'
    match i, j, hi, hk, hk' with
    | .first, _, hi, _, _ => exact absurd hi (by decide)
    | .second, .second, _, _, _ => rfl
    | .second, .first, _, hk, hk' => exact absurd (hk'.trans hk.symm) (by decide)
  have h := caller_isolated Sample.endpoint (fun _ _ => rfl) hkeys hkeys Sample.after Sample.alone
    (by decide)
  exact ⟨h.1 .second (by decide), by decide +kernel⟩

/-- With the key of the merchant, a stranger gets the merchant's response. -/
theorem leaked :
    SameCaller Sample.stranger Sample.together Sample.together ∧
    Sample.after.filter (fun i => (Sample.together i).credentials = Sample.stranger) =
      Sample.alone.filter (fun i => (Sample.together i).credentials = Sample.stranger) ∧
    Sample.answer Sample.together Sample.alone =
      some (Sample.endpoint (Sample.request Sample.stranger)) ∧
    Sample.answer Sample.together Sample.after = some (.ok (replay (done
      (.new (encode "order") 201 [] (some "application/json")) (encode "order")))) ∧
    Sample.answer Sample.together Sample.after ≠ Sample.answer Sample.together Sample.alone :=
  ⟨fun _ _ => rfl, by decide, by decide +kernel, by decide +kernel, by decide +kernel⟩

end PaymentGateway.Results.Tenants
