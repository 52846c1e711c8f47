import PaymentGateway.Middleware.Idempotency

/-! # The life of an idempotency key

Seen from outside, a key goes through phases: it is free, one request reserves it, marks it as in
progress, runs its handler, and stores the response or frees the key; if that request is cancelled
or its handler raises, the key is abandoned. `Inv` says that every interleaving of `dispatch`es is
such a life for each key: the phase determines the record under the key, which request holds it, and
where in `dispatch` that request is. -/

namespace PaymentGateway.Middleware.Lifecycle

open PaymentGateway.Lib.Program PaymentGateway.Lib.Sessions
open PaymentGateway.Middleware.Statements PaymentGateway.Middleware.Idempotency

/-- A request, and how its handler ends if it is called. -/
structure Exchange where
  request : Request
  outcome : Except Exc Response

/-- The Redis key of an exchange. -/
abbrev Exchange.key (x : Exchange) : Option String := redisKey x.request

variable {ι : Type}

/-- The requests before their first statement, and an empty store. -/
def pool (xs : ι → Exchange) : Config (redis ι) (World ι) (Option String) ι Response :=
  server.start ⟨fun _ => none, []⟩ fun i => dispatch i (xs i).request (xs i).outcome

/-! ### Phases -/

inductive Phase (ι : Type)
  | free
  | reserved (i : ι)
  | marked (i : ι)
  | running (i : ι)
  | storing (i : ι) (response : Response) (bytes : List UInt8)
  | freeing (i : ι) (response : Response)
  | done (i : ι) (response : Response) (bytes : List UInt8)
  | abandoned (state : StoredState)

namespace Phase

/-- The record under the key. -/
def stored (xs : ι → Exchange) : Phase ι → Option StoredState
  | free => none
  | reserved i => some (reservation (xs i).request)
  | marked _ => some inProgress
  | running _ => some inProgress
  | storing _ _ _ => some inProgress
  | freeing _ _ => some inProgress
  | done _ response bytes => some (Idempotency.done response bytes)
  | abandoned state => some state

/-- The request that holds the key. -/
def holder : Phase ι → Option ι
  | reserved i => some i
  | marked i => some i
  | running i => some i
  | storing i _ _ => some i
  | freeing i _ => some i
  | _ => none

/-- What the holder still has to do. -/
def rest (xs : ι → Exchange) (k : String) : Phase ι → Async ι Response
  | reserved i => handle i k (xs i).outcome
  | marked i => callNext i (xs i).outcome >>= finish k
  | running i => await (.await i (xs i).outcome) >>= finish k
  | storing _ response bytes => do
    await (.setXx k (Idempotency.done response bytes))
    return .new bytes response.statusCode response.headers response.mediaType
  | freeing _ response => do
    await (.delete k)
    return response
  | _ => .raise .cancelled

/-- What is known of the handler. -/
def Known (xs : ι → Exchange) (k : String) (w : World ι) : Phase ι → Prop
  | storing i response bytes =>
    (xs i).outcome = .ok response ∧ Cacheable response ∧ response.bytes = .ok bytes ∧
      .returned i response ∈ w.events ∧ .started i ∈ w.events
  | done i response bytes =>
    (xs i).key = some k ∧ (xs i).outcome = .ok response ∧ Cacheable response ∧
      response.bytes = .ok bytes ∧ .returned i response ∈ w.events
  | freeing i response =>
    (xs i).outcome = .ok response ∧ ¬ Cacheable response ∧ .started i ∈ w.events
  | running i => .started i ∈ w.events
  | abandoned state =>
    (∃ j, (xs j).key = some k ∧ state = reservation (xs j).request) ∨ state = inProgress
  | _ => True

/-- A handler has returned a response to be kept. -/
def Settled : Phase ι → Prop
  | storing _ _ _ => True
  | done _ _ _ => True
  | abandoned _ => True
  | _ => False

end Phase

/-! ### The invariant -/

/-- The key `k` is in the phase `p`. -/
structure Alive (xs : ι → Exchange) (c : Config (redis ι) (World ι) (Option String) ι Response)
    (k : String) (p : Phase ι) : Prop where
  stored : c.shared.store k = p.stored xs
  holder : ∀ i, (c.procs i).loc = some k ↔ p.holder = some i
  rest : ∀ i, p.holder = some i → (xs i).key = some k ∧ (c.procs i).prog = p.rest xs k
  known : p.Known xs k c.shared
  settled : ∀ j r, (xs j).key = some k → .returned j r ∈ c.shared.events → Cacheable r → p.Settled

/-- The answer `r` to the request `i`, whose key was taken: a conflict, the response of a handler
for the key, or, if a `Bare` record may be read, what is made up for the reservation of the key. -/
def Duplicate (xs : ι → Exchange) (Bare : Prop) (w : World ι) (i : ι) (r : Response) : Prop :=
  r.statusCode = 409 ∨
    (Bare ∧ ∃ j, (xs j).key = (xs i).key ∧ r = replay (reservation (xs j).request)) ∨
    ∃ j response bytes, (xs j).key = (xs i).key ∧ (xs j).outcome = .ok response ∧
      Cacheable response ∧ response.bytes = .ok bytes ∧ .returned j response ∈ w.events ∧
      r = replay (done response bytes)

/-- How the request `i` has ended. -/
def Ended (xs : ι → Exchange) (Bare : Prop) (w : World ι) (i : ι) (res : Except Exc Response) :
    Prop :=
  (xs i).key = none ∨ res = .error .cancelled ∨ .started i ∈ w.events ∨
    ∃ r, res = .ok r ∧ Duplicate xs Bare w i r

/-- Where a request can be that holds no key. -/
inductive Idle (xs : ι → Exchange) (Bare : Prop) (w : World ι) (i : ι) : Async ι Response → Prop
  | fresh : Idle xs Bare w i (dispatch i (xs i).request (xs i).outcome)
  | duplicate {k} (hk : (xs i).key = some k) : Idle xs Bare w i (answerDuplicate k)
  | passing (hk : (xs i).key = none) : Idle xs Bare w i (await (.await i (xs i).outcome))
  | ended {p res} (hp : p.result? = some res) (h : Ended xs Bare w i res) : Idle xs Bare w i p

/-- After a handler has returned a response to be kept, none for its key starts. -/
def NoRestart (xs : ι → Exchange) (e e' : Event ι) : Prop :=
  ∀ j r i, e = .returned j r → Cacheable r → (xs j).key ≠ none → (xs i).key = (xs j).key →
    e' ≠ .started i

structure Inv (xs : ι → Exchange) (Bare : Prop)
    (c : Config (redis ι) (World ι) (Option String) ι Response) : Prop where
  keys : ∀ k, ∃ p, Alive xs c k p
  idle : ∀ i, (c.procs i).loc = none → Idle xs Bare c.shared i (c.procs i).prog
  ordered : c.shared.events.Pairwise (NoRestart xs)

variable {xs : ι → Exchange} {Bare : Prop} {w w' : World ι} {i : ι} {k : String} {p : Phase ι}
  {c c' : Config (redis ι) (World ι) (Option String) ι Response}

theorem alive_pool : Alive xs (pool xs) k .free where
  stored := rfl
  holder i := iff_of_false (by simp [pool, Machine.start, server]) (by simp [Phase.holder])
  rest i h := by cases h
  known := trivial
  settled j r _ h := by cases h

theorem inv_pool : Inv xs Bare (pool xs) :=
  ⟨fun _ => ⟨.free, alive_pool⟩, fun _ _ => .fresh, List.Pairwise.nil⟩

/-! ### What a step leaves alone -/

theorem Duplicate.mono {r : Response} (h : Duplicate xs Bare w i r) (he : w.events ⊆ w'.events) :
    Duplicate xs Bare w' i r := by
  rcases h with h | h | ⟨j, response, bytes, hk, ho, hc, hb, hr, h⟩
  · exact .inl h
  · exact .inr (.inl h)
  · exact .inr (.inr ⟨j, response, bytes, hk, ho, hc, hb, he hr, h⟩)

theorem Idle.mono {q : Async ι Response} (h : Idle xs Bare w i q) (he : w.events ⊆ w'.events) :
    Idle xs Bare w' i q := by
  cases h with
  | fresh => exact .fresh
  | duplicate hk => exact .duplicate hk
  | passing hk => exact .passing hk
  | ended hp h =>
    refine .ended hp ?_
    rcases h with h | h | h | ⟨r, hr, h⟩
    · exact .inl h
    · exact .inr (.inl h)
    · exact .inr (.inr (.inl (he h)))
    · exact .inr (.inr (.inr ⟨r, hr, h.mono he⟩))

theorem Phase.Known.mono (h : p.Known xs k w) (he : w.events ⊆ w'.events) : p.Known xs k w' := by
  cases p with
  | storing i r b => exact ⟨h.1, h.2.1, h.2.2.1, he h.2.2.2.1, he h.2.2.2.2⟩
  | done i r b => exact ⟨h.1, h.2.1, h.2.2.1, h.2.2.2.1, he h.2.2.2.2⟩
  | freeing i r => exact ⟨h.1, h.2.1, he h.2.2⟩
  | running i => exact he h
  | _ => exact h

theorem Phase.eq_free (h : p.stored xs = none) : p = .free := by
  cases p <;> first | rfl | cases h

/-- A statement that does not read a record without a status. -/
def ReadsMarked (w : World ι) : Stmt ι → Prop
  | .get k => ∀ state ∈ w.store k, state.status ≠ none
  | _ => True

instance (w : World ι) : DecidablePred (ReadsMarked w) := fun s =>
  match s with
  | .get k => inferInstanceAs (Decidable (∀ state ∈ w.store k, state.status ≠ none))
  | .setNx _ _ => isTrue trivial
  | .setXx _ _ => isTrue trivial
  | .delete _ => isTrue trivial
  | .start _ => isTrue trivial
  | .await _ _ => isTrue trivial

/-- No request reads a record without a status. -/
def NoBareRead (c : Config (redis ι) (World ι) (Option String) ι Response) : Move ι → Prop
  | .fire i =>
    match (c.procs i).prog with
    | .call s _ => ReadsMarked c.shared s
    | _ => True
  | .kill _ => True

instance (c : Config (redis ι) (World ι) (Option String) ι Response) (m : Move ι) :
    Decidable (NoBareRead c m) :=
  match m with
  | .fire i =>
    match h : (c.procs i).prog with
    | .call s _ => decidable_of_iff (ReadsMarked c.shared s) (by simp [NoBareRead, h])
    | .ret _ => isTrue (by simp [NoBareRead, h])
    | .raise _ => isTrue (by simp [NoBareRead, h])
  | .kill _ => isTrue trivial

/-- The answer to a request whose key is taken. -/
theorem duplicate_answer (ha : Alive xs c k p) (hkey : (xs i).key = some k)
    (hbare : Bare ∨ ∀ state ∈ c.shared.store k, state.status ≠ none) {state : StoredState}
    (hst : c.shared.store k = some state) (hs : state.status ≠ some statusInProgress) :
    Duplicate xs Bare c.shared i (replay state) := by
  have hreserved : ∀ j, (xs j).key = some k → state = reservation (xs j).request →
      Duplicate xs Bare c.shared i (replay state) := by
    rintro j hj rfl
    exact .inr (.inl ⟨hbare.resolve_right fun hb => hb _ hst rfl, j, hj.trans hkey.symm, rfl⟩)
  have hstored := ha.stored.symm.trans hst
  have hprogress : state ≠ inProgress := by
    rintro rfl
    exact hs rfl
  cases p with
  | reserved j => cases hstored; exact hreserved j (ha.rest j rfl).1 rfl
  | done j r b =>
    cases hstored
    obtain ⟨hj, ho, hc, hb, hr⟩ := ha.known
    exact .inr (.inr ⟨j, r, b, hj.trans hkey.symm, ho, hc, hb, hr, rfl⟩)
  | abandoned s =>
    cases hstored
    exact ha.known.elim (fun ⟨j, hj, e⟩ => hreserved j hj e) fun e => absurd e hprogress
  | free => cases hstored
  | _ => exact absurd (Option.some.inj hstored).symm hprogress

section Turn

variable [DecidableEq ι] {l : List (Event ι)} {y : Proc (redis ι) (Option String) Response}
  {q : Phase ι}

/-- A key that a step of `i` is not about. -/
theorem Alive.frame (h : Alive xs c k p) (hstore : w'.store k = c.shared.store k)
    (hevents : w'.events = c.shared.events ++ l)
    (hes : ∀ j r, .returned j r ∈ l → (xs j).key ≠ some k)
    (hloc : (c.procs i).loc ≠ some k) (hloc' : y.loc ≠ some k) :
    Alive xs ⟨w', Function.update c.procs i y⟩ k p := by
  have hi : p.holder ≠ some i := fun hp => hloc ((h.holder i).mpr hp)
  refine ⟨hstore.trans h.stored, fun j => ?_, fun j hj => ?_, ?_, fun j r hk hr hc => ?_⟩
  · by_cases hji : j = i
    · subst hji
      simp only [Function.update_self]
      exact ⟨fun hl => absurd hl hloc', fun hp => absurd hp hi⟩
    · simp only [Function.update_of_ne hji]
      exact h.holder j
  · have hji : j ≠ i := fun e => hi (e ▸ hj)
    simp only [Function.update_of_ne hji]
    exact h.rest j hj
  · exact h.known.mono (hevents ▸ List.subset_append_left _ _)
  · rcases List.mem_append.mp (hevents ▸ hr) with hr | hr
    · exact h.settled j r hk hr hc
    · exact absurd hk (hes j r hr)

/-- The key whose holder is `i`, or becomes it, after a step of `i`. -/
theorem Alive.turn (h : Alive xs c k p) (hi : p.holder = none ∨ p.holder = some i)
    (hi' : q.holder = none ∨ q.holder = some i) (hstore : w'.store k = q.stored xs)
    (hloc : y.loc = some k ↔ q.holder = some i)
    (hrest : q.holder = some i → (xs i).key = some k ∧ y.prog = q.rest xs k)
    (hknown : q.Known xs k w')
    (hsettled : ∀ j r, (xs j).key = some k → .returned j r ∈ w'.events → Cacheable r → q.Settled) :
    Alive xs ⟨w', Function.update c.procs i y⟩ k q := by
  refine ⟨hstore, fun j => ?_, fun j hj => ?_, hknown, hsettled⟩
  · by_cases hji : j = i
    · subst hji
      simpa only [Function.update_self] using hloc
    · simp only [Function.update_of_ne hji]
      rw [h.holder j]
      constructor
      · intro hj
        rcases hi with hi | hi <;> rw [hi] at hj <;> cases hj
        exact absurd rfl hji
      · intro hj
        rcases hi' with hi | hi <;> rw [hi] at hj <;> cases hj
        exact absurd rfl hji
  · have hji : j = i := by
      rcases hi' with hi | hi <;> rw [hi] at hj <;> cases hj
      rfl
    subst hji
    simp only [Function.update_self]
    exact hrest hj

/-- **A step** of the request `i`, about no key but `k`. -/
theorem Inv.turn (h : Inv xs Bare c) (hk : Alive xs ⟨w', Function.update c.procs i y⟩ k q)
    (hstore : ∀ k' ≠ k, w'.store k' = c.shared.store k')
    (hevents : w'.events = c.shared.events ++ l)
    (hes : ∀ j r, .returned j r ∈ l → ∀ k' ≠ k, (xs j).key ≠ some k')
    (hloc : ∀ k', (c.procs i).loc = some k' → k' = k) (hloc' : ∀ k', y.loc = some k' → k' = k)
    (hidle : y.loc = none → Idle xs Bare w' i y.prog) (hone : l.Pairwise (NoRestart xs))
    (hord : ∀ e ∈ c.shared.events, ∀ e' ∈ l, NoRestart xs e e') :
    Inv xs Bare ⟨w', Function.update c.procs i y⟩ := by
  refine ⟨fun k' => ?_, fun j hj => ?_, ?_⟩
  · by_cases hkk : k' = k
    · exact ⟨q, hkk ▸ hk⟩
    · obtain ⟨p, hp⟩ := h.keys k'
      exact ⟨p, hp.frame (hstore k' hkk) hevents (fun j r hr => hes j r hr k' hkk)
        (fun e => hkk (hloc k' e)) fun e => hkk (hloc' k' e)⟩
  · by_cases hji : j = i
    · subst hji
      simp only [Function.update_self] at hj ⊢
      exact hidle hj
    · simp only [Function.update_of_ne hji] at hj ⊢
      exact (h.idle j hj).mono (hevents ▸ List.subset_append_left _ _)
  · change w'.events.Pairwise _
    rw [hevents]
    exact List.pairwise_append.mpr ⟨h.ordered, hone, hord⟩

/-! ### The steps of the holder -/

theorem fire_await {s : Stmt ι} {f : s.Resp → Async ι Response}
    (hp : (c.procs i).prog = await s >>= f) :
    server.fire c i =
      ⟨(exec s c.shared (c.procs i).loc).2.1, Function.update c.procs i
        (server.proceed (Prog.ofExcept (exec s c.shared (c.procs i).loc).1 >>= f)
          (exec s c.shared (c.procs i).loc).2.2)⟩ :=
  Machine.fire_call hp

/-- The invariant after a step of the holder of `k`, with no new event. -/
theorem Inv.hold (h : Inv xs Bare c) (ha : Alive xs c k p) (hp : p.holder = some i)
    (hp' : q.holder = none ∨ q.holder = some i) (hstore : w'.store k = q.stored xs)
    (hothers : ∀ k' ≠ k, w'.store k' = c.shared.store k')
    (hevents : w'.events = c.shared.events ++ l)
    (hes : ∀ j r, .returned j r ∈ l → j = i ∧ (Cacheable r → q.Settled))
    (hstart : ∀ j, .started j ∈ l → j = i ∧ ¬ p.Settled) (hone : l.Pairwise (NoRestart xs))
    (hq : y.loc = some k ∧ q.holder = some i ∨ y.loc = none ∧ q.holder = none)
    (hrest : q.holder = some i → y.prog = q.rest xs k) (hknown : q.Known xs k w')
    (hkeep : p.Settled → q.Settled) (hidle : y.loc = none → Idle xs Bare w' i y.prog) :
    Inv xs Bare ⟨w', Function.update c.procs i y⟩ := by
  have hkey : (xs i).key = some k := (ha.rest i hp).1
  have hloc : (c.procs i).loc = some k := (ha.holder i).mpr hp
  refine h.turn (l := l) (ha.turn (.inr hp) hp' hstore ?_ (fun e => ⟨hkey, hrest e⟩) hknown ?_)
    hothers hevents ?_ ?_ ?_ hidle hone ?_
  · rcases hq with ⟨hq, hp'⟩ | ⟨hq, hp'⟩ <;> simp [hq, hp']
  · intro j r hj hr hc
    rcases List.mem_append.mp (hevents ▸ hr) with hr | hr
    · exact hkeep (ha.settled j r hj hr hc)
    · exact (hes j r hr).2 hc
  · intro j r hr k' hk' hj
    rw [(hes j r hr).1, hkey] at hj
    exact hk' (Option.some.inj hj).symm
  · intro k' hk'
    exact Option.some.inj (hk'.symm.trans hloc)
  · intro k' hk'
    rcases hq with ⟨hq, -⟩ | ⟨hq, -⟩ <;> rw [hq] at hk' <;> cases hk'
    rfl
  · rintro e he e' he' j r i' rfl hc hj hi' rfl
    obtain ⟨rfl, hs⟩ := hstart i' he'
    exact hs (ha.settled j r (hi'.symm.trans hkey) he hc)

theorem step_reserved (h : Inv xs Bare c) (ha : Alive xs c k (.reserved i)) :
    Inv xs Bare (server.fire c i) := by
  obtain ⟨hkey, hprog⟩ := ha.rest i rfl
  have hloc : (c.procs i).loc = some k := (ha.holder i).mpr rfl
  have hst : c.shared.store k = some (reservation (xs i).request) := ha.stored
  rw [fire_await hprog]
  simp only [exec, hst]
  refine h.hold (q := .marked i) (l := []) ha rfl (.inr rfl) (by simp [Phase.stored])
    (fun k' hk' => by simp [hk']) (by simp) (by simp) (by simp) .nil (.inl ⟨hloc, rfl⟩)
    (fun _ => rfl) trivial id (fun hq => ?_)
  rw [show (c.procs i).loc = none from hq] at hloc
  cases hloc

theorem step_marked (h : Inv xs Bare c) (ha : Alive xs c k (.marked i)) :
    Inv xs Bare (server.fire c i) := by
  obtain ⟨hkey, hprog⟩ := ha.rest i rfl
  have hloc : (c.procs i).loc = some k := (ha.holder i).mpr rfl
  rw [Phase.rest, callNext, Prog.bind_assoc] at hprog
  rw [fire_await hprog]
  refine h.hold (q := .running i) (l := [.started i]) ha rfl (.inr rfl) ha.stored
    (fun _ _ => rfl) rfl (by simp) (by simp [Phase.Settled]) (List.pairwise_singleton _ _)
    (.inl ⟨hloc, rfl⟩) (fun _ => rfl) (by simp [Phase.Known, exec]) id (fun hq => ?_)
  rw [show (c.procs i).loc = none from hq] at hloc
  cases hloc

theorem fire_raised {f : Response → Async ι Response} {exc : Exc}
    (hp : (c.procs i).prog = await (.await i (.error exc)) >>= f) :
    server.fire c i = ⟨{ c.shared with events := c.shared.events ++ [.raised i exc] },
      Function.update c.procs i ⟨.raise exc, none⟩⟩ := Machine.fire_call hp

theorem fire_returned {f : Response → Async ι Response} {r : Response}
    (hp : (c.procs i).prog = await (.await i (.ok r)) >>= f) :
    server.fire c i = ⟨{ c.shared with events := c.shared.events ++ [.returned i r] },
      Function.update c.procs i (server.proceed (f r) (c.procs i).loc)⟩ := Machine.fire_call hp

theorem step_running (h : Inv xs Bare c) (ha : Alive xs c k (.running i)) :
    Inv xs Bare (server.fire c i) := by
  obtain ⟨hkey, hprog⟩ := ha.rest i rfl
  have hloc : (c.procs i).loc = some k := (ha.holder i).mpr rfl
  have hs : .started i ∈ c.shared.events := ha.known
  rw [Phase.rest] at hprog
  cases ho : (xs i).outcome with
  | error exc =>
    rw [ho] at hprog
    rw [fire_raised hprog]
    refine h.hold (q := .abandoned inProgress) (l := [.raised i exc]) ha rfl (.inl rfl) ha.stored
      (fun _ _ => rfl) rfl (by simp) (by simp) (List.pairwise_singleton _ _) (.inr ⟨rfl, rfl⟩)
      (fun e => by cases e) (.inr rfl) (fun e => e.elim) fun _ => ?_
    exact .ended rfl (.inr (.inr (.inl (List.mem_append_left _ hs))))
  | ok r =>
    rw [ho] at hprog
    rw [fire_returned hprog]
    by_cases hc : Cacheable r
    · cases hb : r.bytes with
      | error exc =>
        -- reading the body raises
        have hfin : (finish k r : Async ι Response) = .raise exc := by simp [finish, hc, hb]
        rw [hfin]
        refine h.hold (q := .abandoned inProgress) (l := [.returned i r]) ha rfl (.inl rfl)
          ha.stored (fun _ _ => rfl) rfl (by simp [Phase.Settled]) (by simp)
          (List.pairwise_singleton _ _) (.inr ⟨rfl, rfl⟩) (fun e => by cases e) (.inr rfl)
          (fun e => e.elim) fun _ => ?_
        exact .ended rfl (.inr (.inr (.inl (List.mem_append_left _ hs))))
      | ok bytes =>
        have hfin : finish k r = Phase.rest xs k (.storing i r bytes) := by
          simp [finish, hc, hb, Phase.rest]
        rw [hfin]
        refine h.hold (q := .storing i r bytes) (l := [.returned i r]) ha rfl (.inr rfl)
          ha.stored (fun _ _ => rfl) rfl (by simp [Phase.Settled]) (by simp)
          (List.pairwise_singleton _ _) (.inl ⟨hloc, rfl⟩) (fun _ => rfl)
          ⟨ho, hc, hb, List.mem_append_right _ (by simp), List.mem_append_left _ hs⟩
          (fun e => e.elim) fun hq => ?_
        rw [show (c.procs i).loc = none from hq] at hloc
        cases hloc
    · have hfin : finish k r = Phase.rest xs k (.freeing i r) := by
        simp [finish, hc, Phase.rest]
      rw [hfin]
      refine h.hold (q := .freeing i r) (l := [.returned i r]) ha rfl (.inr rfl)
        ha.stored (fun _ _ => rfl) rfl (by simp [hc]) (by simp)
        (List.pairwise_singleton _ _) (.inl ⟨hloc, rfl⟩) (fun _ => rfl)
        ⟨ho, hc, List.mem_append_left _ hs⟩ (fun e => e.elim) fun hq => ?_
      rw [show (c.procs i).loc = none from hq] at hloc
      cases hloc

theorem step_storing {r : Response} {bytes : List UInt8} (h : Inv xs Bare c)
    (ha : Alive xs c k (.storing i r bytes)) : Inv xs Bare (server.fire c i) := by
  obtain ⟨hkey, hprog⟩ := ha.rest i rfl
  obtain ⟨ho, hc, hb, hr, hs⟩ := ha.known
  have hst : c.shared.store k = some inProgress := ha.stored
  rw [fire_await hprog]
  simp only [exec, hst]
  refine h.hold (q := .done i r bytes) (l := []) ha rfl (.inl rfl) (by simp [Phase.stored])
    (fun k' hk' => by simp [hk']) (by simp) (by simp) (by simp) .nil (.inr ⟨rfl, rfl⟩)
    (fun e => by cases e) ⟨hkey, ho, hc, hb, hr⟩ id fun _ => ?_
  exact .ended rfl (.inr (.inr (.inl hs)))

theorem step_freeing {r : Response} (h : Inv xs Bare c) (ha : Alive xs c k (.freeing i r)) :
    Inv xs Bare (server.fire c i) := by
  obtain ⟨hkey, hprog⟩ := ha.rest i rfl
  obtain ⟨ho, hc, hs⟩ := ha.known
  rw [fire_await hprog]
  refine h.hold (q := .free) (l := []) ha rfl (.inl rfl) (by simp [Phase.stored, exec])
    (fun k' hk' => by simp [hk', exec]) (by simp [exec]) (by simp) (by simp) .nil (.inr ⟨rfl, rfl⟩)
    (fun e => by cases e) trivial (fun e => e.elim) fun _ => ?_
  exact .ended rfl (.inr (.inr (.inl hs)))

/-- **The holder's step.** -/
theorem step_holder (h : Inv xs Bare c) (hloc : (c.procs i).loc = some k) :
    Inv xs Bare (server.fire c i) := by
  obtain ⟨p, ha⟩ := h.keys k
  have hp := (ha.holder i).mp hloc
  cases p with
  | reserved j => cases hp; exact step_reserved h ha
  | marked j => cases hp; exact step_marked h ha
  | running j => cases hp; exact step_running h ha
  | storing j r b => cases hp; exact step_storing h ha
  | freeing j r => cases hp; exact step_freeing h ha
  | _ => cases hp

/-! ### The steps of the others -/

/-- A step of a request that holds no key, and leaves the store alone. -/
theorem Inv.pass (h : Inv xs Bare c) (hloc : (c.procs i).loc = none) (hq : y.loc = none)
    (hstore : w'.store = c.shared.store) (hevents : w'.events = c.shared.events ++ l)
    (hes : ∀ j r, .returned j r ∈ l → (xs j).key = none)
    (hstart : ∀ j, .started j ∈ l → (xs j).key = none) (hone : l.Pairwise (NoRestart xs))
    (hidle : Idle xs Bare w' i y.prog) : Inv xs Bare ⟨w', Function.update c.procs i y⟩ := by
  refine ⟨fun k => ?_, fun j hj => ?_, ?_⟩
  · obtain ⟨p, hp⟩ := h.keys k
    refine ⟨p, hp.frame (by rw [hstore]) hevents (fun j r hr hj => ?_) (by simp [hloc])
      (by simp [hq])⟩
    rw [hes j r hr] at hj
    cases hj
  · by_cases hji : j = i
    · subst hji
      simpa only [Function.update_self] using hidle
    · simp only [Function.update_of_ne hji] at hj ⊢
      exact (h.idle j hj).mono (hevents ▸ List.subset_append_left _ _)
  · change w'.events.Pairwise _
    rw [hevents]
    refine List.pairwise_append.mpr ⟨h.ordered, hone, ?_⟩
    rintro e he e' he' j r i' rfl hc hj hi' rfl
    exact hj (hi' ▸ hstart i' he')

theorem step_duplicate (h : Inv xs Bare c) (hbare : Bare ∨ NoBareRead c (.fire i))
    (hloc : (c.procs i).loc = none) (hkey : (xs i).key = some k)
    (hprog : (c.procs i).prog = answerDuplicate k) : Inv xs Bare (server.fire c i) := by
  have hbare : Bare ∨ ∀ state ∈ c.shared.store k, state.status ≠ none := by
    refine hbare.imp_right fun hb => ?_
    simp only [NoBareRead, hprog] at hb
    exact hb
  obtain ⟨p, ha⟩ := h.keys k
  rw [fire_await hprog]
  cases hst : c.shared.store k with
  | none =>
    refine h.pass (l := []) hloc ?_ rfl (by simp [exec]) (by simp) (by simp) .nil ?_
    · simp [exec, hst, Machine.proceed, server]
    · refine .ended (show _ = some (.ok keyInUse) by simp [exec, hst, Prog.result?]) ?_
      exact .inr (.inr (.inr ⟨_, rfl, .inl rfl⟩))
  | some state =>
    by_cases hs : state.status = some statusInProgress
    · refine h.pass (l := []) hloc ?_ rfl (by simp [exec]) (by simp) (by simp) .nil ?_
      · simp [exec, hst, hs, Machine.proceed, server]
      · refine .ended (show _ = some (.ok beingProcessed) by simp [exec, hst, hs, Prog.result?]) ?_
        exact .inr (.inr (.inr ⟨_, rfl, .inl rfl⟩))
    · refine h.pass (l := []) hloc ?_ rfl (by simp [exec]) (by simp) (by simp) .nil ?_
      · simp [exec, hst, hs, Machine.proceed, server]
      · refine .ended (show _ = some (.ok (replay state)) by simp [exec, hst, hs, Prog.result?]) ?_
        exact .inr (.inr (.inr ⟨_, rfl, duplicate_answer ha hkey hbare hst hs⟩))

theorem step_fresh (h : Inv xs Bare c) (hloc : (c.procs i).loc = none)
    (hprog : (c.procs i).prog = dispatch i (xs i).request (xs i).outcome) :
    Inv xs Bare (server.fire c i) := by
  unfold dispatch at hprog
  cases hkey : redisKey (xs i).request with
  | none =>
    rw [hkey] at hprog
    have hkey : (xs i).key = none := hkey
    rw [fire_await hprog]
    exact h.pass (l := [.started i]) hloc hloc rfl rfl (by simp) (by simp [hkey])
      (List.pairwise_singleton _ _) (.passing hkey)
  | some k =>
    rw [hkey] at hprog
    have hkey : (xs i).key = some k := hkey
    rw [fire_await hprog]
    cases hst : c.shared.store k with
    | some state =>
      simp only [exec, hst]
      exact h.pass (l := []) hloc hloc rfl (by simp) (by simp) (by simp) .nil (.duplicate hkey)
    | none =>
      obtain ⟨p, ha⟩ := h.keys k
      obtain rfl := Phase.eq_free (ha.stored.symm.trans hst)
      simp only [exec, hst]
      refine h.turn (k := k) (q := .reserved i) (l := []) ?_ (fun k' hk' => by simp [hk']) (by simp)
        (by simp) (fun k' hk' => ?_) (fun k' hk' => ?_) (fun hq => by cases hq) .nil (by simp)
      · refine ha.turn (.inl rfl) (.inr rfl) (by simp [Phase.stored]) ⟨fun _ => rfl, fun _ => rfl⟩
          (fun _ => ⟨hkey, rfl⟩) trivial fun j r hj hr hc => ?_
        exact ha.settled j r hj hr hc
      · rw [hloc] at hk'
        cases hk'
      · exact (Option.some.inj hk').symm

theorem step_passing (h : Inv xs Bare c) (hloc : (c.procs i).loc = none) (hkey : (xs i).key = none)
    (hprog : (c.procs i).prog = await (.await i (xs i).outcome)) :
    Inv xs Bare (server.fire c i) := by
  rw [Machine.fire_call hprog]
  cases ho : (xs i).outcome with
  | ok r =>
    exact h.pass (l := [.returned i r]) hloc rfl rfl rfl (by simp [hkey]) (by simp)
      (List.pairwise_singleton _ _) (.ended rfl (.inl hkey))
  | error exc =>
    exact h.pass (l := [.raised i exc]) hloc rfl rfl rfl (by simp) (by simp)
      (List.pairwise_singleton _ _) (.ended rfl (.inl hkey))

/-- **Every step** of a request keeps the life of every key. -/
theorem Inv.fire (h : Inv xs Bare c) (i : ι) (hbare : Bare ∨ NoBareRead c (.fire i)) :
    Inv xs Bare (server.fire c i) := by
  cases hloc : (c.procs i).loc with
  | some k => exact step_holder h hloc
  | none =>
    have hidle := h.idle i hloc
    generalize hprog : (c.procs i).prog = y at hidle
    cases hidle with
    | fresh => exact step_fresh h hloc hprog
    | duplicate hk => exact step_duplicate h hbare hloc hk hprog
    | passing hk => exact step_passing h hloc hk hprog
    | ended hq =>
      rw [← hprog] at hq
      rwa [Machine.fire_done (Prog.done_of_result hq)]

/-- A cancelled request abandons its key. -/
theorem Inv.kill (h : Inv xs Bare c) (i : ι) : Inv xs Bare (server.kill c i) := by
  have hidle : ∀ w, Idle xs Bare w i (.raise .cancelled) := fun w => .ended rfl (.inr (.inl rfl))
  cases hloc : (c.procs i).loc with
  | none =>
    exact h.pass (l := []) hloc rfl rfl (by simp) (by simp) (by simp) .nil (hidle _)
  | some k =>
    obtain ⟨p, ha⟩ := h.keys k
    have hp := (ha.holder i).mp hloc
    obtain ⟨state, hst, hs⟩ : ∃ state, p.stored xs = some state ∧
        ((∃ j, (xs j).key = some k ∧ state = reservation (xs j).request) ∨
          state = inProgress) := by
      cases p with
      | reserved j => exact ⟨_, rfl, .inl ⟨j, (ha.rest j rfl).1, rfl⟩⟩
      | marked j => exact ⟨_, rfl, .inr rfl⟩
      | running j => exact ⟨_, rfl, .inr rfl⟩
      | storing j r b => exact ⟨_, rfl, .inr rfl⟩
      | freeing j r => exact ⟨_, rfl, .inr rfl⟩
      | _ => cases hp
    exact h.hold (q := .abandoned state) (l := []) ha hp (.inl rfl) (ha.stored.trans hst)
      (fun _ _ => rfl) (by simp) (by simp) (by simp) .nil (.inr ⟨rfl, rfl⟩) (fun e => by cases e) hs
      (fun _ => trivial) fun _ => hidle _

/-- **Every run** keeps the life of every key. -/
theorem Inv.run {P : Config (redis ι) (World ι) (Option String) ι Response → Move ι → Prop}
    (hP : Bare ∨ ∀ c m, P c m → NoBareRead c m) (h : Inv xs Bare c) (hr : server.Run P c c') :
    Inv xs Bare c' := by
  refine hr.invariant (Inv xs Bare) h fun c m c' hc hm hs => ?_
  cases hs with
  | fire he => exact hc.fire _ (hP.imp id fun hP => hP c _ hm)
  | kill hd => exact hc.kill _

/-- The requests of a schedule, one after another. -/
theorem Inv.fireAll (h : Inv xs True c) (is : List ι) : Inv xs True (server.fireAll is c) := by
  induction is generalizing c with
  | nil => exact h
  | cons i is ih => exact ih (h.fire i (.inl trivial))

end Turn

/-! ### A response that is kept -/

section Kept

variable {response : Response} {bytes : List UInt8}

/-- No request holds a key whose response is kept. -/
theorem Inv.loc_done (h : Inv xs Bare c) (hst : c.shared.store k = some (done response bytes)) :
    (c.procs i).loc ≠ some k := by
  obtain ⟨p, ha⟩ := h.keys k
  have hstored := ha.stored.symm.trans hst
  have hstatus : ∀ {state}, p.stored xs = some state → state.status ≠ some statusDone → False := by
    intro state hs hne
    rw [hs] at hstored
    exact hne (congrArg StoredState.status (Option.some.inj hstored))
  intro hloc
  have hp := (ha.holder i).mp hloc
  cases p with
  | reserved j => exact hstatus rfl (by rintro ⟨⟩)
  | marked j => exact hstatus rfl (by decide)
  | running j => exact hstatus rfl (by decide)
  | storing j r b => exact hstatus rfl (by decide)
  | freeing j r => exact hstatus rfl (by decide)
  | _ => cases hp

variable [DecidableEq ι]

/-- A holder's step does not show at other keys. -/
theorem store_holder {k' : String} (ha : Alive xs c k' p) (hp : p.holder = some i) (hk : k ≠ k') :
    (server.fire c i).shared.store k = c.shared.store k := by
  have hprog := (ha.rest i hp).2
  have hst := ha.stored
  cases p with
  | reserved j => rw [fire_await hprog]; simp only [exec, hst, Phase.stored]; simp [hk]
  | marked j =>
    rw [Phase.rest, callNext, Prog.bind_assoc] at hprog
    rw [fire_await hprog]
    rfl
  | running j =>
    cases hp
    rw [Phase.rest] at hprog
    cases ho : (xs i).outcome with
    | error exc => rw [ho] at hprog; rw [fire_raised hprog]
    | ok r => rw [ho] at hprog; rw [fire_returned hprog]
  | storing j r b => rw [fire_await hprog]; simp only [exec, hst, Phase.stored]; simp [hk]
  | freeing j r => rw [fire_await hprog]; simp [exec, hk]
  | _ => cases hp

/-- **A response that is kept stays**, whatever the requests do. -/
theorem Inv.store_done (h : Inv xs Bare c) (hst : c.shared.store k = some (done response bytes))
    (i : ι) : (server.fire c i).shared.store k = some (done response bytes) := by
  rw [← hst]
  cases hloc : (c.procs i).loc with
  | some k' =>
    obtain ⟨p, ha⟩ := h.keys k'
    have hk : k ≠ k' := by
      rintro rfl
      exact h.loc_done hst hloc
    exact store_holder ha ((ha.holder i).mp hloc) hk
  | none =>
    have hidle := h.idle i hloc
    generalize hprog : (c.procs i).prog = y at hidle
    cases hidle with
    | fresh =>
      unfold dispatch at hprog
      cases hkey : redisKey (xs i).request with
      | none => rw [hkey] at hprog; rw [fire_await hprog]; rfl
      | some k' =>
        rw [hkey] at hprog
        rw [fire_await hprog]
        by_cases hk : k' = k
        · subst hk
          simp only [exec, hst]
        · cases hst' : c.shared.store k' <;> simp [exec, hst', Ne.symm hk]
    | duplicate hk => rw [fire_await hprog]; rfl
    | passing hk =>
      rw [Machine.fire_call hprog]
      cases (xs i).outcome <;> rfl
    | ended hq =>
      rw [← hprog] at hq
      rw [Machine.fire_done (Prog.done_of_result hq)]

end Kept

/-! ### What the invariant says -/

/-- The holder of a key has not ended. -/
theorem Inv.not_done (h : Inv xs Bare c) (hloc : (c.procs i).loc = some k) :
    ¬ (c.procs i).prog.Done := by
  obtain ⟨p, ha⟩ := h.keys k
  have hp := (ha.holder i).mp hloc
  rw [(ha.rest i hp).2]
  cases p <;> first | exact id | cases hp

/-- How a request has ended. -/
theorem Inv.ended (h : Inv xs Bare c) {res : Except Exc Response}
    (hres : (c.procs i).prog.result? = some res) : Ended xs Bare c.shared i res := by
  have hdone : (c.procs i).prog.Done := Prog.done_of_result hres
  cases hloc : (c.procs i).loc with
  | some k => exact absurd hdone (h.not_done hloc)
  | none =>
    have hidle := h.idle i hloc
    generalize (c.procs i).prog = q at hidle hres hdone
    cases hidle with
    | fresh =>
      unfold dispatch at hdone
      split at hdone <;> exact absurd hdone id
    | duplicate hk => exact absurd hdone id
    | passing hk => exact absurd hdone id
    | ended hq he =>
      rw [hres] at hq
      cases hq
      exact he

/-- The next statement of the request `i` is the end of its handler. -/
def InHandler (c : Config (redis ι) (World ι) (Option String) ι Response) (i : ι) : Prop :=
  match (c.procs i).prog with
  | .call (.await _ _) _ => True
  | _ => False

/-- A request with a key, whose handler runs, holds the key. -/
theorem Inv.inHandler (h : Inv xs Bare c) (hi : InHandler c i) (hkey : (xs i).key = some k) :
    (c.procs i).loc = some k := by
  cases hloc : (c.procs i).loc with
  | some k' =>
    obtain ⟨p, ha⟩ := h.keys k'
    exact (ha.rest i ((ha.holder i).mp hloc)).1.symm.trans hkey
  | none =>
    have hidle := h.idle i hloc
    unfold InHandler at hi
    generalize (c.procs i).prog = q at hidle hi
    cases hidle with
    | fresh =>
      have hkey : redisKey (xs i).request = some k := hkey
      simp only [dispatch, hkey] at hi
      exact hi.elim
    | duplicate hk => exact hi.elim
    | passing hk =>
      rw [hk] at hkey
      cases hkey
    | ended hq he =>
      cases q with
      | call s k => cases hq
      | _ => exact hi.elim

end PaymentGateway.Middleware.Lifecycle
