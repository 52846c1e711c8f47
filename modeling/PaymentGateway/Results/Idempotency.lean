import PaymentGateway.Middleware.Lifecycle

/-! # Idempotency keys

Requests with one Redis key, in any interleaving. At most one of them runs its handler at a time,
and none after a response was kept. A request whose key is taken is answered with a conflict or that
response, unless it reads the bare reservation of a rival; and a request that has reserved its key
gives it up, or leaves its response, if its handler does not raise. -/

namespace PaymentGateway.Results.Idempotency

open PaymentGateway.Lib.Program PaymentGateway.Lib.Sessions PaymentGateway.Lib.Utf8
open PaymentGateway.Middleware.Statements PaymentGateway.Middleware.Idempotency
open PaymentGateway.Middleware.Lifecycle

variable {ι : Type} [DecidableEq ι] {xs : ι → Exchange} {i j : ι} {k : String}
  {c : Config (redis ι) (World ι) (Option String) ι Response}
  {P : Config (redis ι) (World ι) (Option String) ι Response → Move ι → Prop}

/-! ### One execution -/

/-- **At most one effective execution.** In every run, no two handlers of one key are in flight, and
after one has returned a status in `[200, 500)` none of its key starts. -/
theorem one_execution (hr : server.Run P (pool xs) c) :
    (∀ i j, InHandler c i → InHandler c j → (xs i).key ≠ none → (xs i).key = (xs j).key → i = j) ∧
    c.shared.events.Pairwise fun e e' => ∀ j r i, e = .returned j r → Cacheable r →
      (xs j).key ≠ none → (xs i).key = (xs j).key → e' ≠ .started i := by
  have h : Inv xs True c := inv_pool.run (.inl trivial) hr
  refine ⟨fun i j hi hj hk hij => ?_, h.ordered⟩
  obtain ⟨k, hk⟩ := Option.ne_none_iff_exists'.mp hk
  obtain ⟨p, ha⟩ := h.keys k
  have hpi := (ha.holder i).mp (h.inHandler hi hk)
  have hpj := (ha.holder j).mp (h.inHandler hj (hij ▸ hk))
  exact Option.some.inj (hpi.symm.trans hpj)

/-! ### What a duplicate is answered -/

/-- If the response of the handler is kept, its body is UTF-8. -/
def Textual (x : Exchange) : Prop :=
  ∀ r bytes, x.outcome = .ok r → Cacheable r → r.bytes = .ok bytes → Valid bytes

/-- A replayed response. -/
theorem replay_done {r : Response} {bytes : List UInt8} (hb : r.bytes = .ok bytes)
    (hv : Valid bytes) :
    (replay (done r bytes)).statusCode = r.statusCode ∧
      (replay (done r bytes)).bytes = r.bytes := by
  refine ⟨rfl, ?_⟩
  calc (replay (done r bytes)).bytes = .ok (encode (decode bytes)) := Response.bytes_new
    _ = .ok bytes := congrArg Except.ok hv
    _ = r.bytes := hb.symm

/-- **Duplicates** see a conflict or the real result, if the bodies that are kept are UTF-8 and no
request reads a reservation that is not marked as in progress. -/
theorem duplicate_answered (htext : ∀ j, (xs j).key ≠ none → Textual (xs j))
    (hr : server.Run NoBareRead (pool xs) c) {res : Except Exc Response} (hkey : (xs i).key ≠ none)
    (hres : (c.procs i).prog.result? = some res) (hnot : .started i ∉ c.shared.events) :
    res = .error .cancelled ∨ ∃ r, res = .ok r ∧ (r.statusCode = 409 ∨
      ∃ j response, (xs j).key = (xs i).key ∧ .returned j response ∈ c.shared.events ∧
        r.statusCode = response.statusCode ∧ r.bytes = response.bytes) := by
  have h : Inv xs False c := inv_pool.run (.inr fun _ _ h => h) hr
  rcases h.ended hres with hk | hc | hs | ⟨r, hr, hd⟩
  · exact absurd hk hkey
  · exact .inl hc
  · exact absurd hs hnot
  refine .inr ⟨r, hr, ?_⟩
  rcases hd with h409 | ⟨hbare, -⟩ | ⟨j, response, bytes, hj, ho, hc, hb, hret, rfl⟩
  · exact .inl h409
  · exact hbare.elim
  · have hv : Valid bytes := htext j (hj ▸ hkey) response bytes ho hc hb
    obtain ⟨hstatus, hbytes⟩ := replay_done hb hv
    exact .inr ⟨j, response, hj, hret, hstatus, hbytes⟩

/-! ### What a request leaves behind -/

/-- `call_next` gives a response, whose body can be read if it is to be kept. -/
def Completes (outcome : Except Exc Response) : Prop :=
  ∃ r, outcome = .ok r ∧ (Cacheable r → ∃ bytes, r.bytes = .ok bytes)

/-- The key is absent, or done with the response of the handler. -/
def Released (xs : ι → Exchange) (i : ι) (k : String) (w : World ι) : Prop :=
  w.store k = none ∨ ∃ r bytes, (xs i).outcome = .ok r ∧ Cacheable r ∧ r.bytes = .ok bytes ∧
    w.store k = some (done r bytes)

omit [DecidableEq ι] in
theorem not_released_of_inProgress {w : World ι} (hw : w.store k = some inProgress) :
    ¬ Released xs i k w := by
  rintro (hn | ⟨r, bytes, -, -, -, hdone⟩)
  · rw [hw] at hn
    cases hn
  · rw [hw] at hdone
    have hstatus : some statusInProgress = some statusDone :=
      congrArg StoredState.status (Option.some.inj hdone)
    exact absurd hstatus (by decide)

omit [DecidableEq ι] in
/-- After a handler that has completed the dispatch goes on, to keep the response or to give up the
key. -/
theorem not_done_finish {r : Response} (h : Completes (.ok r)) :
    ¬ (finish k r : Async ι Response).Done := by
  obtain ⟨r', hr, hread⟩ := h
  cases hr
  unfold finish
  by_cases hc : Cacheable r
  · obtain ⟨bytes, hb⟩ := hread hc
    rw [if_pos hc, hb]
    exact id
  · rw [if_neg hc]
    exact id

/-- **A finished request.** When the dispatch of a request that has reserved its key ends, the key
is released if and only if the handler has completed. -/
theorem released_iff (hr : server.Run P (pool xs) c) (hloc : (c.procs i).loc = some k)
    (hd : ((server.fire c i).procs i).prog.Done) :
    Released xs i k (server.fire c i).shared ↔ Completes (xs i).outcome := by
  have h : Inv xs True c := inv_pool.run (.inl trivial) hr
  obtain ⟨p, ha⟩ := h.keys k
  have hp := (ha.holder i).mp hloc
  obtain ⟨hkey, hprog⟩ := ha.rest i hp
  cases p with
  | reserved j =>
    cases hp
    have hst : c.shared.store k = some (reservation (xs i).request) := ha.stored
    rw [Machine.fire_self hprog] at hd
    simp only [server, exec, hst] at hd
    exact absurd hd id
  | marked j =>
    cases hp
    rw [Phase.rest, callNext, Prog.bind_assoc] at hprog
    rw [Machine.fire_self hprog] at hd
    exact absurd hd id
  | running j =>
    cases hp
    have hst : c.shared.store k = some inProgress := ha.stored
    rw [Phase.rest] at hprog
    cases ho : (xs i).outcome with
    | error exc =>
      rw [ho] at hprog
      rw [fire_raised hprog]
      refine iff_of_false (not_released_of_inProgress hst) ?_
      rintro ⟨r, hr, -⟩
      cases hr
    | ok r =>
      rw [ho] at hprog
      rw [Machine.fire_self hprog] at hd
      rw [fire_returned hprog]
      exact iff_of_false (not_released_of_inProgress hst) fun h => not_done_finish h hd
  | storing j r b =>
    cases hp
    obtain ⟨ho, hc, hb, -, -⟩ := ha.known
    have hst : c.shared.store k = some inProgress := ha.stored
    have hafter : (server.fire c i).shared.store k = some (done r b) := by
      rw [fire_await hprog]
      simp [exec, hst]
    exact iff_of_true (.inr ⟨r, b, ho, hc, hb, hafter⟩) ⟨r, ho, fun _ => ⟨b, hb⟩⟩
  | freeing j r =>
    cases hp
    obtain ⟨ho, hc, -⟩ := ha.known
    have hafter : (server.fire c i).shared.store k = none := by
      rw [fire_await hprog]
      simp [exec]
    exact iff_of_true (.inl hafter) ⟨r, ho, fun h => absurd h hc⟩
  | _ => cases hp

/-! ### Two requests with one key -/

namespace Sample

def request : Request where
  method := "POST"
  path := "/v1/payments/upi/initiate"
  idempotencyKey := some "key-0001"
  requestId := none
  credentials := ⟨none, some "api-key"⟩
  body := []

def key : String := "idem:/v1/payments/upi/initiate:key-0001"

def created : Response := .new (encode "PENDING") 201 [] (some "application/json")

/-- Handlers that answer. -/
def answering : Two → Exchange := fun _ => ⟨request, .ok created⟩

/-- Handlers that raise what the endpoint does not catch. -/
def raising : Two → Exchange := fun _ =>
  ⟨request, .error (.endpoint "Illegal payment intent transition PROCESSING -> PROCESSING")⟩

abbrev State := Config (redis Two) (World Two) (Option String) Two Response

/-- The first request is about to store its response. -/
def storing : State := server.fireAll (List.replicate 4 .first) (pool answering)

/-- The second comes after the first. -/
def replayed : State :=
  server.fireAll (List.replicate 5 .first ++ List.replicate 2 .second) (pool answering)

/-- The second reads the record of the key before the first has marked it. -/
def early : State := server.fireAll [.first, .second, .second] (pool answering)

/-- The handler of the first request is about to raise. -/
def failing : State := server.fireAll (List.replicate 3 .first) (pool raising)

/-- It has, and the request is sent again. -/
def retried : State := server.fireAll [.first, .second, .second] failing

end Sample

/-- The second request finds the response of the first, whose handler alone has run. -/
theorem one_execution_replayed :
    Sample.replayed.shared.events = [.started .first, .returned .first Sample.created] ∧
    ∀ i j, InHandler Sample.replayed i → InHandler Sample.replayed j →
      (Sample.answering i).key ≠ none → (Sample.answering i).key = (Sample.answering j).key →
        i = j := by
  have hr : server.Run (fun _ _ => True) (pool Sample.answering) Sample.replayed :=
    Machine.run_fireAll (by decide +kernel)
  exact ⟨by decide +kernel, (one_execution hr).1⟩

/-- Its answer has the status and the body of that response. -/
theorem duplicate_answered_replayed :
    (Sample.replayed.procs .second).prog.result? =
      some (.ok (replay (done Sample.created (encode "PENDING")))) ∧
    ∃ j response, .returned j response ∈ Sample.replayed.shared.events ∧
      (replay (done Sample.created (encode "PENDING"))).statusCode = response.statusCode ∧
      (replay (done Sample.created (encode "PENDING"))).bytes = response.bytes := by
  have hr : server.Run NoBareRead (pool Sample.answering) Sample.replayed :=
    Machine.run_fireAll (by decide +kernel)
  have hres : (Sample.replayed.procs .second).prog.result? =
      some (.ok (replay (done Sample.created (encode "PENDING")))) := by decide +kernel
  have htext : ∀ j, (Sample.answering j).key ≠ none → Textual (Sample.answering j) := by
    rintro j - r bytes hr - hb
    cases hr
    cases hb
    exact valid_iff.mpr ⟨"PENDING", by simp⟩
  rcases duplicate_answered htext hr (by decide) hres (by decide +kernel) with h | ⟨r, h, hd⟩
  · cases h
  · cases h
    obtain ⟨j, response, -, hret, hstatus, hbytes⟩ := hd.resolve_left (by decide)
    exact ⟨hres, j, response, hret, hstatus, hbytes⟩

/-- A success made up from a bare reservation: the handler of the first request has not started. -/
theorem made_up :
    server.Run (fun _ _ => True) (pool Sample.answering) Sample.early ∧
    (Sample.early.procs .second).prog.result? = some (.ok (replay (reservation Sample.request))) ∧
    (replay (reservation Sample.request)).statusCode = 200 ∧ Sample.early.shared.events = [] ∧
    ¬ ∀ i res, (Sample.answering i).key ≠ none → (Sample.early.procs i).prog.result? = some res →
      .started i ∉ Sample.early.shared.events → res = .error .cancelled ∨
        ∃ r, res = .ok r ∧ (r.statusCode = 409 ∨
          ∃ j response, (Sample.answering j).key = (Sample.answering i).key ∧
            .returned j response ∈ Sample.early.shared.events ∧
            r.statusCode = response.statusCode ∧ r.bytes = response.bytes) := by
  have hres : (Sample.early.procs .second).prog.result? =
      some (.ok (replay (reservation Sample.request))) := by decide +kernel
  have hevents : Sample.early.shared.events = [] := by decide +kernel
  refine ⟨Machine.run_fireAll (by decide +kernel), hres, rfl, hevents, fun h => ?_⟩
  rcases h .second _ (by decide) hres (by simp [hevents]) with h | ⟨r, h, hd⟩
  · cases h
  · cases h
    rcases hd with h409 | ⟨j, response, -, hret, -⟩
    · exact absurd h409 (by decide)
    · rw [hevents] at hret
      cases hret

/-- A response that is kept. -/
theorem released_iff_storing :
    Completes (Sample.answering .first).outcome ∧
      Released Sample.answering .first Sample.key (server.fire Sample.storing .first).shared := by
  have hr : server.Run (fun _ _ => True) (pool Sample.answering) Sample.storing :=
    Machine.run_fireAll (by decide +kernel)
  have hc : Completes (Sample.answering .first).outcome := ⟨Sample.created, rfl, fun _ => ⟨_, rfl⟩⟩
  exact ⟨hc, (released_iff hr (by decide +kernel) (by decide +kernel)).mpr hc⟩

/-- A handler that raises leaves its key in progress, and a retry is answered 409. -/
theorem not_released :
    server.Run (fun _ _ => True) (pool Sample.raising) Sample.failing ∧
    (Sample.failing.procs .first).loc = some Sample.key ∧
    ((server.fire Sample.failing .first).procs .first).prog.Done ∧
    ¬ Released Sample.raising .first Sample.key (server.fire Sample.failing .first).shared ∧
    (Sample.retried.procs .second).prog.result? = some (.ok beingProcessed) := by
  refine ⟨Machine.run_fireAll (by decide +kernel), by decide +kernel, by decide +kernel, ?_,
    by decide +kernel⟩
  rintro (hn | ⟨r, bytes, ho, -⟩)
  · exact absurd hn (by decide +kernel)
  · cases ho

end PaymentGateway.Results.Idempotency
