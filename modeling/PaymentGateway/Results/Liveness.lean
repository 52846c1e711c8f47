import PaymentGateway.Results.Origins
import PaymentGateway.Runs.Liveness

/-! # Every request is answered

The endpoints, in any interleaving, never wait for each other in a circle, and no request goes on
for ever. So all of them come to an end, if the scheduler goes on as long as something can. -/

namespace PaymentGateway.Results.Liveness

open PaymentGateway.Models PaymentGateway.Lib.Program PaymentGateway.Lib.Sessions
open PaymentGateway.Lib.Deadlock PaymentGateway.Lib.Termination PaymentGateway.Db.Statements
open PaymentGateway.Db.Locking PaymentGateway.Db.LockOrder PaymentGateway.State.Invariant
open PaymentGateway.Runs.Origins PaymentGateway.Runs.Liveness PaymentGateway.Results.Origins

variable {ι : Type} {gateway : Gateway} {ms : List Merchant} {requests : ι → Request}
  {c : Config sql Db Session ι Reply}

/-- No account id is drawn by two requests. -/
def DistinctAccounts (requests : ι → Request) : Prop :=
  ∀ i j, i ≠ j → ∀ id ∈ accountIds (requests i), id ∉ accountIds (requests j)

/-- What holds in every state of a run. -/
structure Disciplined (gateway : Gateway) (ms : List Merchant) (requests : ι → Request)
    (c : Config sql Db Session ι Reply) : Prop where
  sound : InOrder gateway ms requests c
  pool : exclusive.Pool c
  onTrail : OnTrail Balanced (fun i => relaxed (accountIds (requests i))) c

theorem Disciplined.rising (h : Disciplined gateway ms requests c)
    (hids : DistinctAccounts requests) :
    Rising database (fun i => height (c.procs i)) c :=
  rising_of_onTrail h.onTrail h.sound.settled hids h.sound.inv.balanced.keys.accounts h.pool

variable [DecidableEq ι]

theorem disciplined (hr : Reaches gateway ms requests c) : Disciplined gateway ms requests c := by
  refine hr.invariant (Disciplined gateway ms requests)
    ⟨inOrder_start ms, exclusive.pool_start _ _, ?_⟩ fun c m c' h _ hs => ?_
  · exact OnTrail.start fun i => guarded_request gateway (fun _ hb => hb.chart.vpa) (requests i)
  · exact ⟨h.sound.step fits trivial hs, exclusive.pool_step h.pool hs,
      h.onTrail.step h.pool h.sound.inv.balanced hs⟩

/-- A move that kills no request. -/
def Fires (_ : Config sql Db Session ι Reply) (m : Move ι) : Prop := ∃ i, m = .fire i

/-- **Every request is answered.** In every state that finitely many requests reach, they do not
wait in a circle, and if one has not been answered, one can go on; no run goes on for ever; and
there is a run, without a death, after which all have been answered. -/
theorem all_answered [Finite ι] (hids : DistinctAccounts requests)
    (hr : Reaches gateway ms requests c) :
    (∀ i, ¬ Relation.TransGen (WaitsFor database c) i i) ∧
    (∀ i, ¬ (c.procs i).prog.Done → ∃ j, ¬ (c.procs j).prog.Done ∧ database.Enabled c j) ∧
    (∀ f : ℕ → Config sql Db Session ι Reply, f 0 = c →
      ¬ ∀ n, ∃ m, database.Step (f n) m (f (n + 1))) ∧
    ∃ c', database.Run Fires c c' ∧ ∀ i, (c'.procs i).prog.Done := by
  have hrising := fun {c} (hr : Reaches gateway ms requests c) => (disciplined hr).rising hids
  refine ⟨(hrising hr).acyclic, fun i hi => (hrising hr).progress hi,
    fun f _ => no_endless_run f, comes_to_rest (fun _ i => ⟨i, rfl⟩) fun c' hrun hbusy => ?_⟩
  obtain ⟨i, hi⟩ := hbusy
  have hr' : Reaches gateway ms requests c' :=
    hr.trans (hrun.mono fun _ _ _ => trivial)
  obtain ⟨j, -, hj⟩ := (hrising hr').progress hi
  exact ⟨j, hj⟩

/-! ### Two callbacks for one payment -/

namespace Sample

open PaymentGateway.Services.Webhook PaymentGateway.Runs.Serial.Sample
open PaymentGateway.Results.Origins.Sample

/-- What the second callback draws. -/
def drawnAgain : CallbackIds := ⟨uuid 14, uuid 15, uuid 16, uuid 17⟩

/-- The bank sends its callback again. -/
def resent : Option (Fin 3) → Request
  | some r => purchase r
  | none => .bankCallback 0 ⟨Lib.Utf8.encode confirmation, some digest, none⟩ drawnAgain (uuid 18)
    (.ok ())

def programs : Option (Fin 3) → Sql Reply
  | some r => Origins.Sample.programs r
  | none => acknowledged shopGateway confirmed drawnAgain (uuid 18) (.ok ())

theorem prog_resent : ∀ r, (resent r).prog shopGateway = programs r
  | some r => prog_purchase r
  | none => prog_of_receive receive_confirmation _ _ _

/-- The payment is begun, and the first callback has locked its transaction. -/
def turns : List (Option (Fin 3)) := (checkout ++ settlement.take 1).map some

def contended : Config sql Db Session (Option (Fin 3)) Reply :=
  database.fireAll turns (database.start (Db.empty [shop]) programs)

theorem allowed_contended : Machine.Allowed database (fun _ _ => True) turns
    (database.start (Db.empty [shop]) programs) := by
  decide +kernel

theorem reaches_contended : Reaches shopGateway [shop] resent contended := by
  have hpool : pool shopGateway resent (Db.empty [shop]) =
      database.start (Db.empty [shop]) programs :=
    congrArg (database.start (Db.empty [shop])) (funext prog_resent)
  unfold Reaches
  rw [hpool]
  exact Machine.run_fireAll allowed_contended

theorem distinct_resent : DistinctAccounts resent := by
  unfold DistinctAccounts
  decide

end Sample

/-- The second callback has to wait for the first, and both are answered. -/
theorem all_answered_contended :
    (¬ (Sample.contended.procs none).prog.Done ∧ ¬ database.Enabled Sample.contended none) ∧
    ∃ c', database.Run Fires Sample.contended c' ∧ ∀ i, (c'.procs i).prog.Done := by
  obtain ⟨-, -, -, hrest⟩ := all_answered Sample.distinct_resent Sample.reaches_contended
  exact ⟨by decide +kernel, hrest⟩

end PaymentGateway.Results.Liveness
