import PaymentGateway.Results.Serializability
import PaymentGateway.Runs.LockOrder

/-! # No deadlock

Callbacks and initiations, each in a session of its own, in any interleaving: the waits for locks
and for uncommitted accounts never form a cycle, and as long as one of finitely many has not ended,
one can go on. -/

namespace PaymentGateway.Results.Deadlocks

open PaymentGateway.Core.Ids PaymentGateway.Models PaymentGateway.Schemas
open PaymentGateway.Lib.Program PaymentGateway.Lib.Sessions PaymentGateway.Lib.Interference
open PaymentGateway.Lib.Deadlock PaymentGateway.Lib.DecimalArith
open PaymentGateway.Db.Statements PaymentGateway.Db.Locking PaymentGateway.Db.LockOrder
open PaymentGateway.Services.Payment PaymentGateway.Services.Webhook
open PaymentGateway.State.Changes PaymentGateway.State.Invariant
open PaymentGateway.Outlines.Rules PaymentGateway.Outlines.Payment PaymentGateway.Outlines.Webhook
open PaymentGateway.Runs.Serial PaymentGateway.Runs.LockOrder

/-- An execution of one of the two services, with what it draws at random. -/
inductive Execution
  | initiateUpi (merchant : Merchant) (payload : UpiInitiateRequest) (ids : InitiateIds)
  | processBankCallback (event : BankCallbackEvent) (pspReference : String) (amount : Decimal)
      (ids : CallbackIds)

namespace Execution

/-- What it does. -/
def prog : Execution → Sql Reply
  | initiateUpi merchant payload ids => do
    let response ← Services.Payment.initiateUpi merchant payload ids
    return .payment response
  | processBankCallback event psp amount ids => do
    let result ← Services.Webhook.processBankCallback event psp amount ids
    return .callback result

/-- The ids it draws for accounts. -/
def accountIds : Execution → List UUID
  | initiateUpi _ _ _ => []
  | processBankCallback _ _ _ ids => [ids.payerAccountId, ids.merchantAccountId]

/-- The change it may commit. -/
def effect : Execution → Db → Db → Prop
  | initiateUpi _ _ ids => Initiates ids
  | processBankCallback event psp amount _ => Settles event psp amount

theorem outline (x : Execution) (d : Db) :
    Outline (contract Consistent (fun _ _ _ => True) x.effect) (fun _ _ _ => True) x.prog .closed
      d := by
  cases x with
  | initiateUpi merchant payload ids =>
    refine Outline.bind (P := fun _ _ _ => True) ?_ (fun _ _ _ _ => trivial) fun _ _ _ _ => trivial
    exact outline_initiateUpi (fun _ h => h) (fun _ _ h => h) (.inl rfl) rfl rfl
      (fun _ _ _ => trivial) fun _ _ _ _ => trivial
  | processBankCallback event psp amount ids =>
    refine Outline.bind (P := fun _ _ _ => True) ?_ (fun _ _ _ _ => trivial) fun _ _ _ _ => trivial
    exact outline_processBankCallback (fun _ h => h) (fun _ _ h => h) (.inr fun _ _ _ => trivial)
      (fun _ _ _ _ _ _ => trivial) fun _ _ _ _ _ => trivial

theorem inOrder (x : Execution) : InOrder x.accountIds x.prog [] .closed := by
  cases x with
  | initiateUpi merchant payload ids =>
    exact (guarded_initiateUpi merchant payload ids).bind_quiet fun _ => trivial
  | processBankCallback event psp amount ids =>
    exact (guarded_processBankCallback event psp amount ids (by simp [accountIds])).bind_quiet
      fun _ => trivial

end Execution

variable {ι : Type} {xs : ι → Execution} {d : Db} {c : Config sql Db Session ι Reply}

/-- The executions before their first statement. -/
def pool (xs : ι → Execution) (d : Db) : Config sql Db Session ι Reply :=
  database.start d fun i => (xs i).prog

/-- No account id is drawn by two executions. -/
def Distinct (xs : ι → Execution) : Prop :=
  ∀ i j, i ≠ j → ∀ id ∈ (xs i).accountIds, id ∉ (xs j).accountIds

theorem fits : Fits isolation Consistent (fun _ _ => True)
    (fun i => contract Consistent (fun _ _ _ => True) (xs i).effect)
    (fun _ _ _ => True : ι → Except Exc Reply → Db → Prop) := by
  refine fits_contract (fun _ _ _ _ _ _ => trivial) (fun i d d' hJ h => ?_)
    (fun _ _ _ _ _ _ => trivial) fun _ _ => trivial
  cases hx : xs i with
  | initiateUpi merchant payload ids =>
    rw [hx] at h
    exact hJ.change (Initiates.change h)
  | processBankCallback event psp amount ids =>
    rw [hx] at h
    exact hJ.change (Settles.change h)

/-- What holds in every state of a run. -/
structure Disciplined (xs : ι → Execution) (c : Config sql Db Session ι Reply) : Prop where
  sound : Sound isolation Consistent
    (fun i => contract Consistent (fun _ _ _ => True) (xs i).effect) (fun _ _ _ => True) c
  pool : exclusive.Pool c
  onTrail : OnTrail Consistent (fun i => trail (xs i).accountIds) c

theorem disciplined [DecidableEq ι] (h : Reachable d)
    (hr : database.Run (fun _ _ => True) (pool xs d) c) : Disciplined xs c := by
  refine hr.invariant (Disciplined xs) ⟨?_, exclusive.pool_start _ _, ?_⟩ fun c m c' ho _ hs => ?_
  · exact Sound.start h.consistent fun i => (xs i).outline d
  · exact OnTrail.start fun i => (xs i).inOrder
  · exact ⟨ho.sound.step fits trivial hs, exclusive.pool_step ho.pool hs,
      ho.onTrail.step ho.pool ho.sound.inv hs⟩

theorem Disciplined.climbing (h : Disciplined xs c) (hids : Distinct xs) : Climbing database level c :=
  h.onTrail.climbing h.sound.settled not_waits_closed fun {i j _ _ _ _} hne ho ho' hh hw =>
    level_of_waits (hids i j hne) h.sound.inv.keys.accounts (h.pool.own j).1
      (h.pool.apart i j hne).2 ho ho' hh hw

/-- **Deadlock freedom.** -/
theorem deadlock_free [Finite ι] [DecidableEq ι] (h : Reachable d) (hids : Distinct xs)
    (hr : database.Run (fun _ _ => True) (pool xs d) c) :
    (∀ i, ¬ Relation.TransGen (WaitsFor database c) i i) ∧
    ∀ i, ¬ (c.procs i).prog.Done → ∃ j, ¬ (c.procs j).prog.Done ∧ database.Enabled c j :=
  have hc := (disciplined h hr).climbing hids
  ⟨hc.acyclic, fun _ hi => hc.progress hi⟩

/-! ### Two callbacks for one merchant -/

namespace Sample

def callbacks (i : Two) : Execution :=
  .processBankCallback (Serializability.Sample.callbacks i).event
    (Serializability.Sample.callbacks i).pspReference (Serializability.Sample.callbacks i).amount
    (Serializability.Sample.callbacks i).ids

/-- The first has inserted the merchant's account, the second is about to. -/
def blocked : Config sql Db Session Two Reply :=
  database.fireAll (List.replicate 7 .first ++ List.replicate 6 .second)
    (pool callbacks Serializability.Sample.waiting)

end Sample

theorem deadlock_free_blocked : ¬ database.Enabled Sample.blocked .second ∧
    ∃ j, ¬ (Sample.blocked.procs j).prog.Done ∧ database.Enabled Sample.blocked j := by
  have hr : database.Run (fun _ _ => True)
      (pool Sample.callbacks Serializability.Sample.waiting) Sample.blocked :=
    Machine.run_fireAll (by decide +kernel)
  have hids : Distinct Sample.callbacks := by
    intro i j
    cases i <;> cases j <;> decide
  exact ⟨by decide +kernel,
    (deadlock_free Serializability.Sample.waiting_reachable hids hr).2 .second (by decide +kernel)⟩

end PaymentGateway.Results.Deadlocks
