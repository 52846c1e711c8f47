import PaymentGateway.Outlines.Requests
import PaymentGateway.Outlines.Webhook
import PaymentGateway.Runs.Serial

/-! # Concurrent initiations and callbacks

A pool of initiation requests, each of which authenticates and then initiates in one session, and of
bank callbacks. As long as every request that queries for duplicates sees the intent as it is
(`CurrentMove`), every step of the pool is one of the changes of the serial runs. -/

namespace PaymentGateway.Runs.Concurrent

open PaymentGateway.Core.Ids PaymentGateway.Models PaymentGateway.Schemas
open PaymentGateway.Lib.Program PaymentGateway.Lib.Sessions PaymentGateway.Lib.Interference
open PaymentGateway.Lib.DecimalArith PaymentGateway.Db.Statements PaymentGateway.Db.Locking
open PaymentGateway.Services.Payment PaymentGateway.Services.Webhook
open PaymentGateway.Api.Deps PaymentGateway.Api.Payments
open PaymentGateway.State.Changes PaymentGateway.State.Invariant
open PaymentGateway.Outlines.Rules PaymentGateway.Outlines.Payment PaymentGateway.Outlines.Requests
open PaymentGateway.Outlines.Webhook PaymentGateway.Runs.Serial

/-- An initiation request, or a bank callback in a session of its own. -/
inductive Request
  | initiateUpi (credentials : Credentials) (payload : UpiInitiateRequest) (ids : InitiateIds)
  | bankCallback (event : BankCallbackEvent) (pspReference : String) (amount : Decimal)
      (ids : CallbackIds)

variable (security : Security)

/-- What a request does. -/
def Request.prog : Request → Sql Reply
  | .initiateUpi credentials payload ids => do
    let response ← initiateUpiPayment security credentials payload ids
    return .payment response
  | .bankCallback event psp amount ids => do
    let result ← processBankCallback event psp amount ids
    return .callback result

/-- The change that a request may commit. -/
def Request.effect : Request → Db → Db → Prop
  | .initiateUpi _ _ ids => Initiates ids
  | .bankCallback event psp amount _ => Settles event psp amount

/-- The requests before their first statement. -/
def pool {ι : Type} (requests : ι → Request) (d : Db) : Config sql Db Session ι Reply :=
  database.start d fun i => (requests i).prog security

/-- A request does not query for duplicates with an intent it has as created, and finds none, when
the intent is not created any more. -/
def CurrentMove {ι : Type} (c : Config sql Db Session ι Reply) : Move ι → Prop
  | .fire i =>
    match (c.procs i).prog with
    | .call s _ => Current s c.shared (c.procs i).loc
    | _ => True
  | .kill _ => True

instance {ι : Type} (c : Config sql Db Session ι Reply) (m : Move ι) :
    Decidable (CurrentMove c m) :=
  match m with
  | .fire i =>
    match h : (c.procs i).prog with
    | .call s _ => decidable_of_iff (Current s c.shared (c.procs i).loc) (by simp [CurrentMove, h])
    | .ret _ => isTrue (by simp [CurrentMove, h])
    | .raise _ => isTrue (by simp [CurrentMove, h])
  | .kill _ => isTrue trivial

variable {ι : Type} {requests : ι → Request} {security : Security} {d d' : Db}
  {c c' : Config sql Db Session ι Reply}

theorem Request.effect_change {r : Request} (h : r.effect d d') : Change d d' := by
  cases r with
  | initiateUpi credentials payload ids => exact Initiates.change h
  | bankCallback event psp amount ids => exact Settles.change h

/-- The outline of a request. -/
theorem Request.outline (r : Request) {A : Stmt → Db → Session → Prop}
    (hA : ∀ s d l, A s d l → Current s d l) :
    Outline (contract Consistent A r.effect) (fun _ _ _ => True) (r.prog security) .closed d := by
  cases r with
  | initiateUpi credentials payload ids =>
    refine Outline.bind (P := fun _ _ _ => True) ?_ (fun _ _ _ _ => trivial) fun _ _ _ _ => trivial
    exact outline_initiateUpiPayment (fun _ h => h) (fun _ _ h => h) hA fun _ _ _ => trivial
  | bankCallback event psp amount ids =>
    refine Outline.bind (P := fun _ _ _ => True) ?_ (fun _ _ _ _ => trivial) fun _ _ _ _ => trivial
    exact outline_processBankCallback (fun _ h => h) (fun _ _ h => h) (.inr fun _ _ _ => trivial)
      (fun _ _ _ _ _ _ => trivial) fun _ _ _ _ _ => trivial

/-- The contracts of the requests. -/
abbrev contracts (requests : ι → Request) (i : ι) : Contract database :=
  contract Consistent Current (requests i).effect

/-- A configuration of the pool in which everything is in order. -/
abbrev InOrder (requests : ι → Request) (c : Config sql Db Session ι Reply) : Prop :=
  Sound isolation Consistent (contracts requests) (fun _ _ _ => True) c

theorem fits : Fits isolation Consistent CurrentMove (contracts requests)
    (fun _ _ _ => True : ι → Except Exc Reply → Db → Prop) := by
  refine fits_contract (fun c i s k hP hprog => ?_) (fun i d d' hJ h => ?_)
    (fun _ _ _ _ _ _ => trivial) fun _ _ => trivial
  · simp only [CurrentMove, hprog] at hP
    exact hP
  · exact hJ.change (Request.effect_change h)

theorem inOrder_start (h : Consistent d) : InOrder requests (pool security requests d) :=
  .start h fun i => (requests i).outline fun _ _ _ h => h

/-- **Every step of the pool** leaves the database as it is or makes one change. -/
theorem inOrder_run [DecidableEq ι] (h : InOrder requests c) (hr : database.Run CurrentMove c c') :
    InOrder requests c' ∧ Relation.ReflTransGen
      (fun d d' => Consistent d ∧ (d' = d ∨ Change d d')) c.shared c'.shared := by
  obtain ⟨h', hg⟩ := h.run fits hr
  refine ⟨h', hg.lift id ?_⟩
  rintro d d' ⟨hd, i, hi⟩
  exact ⟨hd, hi.imp id Request.effect_change⟩

end PaymentGateway.Runs.Concurrent
