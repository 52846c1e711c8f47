import PaymentGateway.Runs.Serial

/-! # Concurrent callbacks are serializable

Callbacks run in sessions of their own. Whatever the interleaving of their statements, it is as if
each had run all at once when it ended. -/

namespace PaymentGateway.Results.Serializability

open PaymentGateway.Core.Ids PaymentGateway.Models PaymentGateway.Schemas
open PaymentGateway.Lib.Program PaymentGateway.Lib.Sessions PaymentGateway.Lib.DecimalArith
open PaymentGateway.Lib.Serializability PaymentGateway.Db.Statements PaymentGateway.Db.Locking
open PaymentGateway.Db.Replay PaymentGateway.Services.Webhook
open PaymentGateway.State.Changes PaymentGateway.State.Invariant
open PaymentGateway.Runs.Shapes PaymentGateway.Runs.Serial

/-- An execution of `process_bank_callback`, with the ids it draws. -/
structure Callback where
  event : BankCallbackEvent
  pspReference : String
  amount : Decimal
  ids : CallbackIds

/-- What it does. -/
def Callback.prog (c : Callback) : Sql CallbackResult :=
  processBankCallback c.event c.pspReference c.amount c.ids

/-- A move that kills no process. -/
def Fires {ι : Type} (_ : Config sql Db Session ι CallbackResult) (m : Move ι) : Prop :=
  ∃ i, m = .fire i

instance {ι : Type} (c : Config sql Db Session ι CallbackResult) (m : Move ι) :
    Decidable (Fires c m) :=
  match m with
  | .fire i => isTrue ⟨i, rfl⟩
  | .kill _ => isFalse fun ⟨_, h⟩ => by cases h

variable {ι : Type} {cs : ι → Callback} {d : Db}

/-- The state after callbacks one after another is reached by calls. -/
theorem reachable_serial (h : Reachable d) (order : List ι) :
    Reachable (database.serial (fun i => (cs i).prog) order d).2 := by
  induction order generalizing d with
  | nil => exact h
  | cons i is ih =>
    exact ih (h.step
      ⟨.processBankCallback (cs i).event (cs i).pspReference (cs i).amount (cs i).ids,
        trivial, rfl⟩)

theorem fst_serial (order : List ι) (d : Db) :
    (database.serial (fun i => (cs i).prog) order d).1.map (·.1) = order := by
  induction order generalizing d with
  | nil => rfl
  | cons i is ih => exact congrArg (i :: ·) (ih _)

/-- At most one debit and one credit. -/
theorem entries_of_transaction (h : Consistent d) {t : Transaction} (ht : t ∈ d.transactions) :
    entriesOf d t = [] ∨
      ∃ x y, entriesOf d t = [x, y] ∧ x.entryType = .debit ∧ y.entryType = .credit := by
  by_cases hs : t.state = .success
  · obtain ⟨i, hi, hit⟩ := h.keys.intent_of t ht
    obtain ⟨x, y, hxy, hx, hy⟩ := h.posted.pair t ht hs i hi hit
    exact .inr ⟨x, y, hxy, hx.1, hy.1⟩
  · exact .inl (h.posted.none t ht hs)

/-- **Serializability.** In every state of every interleaving of callbacks from a reachable
database, the callbacks that have ended have the results, and the database is the one, of serving
them one after another. So each transaction has at most one pair of entries, and no balance lacks
one. -/
theorem callbacks_serializable [DecidableEq ι] {c : Config sql Db Session ι CallbackResult}
    (h : Reachable d) (hr : database.Run Fires (database.start d fun i => (cs i).prog) c) :
    (∃ order : List ι, order.Nodup ∧ (∀ i, i ∈ order ↔ (c.procs i).prog.Done) ∧
      (database.serial (fun i => (cs i).prog) order d).2 = c.shared ∧
      ∀ i r, (i, r) ∈ (database.serial (fun i => (cs i).prog) order d).1 ↔
        (c.procs i).prog.result? = some r) ∧
    (∀ t ∈ c.shared.transactions, entriesOf c.shared t = [] ∨
      ∃ x y, entriesOf c.shared t = [x, y] ∧ x.entryType = .debit ∧ y.entryType = .credit) ∧
    ∀ a ∈ c.shared.accounts, a.balance.units = posted c.shared a.id := by
  have hquiet : ∀ s d l, ¬ Ends s → database.after s d l = d :=
    fun s d l hs => exec_db fun hc => hs (.inl hc)
  have hnever : ∀ (c : Config sql Db Session ι CallbackResult) i, ¬ Fires c (.kill i) := by
    rintro c i ⟨j, hj⟩
    cases hj
  obtain ⟨order, hser⟩ := serializable hnever hquiet stable
    (fun i => oneShot_processBankCallback (cs i).event (cs i).pspReference (cs i).amount (cs i).ids)
    (fun i => follows_processBankCallback (cs i).event (cs i).pspReference (cs i).amount (cs i).ids)
    (fun i => id) hr
  obtain ⟨rs, hrs, hres⟩ := hser.serial
  have hresults : (database.serial (fun i => (cs i).prog) order d).1 = rs := congrArg (·.1) hrs
  have hshared : (database.serial (fun i => (cs i).prog) order d).2 = c.shared := congrArg (·.2) hrs
  have hc : Consistent c.shared := hshared ▸ (reachable_serial h order).consistent
  refine ⟨⟨order, hser.nodup, hser.done, hshared, fun i r => ⟨fun hir => ?_, fun hr => ?_⟩⟩,
    fun t ht => entries_of_transaction hc ht, hc.posted.balance⟩
  · exact hres i r (hresults ▸ hir)
  · -- a callback with a result has ended, and so has its place in the order
    have hi : i ∈ (database.serial (fun i => (cs i).prog) order d).1.map (·.1) :=
      (fst_serial order d).symm ▸ (hser.done i).mpr (Prog.done_of_result hr)
    obtain ⟨⟨j, r'⟩, hjr, rfl⟩ := List.mem_map.mp hi
    have := hres j r' (hresults ▸ hjr)
    rw [hr] at this
    cases this
    exact hjr

/-! ### Two callbacks that open the merchant's account -/

namespace Sample

def uuid := Runs.Serial.Sample.uuid

/-- A second order of the merchant. -/
def secondOrder : CreateOrderRequest :=
  { Runs.Serial.Sample.rupees with
    idempotencyKey := "order-0002"
    idempotencyKey_valid := by decide }

def secondInitiation : UpiInitiateRequest :=
  { Runs.Serial.Sample.bobPays with
    orderId := newId "ord" "second"
    orderId_valid := by decide }

/-- Two payments wait for their callbacks. -/
def waiting : Db :=
  serveAll
    [Runs.Serial.Sample.ordering Runs.Serial.Sample.rupees, Runs.Serial.Sample.initiating,
      .createOrder Runs.Serial.Sample.shop secondOrder ⟨uuid 8, "second"⟩,
      .initiateUpi Runs.Serial.Sample.shop secondInitiation ⟨uuid 9, "second", "second"⟩]
    (Db.empty [Runs.Serial.Sample.shop])

def callbacks : Two → Callback
  | .first => ⟨.paymentSuccess, newId "psp" "token", .finite false 100 0,
      ⟨uuid 12, uuid 13, uuid 14, uuid 15⟩⟩
  | .second => ⟨.paymentSuccess, newId "psp" "second", .finite false 100 0,
      ⟨uuid 16, uuid 17, uuid 18, uuid 19⟩⟩

/-- Both lock their transaction, their intent and their payer; the second waits for the first to
open the merchant's account. -/
def settled : Config sql Db Session Two CallbackResult :=
  database.fireAll
    ([.first, .second, .second, .first, .first, .second, .second, .first, .second, .first, .first,
      .second] ++ List.replicate 7 .first ++ List.replicate 7 .second)
    (database.start waiting fun i => (callbacks i).prog)

theorem waiting_reachable : Reachable waiting := reachable_serveAll (reachable_empty _) (by decide)

end Sample

/-- Both payments are on the merchant's account. -/
theorem callbacks_serializable_settled :
    (∃ order : List Two, ∀ i, i ∈ order ↔ (Sample.settled.procs i).prog.Done) ∧
    (Sample.settled.procs .first).prog.Done ∧ (Sample.settled.procs .second).prog.Done ∧
    ∃ a ∈ Sample.settled.shared.accounts, a.balance.units = 2000000 ∧
      a.balance.units = posted Sample.settled.shared a.id := by
  have hr : database.Run Fires (database.start Sample.waiting fun i => (Sample.callbacks i).prog)
      Sample.settled := Machine.run_fireAll (by decide +kernel)
  have h := callbacks_serializable Sample.waiting_reachable hr
  obtain ⟨order, -, hd, -⟩ := h.1
  have ha : ∃ a ∈ Sample.settled.shared.accounts, a.balance.units = 2000000 := by decide +kernel
  obtain ⟨a, ha, hb⟩ := ha
  exact ⟨⟨order, hd⟩, by decide +kernel, by decide +kernel, a, ha, hb, h.2.2 a ha⟩

end PaymentGateway.Results.Serializability
