import PaymentGateway.Specs.Callback

/-! # Whether an initiated payment can be settled

A vpa is accepted with up to 255 characters and is kept with its transaction, but the identifier of
a ledger account has at most 128. A pending payment can be settled exactly if its vpa fits. -/

namespace PaymentGateway.Results.Payability

open PaymentGateway.Core.Ids PaymentGateway.Models PaymentGateway.Schemas
open PaymentGateway.Lib.Sessions PaymentGateway.Lib.DecimalArith PaymentGateway.Lib.Tables
open PaymentGateway.Db.Statements PaymentGateway.Db.Locking PaymentGateway.Services.Webhook
open PaymentGateway.State.Changes PaymentGateway.State.Invariant PaymentGateway.Outlines.Webhook
open PaymentGateway.Runs.Serial PaymentGateway.Specs.Callback

/-- The transaction and its intent have succeeded, and the debit and the credit are posted. -/
def Settled (t : Transaction) (i : PaymentIntent) (d : Db) : Prop :=
  ∃ t' ∈ d.transactions, ∃ i' ∈ d.intents, t'.id = t.id ∧ i'.id = i.id ∧
    t'.state = .success ∧ i'.status = .success ∧
    ∃ x y, entriesOf d t' = [x, y] ∧ IsDebit d t' i' x ∧ IsCredit d i' y

/-- The success callback does not raise, and settles the payment. -/
def Payable (t : Transaction) (i : PaymentIntent) (psp : String) (amount : Decimal)
    (ids : CallbackIds) (d : Db) : Prop :=
  (∃ res, (database.serve (processBankCallback .paymentSuccess psp amount ids) d).1 = .ok res) ∧
    Settled t i (database.serve (processBankCallback .paymentSuccess psp amount ids) d).2

variable {d : Db} {t : Transaction} {i : PaymentIntent} {psp : String} {amount : Decimal}
  {ids : CallbackIds}

/-- A successful transaction of a reachable state is settled, and so is its intent. -/
theorem settled_of_success (h : Reachable d) (ht : t ∈ d.transactions) (hs : t.state = .success)
    (hi : i ∈ d.intents) (hit : i.id = t.intentId) : Settled t i d := by
  have hstatus : i.status = .success := by
    rcases h.consistent.coupled.pair t ht i hi hit with hc | hc | hc
    · rw [hs] at hc; cases hc.2
    · exact hc.1
    · rw [hs] at hc; cases hc.2
  exact ⟨t, ht, i, hi, rfl, rfl, hs, hstatus, h.consistent.posted.pair t ht hs i hi hit⟩

/-- A vpa that is too long for the ledger is never settled. -/
theorem not_payable_long (h : Reachable d) (hf : Found psp t i d) (ht : t.state = .pending)
    (ha : amountDiffers i amount = .ok false) (hids : Fresh ids d) (hr : InRange t i d)
    (hlen : 128 < t.vpa.length) : ¬ Payable t i psp amount ids d := by
  rintro ⟨⟨res, hres⟩, -⟩
  rw [serve_pending _ h hf hids hr ha ht, if_pos ⟨rfl, hlen⟩] at hres
  cases hres

theorem payable_short (h : Reachable d) (hf : Found psp t i d) (ht : t.state = .pending)
    (ha : amountDiffers i amount = .ok false) (hids : Fresh ids d) (hr : InRange t i d)
    (hlen : t.vpa.length ≤ 128) : Payable t i psp amount ids d := by
  have hserve := serve_pending .paymentSuccess h hf hids hr ha ht
  rw [if_neg fun hc => Nat.not_lt.mpr hlen hc.2] at hserve
  have hreach : Reachable (settled t i .paymentSuccess ids d) := by
    have := reachable_after h ⟨.paymentSuccess, psp, amount, ids⟩
    unfold BankCallback.after BankCallback.serve at this
    rwa [hserve] at this
  unfold Payable
  rw [hserve]
  refine ⟨⟨_, rfl⟩, ?_⟩
  obtain ⟨t', ht', i', hi', hti, hii, hrest⟩ := settled_of_success hreach
    (List.mem_map_of_mem (f := withState t.id .success) hf.txn) (by rw [withState_self])
    (List.mem_map_of_mem (f := withStatus i.id .success) hf.intent)
    (by rw [withStatus_id, withState_intentId]; exact hf.intentId)
  exact ⟨t', ht', i', hi', hti.trans withState_id, hii.trans withStatus_id, hrest⟩

/-! ### A vpa that is too long -/

namespace Sample

open PaymentGateway.Runs.Serial.Sample

def longVpa : String := String.ofList (List.replicate 124 'a' ++ "@bank".toList)

theorem length_longVpa : longVpa.length = 129 := by
  unfold longVpa
  rw [String.length_ofList, List.length_append, List.length_replicate]
  rfl

theorem at_mem_longVpa : '@' ∈ longVpa.toList := by
  unfold longVpa
  rw [String.toList_ofList]
  exact List.mem_append_right _ (by decide)

/-- A request with a vpa of 129 characters. -/
def longPays : UpiInitiateRequest :=
  initiation longVpa ⟨at_mem_longVpa, by rw [length_longVpa]; omega,
    by rw [length_longVpa]; omega⟩

end Sample

/-- **Payability.** In every reachable state, the success callback with the amount of its intent
settles a pending payment exactly if its vpa has at most 128 characters. -/
theorem payable_iff (h : Reachable d) (ht : t ∈ d.transactions) (hp : t.state = .pending)
    (hpsp : t.pspReference = some psp) (hi : i ∈ d.intents) (hit : i.id = t.intentId)
    (ha : amountDiffers i amount = .ok false) (hids : Fresh ids d) (hr : InRange t i d) :
    Payable t i psp amount ids d ↔ t.vpa.length ≤ 128 := by
  have hf : Found psp t i d := ⟨ht, hpsp, hi, hit⟩
  refine ⟨fun hpay => ?_, payable_short h hf hp ha hids hr⟩
  by_contra hlen
  exact not_payable_long h hf hp ha hids hr (Nat.not_le.mp hlen) hpay

/-- Alice's payment can be settled. -/
theorem payable_iff_alice : Payable (Sample.transaction "alice@bank") Sample.intent
    (newId "psp" "token") Sample.hundred Sample.drawn
    (Sample.waiting Runs.Serial.Sample.alicePays) :=
  (payable_iff (reachable_serveAll (reachable_empty _) (by decide)) (by decide) rfl rfl
    (by decide) rfl (by decide) (Sample.fresh _) (Sample.inRange _ _ _)).mpr (by decide)

/-- A payment of a vpa with 129 characters is accepted, and cannot be settled. -/
theorem not_payable_longVpa : Reachable (Sample.waiting Sample.longPays) ∧
    ∃ t ∈ (Sample.waiting Sample.longPays).transactions, t.state = .pending ∧
      t.pspReference = some (newId "psp" "token") ∧
      ∃ i ∈ (Sample.waiting Sample.longPays).intents, i.id = t.intentId ∧
        amountDiffers i Sample.hundred = .ok false ∧
        Fresh Sample.drawn (Sample.waiting Sample.longPays) ∧
        InRange t i (Sample.waiting Sample.longPays) ∧
        ¬ Payable t i (newId "psp" "token") Sample.hundred Sample.drawn
          (Sample.waiting Sample.longPays) := by
  have hreach : Reachable (Sample.waiting Sample.longPays) :=
    reachable_serveAll (reachable_empty _) (by decide)
  have ht : Sample.transaction Sample.longVpa ∈ (Sample.waiting Sample.longPays).transactions := by
    decide +kernel
  have hi : Sample.intent ∈ (Sample.waiting Sample.longPays).intents := by decide +kernel
  have ha : amountDiffers Sample.intent Sample.hundred = .ok false := by decide
  refine ⟨hreach, _, ht, rfl, rfl, _, hi, rfl, ha, Sample.fresh _, Sample.inRange _ _ _, ?_⟩
  refine not_payable_long hreach ⟨ht, rfl, hi, rfl⟩ rfl ha (Sample.fresh _)
    (Sample.inRange _ _ _) ?_
  rw [show (Sample.transaction Sample.longVpa).vpa = Sample.longVpa from rfl,
    Sample.length_longVpa]
  omega

end PaymentGateway.Results.Payability
