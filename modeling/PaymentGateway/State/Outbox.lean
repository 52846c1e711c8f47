import PaymentGateway.State.Invariant

/-! # Payments and their notifications

What the outbox says about the payment of a provider reference: whether it has come to its end
(`Settled`), whom to notify (`Notifiable`), and whether a delivery is written (`Delivered`). The
changes of a callback keep what is settled and delivered, and whom a reference belongs to
(`Advance`). -/

namespace PaymentGateway.State.Outbox

open PaymentGateway.Core.Ids PaymentGateway.Models PaymentGateway.Db.Statements
open PaymentGateway.Lib.Tables PaymentGateway.State.Changes PaymentGateway.State.Invariant

/-- The merchants of a reference, one for each of its transactions. -/
def merchantsOf (psp : String) (d : Db) : List Merchant :=
  d.merchants.flatMap fun m => (d.intents.filter (·.merchantId = m.id)).flatMap fun i =>
    (d.transactions.filter fun t => t.intentId = i.id ∧ t.pspReference = some psp).map fun _ => m

/-- The transaction `id` of the reference is not pending any more. -/
def SettledAs (psp : String) (id : UUID) (d : Db) : Prop :=
  ∃ t ∈ d.transactions, t.pspReference = some psp ∧ t.id = id ∧ t.state ≠ .pending

def Settled (psp : String) (d : Db) : Prop := ∃ id, SettledAs psp id d

/-- A transaction of the reference has a delivery. -/
def Delivered (psp : String) (d : Db) : Prop :=
  ∃ t ∈ d.transactions, t.pspReference = some psp ∧ ∃ w ∈ d.deliveries, w.transactionId = t.id

/-- The reference has one merchant, and it wants to be notified. -/
def Notifiable (psp : String) (d : Db) : Prop :=
  ∃ m url, merchantsOf psp d = [m] ∧ m.webhookUrl = some url ∧ url ≠ ""

/-- What is settled and delivered stays so, and references keep their merchants. -/
structure Advance (d d' : Db) : Prop where
  settled : ∀ {psp id}, SettledAs psp id d → SettledAs psp id d'
  delivered : ∀ {psp}, Delivered psp d → Delivered psp d'
  merchants : ∀ psp, merchantsOf psp d' = merchantsOf psp d

variable {d d' : Db} {psp psp' : String} {t : Transaction} {i : PaymentIntent} {p : Posting}

theorem Advance.refl (d : Db) : Advance d d := ⟨id, id, fun _ => rfl⟩

theorem Advance.notifiable (h : Advance d d') : Notifiable psp d' ↔ Notifiable psp d := by
  unfold Notifiable
  rw [h.merchants]

theorem mem_merchantsOf {m : Merchant} : m ∈ merchantsOf psp d ↔ m ∈ d.merchants ∧
    ∃ i ∈ d.intents, i.merchantId = m.id ∧
      ∃ t ∈ d.transactions, t.intentId = i.id ∧ t.pspReference = some psp := by
  simp only [merchantsOf, List.mem_flatMap, List.mem_filter, List.mem_map, decide_eq_true_eq]
  constructor
  · rintro ⟨m', hm, i, ⟨hi, him⟩, t, ⟨ht, hti, htp⟩, rfl⟩
    exact ⟨hm, i, hi, him, t, ht, hti, htp⟩
  · rintro ⟨hm, i, hi, him, t, ht, hti, htp⟩
    exact ⟨m, hm, i, ⟨hi, him⟩, t, ⟨ht, hti, htp⟩, rfl⟩

/-! ### The end of a payment -/

/-- The transaction `t` of the intent `i` has come to its end. -/
structure Finished (t : Transaction) (i : PaymentIntent) (d d' : Db) : Prop where
  txn : t ∈ d.transactions
  merchants : d'.merchants = d.merchants
  intents : ∃ status, d'.intents = d.intents.map (withStatus i.id status)
  transactions : ∃ state, state ≠ .pending ∧
    d'.transactions = d.transactions.map (withState t.id state)
  deliveries : d'.deliveries = d.deliveries

theorem finished_of_failed (h : Failed t i d d') : Finished t i d d' := by
  have ht := h.txn
  obtain rfl := h.db
  exact ⟨ht, rfl, ⟨_, rfl⟩, ⟨.failed, by decide, rfl⟩, rfl⟩

theorem finished_of_succeeded (h : Succeeded t i p d d') : Finished t i d d' := by
  have ht := h.txn
  obtain rfl := h.db
  exact ⟨ht, rfl, ⟨_, rfl⟩, ⟨.success, by decide, rfl⟩, rfl⟩

theorem Finished.merchantsOf (h : Finished t i d d') (psp : String) :
    merchantsOf psp d' = merchantsOf psp d := by
  obtain ⟨status, hi⟩ := h.intents
  obtain ⟨state, -, ht⟩ := h.transactions
  simp only [Outbox.merchantsOf, h.merchants, hi, ht, List.filter_map, List.flatMap_map,
    List.map_map, Function.comp_def, withStatus_id, withStatus_merchantId, withState_intentId,
    withState_pspReference]

theorem Finished.advance (h : Finished t i d d') : Advance d d' := by
  obtain ⟨state, hstate, ht⟩ := h.transactions
  refine ⟨?_, ?_, h.merchantsOf⟩
  · rintro psp id ⟨u, hu, hpsp, hid, hs⟩
    refine ⟨withState t.id state u, ht ▸ List.mem_map_of_mem hu, by simpa using hpsp,
      by simpa using hid, ?_⟩
    unfold withState
    split_ifs
    · exact hstate
    · exact hs
  · rintro psp ⟨u, hu, hpsp, w, hw, hwu⟩
    exact ⟨withState t.id state u, ht ▸ List.mem_map_of_mem hu, by simpa using hpsp, w,
      h.deliveries ▸ hw, by simpa using hwu⟩

/-- Only the payment of the transaction's reference is settled. -/
theorem Finished.settled (k : Keys d) (h : Finished t i d d') (hpsp : t.pspReference = some psp)
    (hs : Settled psp' d') : Settled psp' d ∨ psp' = psp := by
  obtain ⟨state, -, ht⟩ := h.transactions
  obtain ⟨id, u', hu', hpsp', hid, hpending⟩ := hs
  rw [ht] at hu'
  obtain ⟨u, hu, rfl⟩ := List.mem_map.mp hu'
  rw [withState_pspReference] at hpsp'
  by_cases hut : u.id = t.id
  · obtain rfl := eq_of_key k.transactions hu h.txn hut
    exact .inr (Option.some.inj (hpsp'.symm.trans hpsp))
  · rw [withState_of_ne hut] at hpending
    exact .inl ⟨u.id, u, hu, hpsp', rfl, hpending⟩

/-! ### A delivery -/

/-- The delivery `w` is written. -/
def withDelivery (w : WebhookDelivery) (d : Db) : Db := { d with deliveries := d.deliveries ++ [w] }

theorem advance_withDelivery (w : WebhookDelivery) (d : Db) : Advance d (withDelivery w d) :=
  ⟨id, fun ⟨t, ht, hpsp, x, hx, hxt⟩ => ⟨t, ht, hpsp, x, List.mem_append_left _ hx, hxt⟩,
    fun _ => rfl⟩

theorem delivered_withDelivery {w : WebhookDelivery} (h : SettledAs psp w.transactionId d) :
    Delivered psp (withDelivery w d) := by
  obtain ⟨t, ht, hpsp, hid, -⟩ := h
  exact ⟨t, ht, hpsp, w, List.mem_append_right _ (List.mem_singleton_self w), hid.symm⟩

theorem consistent_withDelivery {w : WebhookDelivery} (h : Consistent d) :
    Consistent (withDelivery w d) :=
  ⟨⟨h.keys.intents, h.keys.publicIds, h.keys.idempotencyKeys, h.keys.transactions, h.keys.accounts,
      h.keys.accountKeys, h.keys.intent_of, h.keys.account_of⟩,
    ⟨h.coupled.one, h.coupled.created_iff, h.coupled.pair⟩,
    ⟨h.chart.currency, h.chart.kind, h.chart.vpa⟩,
    ⟨h.posted.amount_pos, h.posted.txn_of, h.posted.none, h.posted.pair, h.posted.balance,
      h.posted.total⟩⟩

end PaymentGateway.State.Outbox
