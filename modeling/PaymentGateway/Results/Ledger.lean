import PaymentGateway.Runs.Serial

/-! # The ledger over serial runs

The ledger says exactly what has succeeded, and only grows. -/

namespace PaymentGateway.Results.Ledger

open PaymentGateway.Models PaymentGateway.Schemas PaymentGateway.Db.Statements
open PaymentGateway.State.Changes PaymentGateway.State.Invariant
open PaymentGateway.Runs.Serial

variable {d d' : Db}

/-- Entries are only appended. -/
theorem entries_prefix (h : Change d d') : d.entries <+: d'.entries := by
  cases h with
  | ordered h => rw [h.db]
  | initiated h => rw [h.db]
  | failed h => rw [h.db]
  | succeeded h => rw [h.db]; exact List.prefix_append _ _

theorem entries_prefix_run (h : Reachable d) (hr : Relation.ReflTransGen Step d d') :
    d.entries <+: d'.entries := by
  suffices Reachable d' ∧ d.entries <+: d'.entries from this.2
  induction hr with
  | refl => exact ⟨h, List.prefix_rfl⟩
  | tail _ hs ih =>
    refine ⟨ih.1.step hs, ih.2.trans ?_⟩
    obtain ⟨c, -, rfl⟩ := hs
    rcases c.after_cases ih.1.consistent with hc | hc
    · rw [hc]
    · exact entries_prefix (Call.effect_change hc)

/-- **Ledger correspondence.** In every state reached by calls: a transaction has entries if and
only if it succeeded, and then a debit of its payer and a credit of its merchant, of the amount of
its intent; every balance is the sum of the entries on the account, so none is negative, and the two
sides have one total; and entries are never changed by later calls. -/
theorem ledger_correspondence (h : Reachable d) :
    (∀ t ∈ d.transactions, (entriesOf d t ≠ [] ↔ t.state = .success) ∧
      (t.state = .success → ∃ i ∈ d.intents, i.id = t.intentId ∧
        ∃ x y, entriesOf d t = [x, y] ∧ IsDebit d t i x ∧ IsCredit d i y)) ∧
    (∀ a ∈ d.accounts, a.balance.units = posted d a.id ∧ 0 ≤ a.balance.units) ∧
    total .virtual d.accounts = total .merchantSettlement d.accounts ∧
    ∀ d', Relation.ReflTransGen Step d d' → d.entries <+: d'.entries := by
  have hc := h.consistent
  have hpair : ∀ t ∈ d.transactions, t.state = .success → ∃ i ∈ d.intents, i.id = t.intentId ∧
      ∃ x y, entriesOf d t = [x, y] ∧ IsDebit d t i x ∧ IsCredit d i y := by
    intro t ht hs
    obtain ⟨i, hi, hit⟩ := hc.keys.intent_of t ht
    exact ⟨i, hi, hit, hc.posted.pair t ht hs i hi hit⟩
  refine ⟨fun t ht => ⟨⟨fun hne => ?_, fun hs => ?_⟩, hpair t ht⟩, fun a ha => ?_, hc.posted.total,
    fun d' hr => entries_prefix_run h hr⟩
  · by_contra hs
    exact hne (hc.posted.none t ht hs)
  · obtain ⟨i, -, -, x, y, hxy, -⟩ := hpair t ht hs
    rw [hxy]
    simp
  · rw [hc.posted.balance a ha]
    exact ⟨rfl, posted_nonneg hc a⟩

/-- A paid order has its two entries. -/
theorem ledger_correspondence_settled :
    (∃ t ∈ (Sample.settled Sample.rupees .paymentSuccess).transactions, t.state = .success) ∧
    total .virtual (Sample.settled Sample.rupees .paymentSuccess).accounts =
      total .merchantSettlement (Sample.settled Sample.rupees .paymentSuccess).accounts :=
  ⟨by decide, (ledger_correspondence (reachable_serveAll (reachable_empty _) (by decide))).2.2.1⟩

end PaymentGateway.Results.Ledger
