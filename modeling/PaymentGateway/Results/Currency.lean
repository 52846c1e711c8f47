import PaymentGateway.Runs.Serial

/-! # Currencies in the ledger

Neither an account nor an entry is given a currency, so both have the column default. The currencies
of intent, entry and account agree as long as only payments in that currency are posted, and no
longer. -/

namespace PaymentGateway.Results.Currency

open PaymentGateway.Core.Ids PaymentGateway.Models PaymentGateway.Schemas
open PaymentGateway.Lib.Tables PaymentGateway.Db.Statements
open PaymentGateway.Services.Webhook PaymentGateway.State.Changes PaymentGateway.State.Invariant
open PaymentGateway.Outlines.Webhook PaymentGateway.Runs.Serial

/-- Every entry has the currency of the intent of its transaction and of its account. -/
def CurrencyIntegrity (d : Db) : Prop :=
  ∀ e ∈ d.entries,
    (∀ t ∈ d.transactions, t.id = e.transactionId → ∀ i ∈ d.intents, i.id = t.intentId →
      e.currency = i.currency) ∧
    ∀ a ∈ d.accounts, a.id = e.accountId → e.currency = a.currency

instance : DecidablePred CurrencyIntegrity := fun d =>
  inferInstanceAs (Decidable (∀ e ∈ d.entries, _ ∧ _))

/-- Every payment that has succeeded is in the default currency. -/
def PaidInDefault (d : Db) : Prop :=
  ∀ t ∈ d.transactions, t.state = .success → ∀ i ∈ d.intents, i.id = t.intentId →
    i.currency = defaultCurrency

/-- The call is not a success callback that finds its transaction pending, with the amount of its
intent, in another currency than the default. -/
def PostsDefault (c : Call) (d : Db) : Prop :=
  match c with
  | .processBankCallback .paymentSuccess psp amount _ =>
    ∀ t ∈ d.transactions, t.pspReference = some psp → t.state = .pending →
      ∀ i ∈ d.intents, i.id = t.intentId → amountDiffers i amount = .ok false →
        i.currency = defaultCurrency
  | _ => True

instance (c : Call) (d : Db) : Decidable (PostsDefault c d) :=
  match c with
  | .processBankCallback .paymentSuccess psp amount _ =>
    inferInstanceAs (Decidable (∀ t ∈ d.transactions, t.pspReference = some psp →
      t.state = .pending → ∀ i ∈ d.intents, i.id = t.intentId →
        amountDiffers i amount = .ok false → i.currency = defaultCurrency))
  | .processBankCallback .paymentFailed _ _ _ => isTrue trivial
  | .createOrder _ _ _ => isTrue trivial
  | .initiateUpi _ _ _ => isTrue trivial

variable {d d' : Db} {t : Transaction} {i : PaymentIntent}

/-- **In a state**: the currencies agree exactly if all successful payments are in the default one.
-/
theorem currencyIntegrity_iff (h : Consistent d) : CurrencyIntegrity d ↔ PaidInDefault d := by
  constructor
  · intro hc t ht hs i hi hit
    obtain ⟨x, y, hxy, hx, -⟩ := h.posted.pair t ht hs i hi hit
    have hmem : x ∈ entriesOf d t := hxy ▸ List.mem_cons_self
    obtain ⟨hxd, hxt⟩ := List.mem_filter.mp hmem
    rw [← (hc x hxd).1 t ht (of_decide_eq_true hxt).symm i hi hit, hx.2.2.1]
  · intro hp e he
    obtain ⟨t, ht, het⟩ := h.posted.txn_of e he
    have hmem : e ∈ entriesOf d t := List.mem_filter.mpr ⟨he, decide_eq_true het.symm⟩
    have hs : t.state = .success := by
      by_contra hs
      rw [h.posted.none t ht hs] at hmem
      cases hmem
    have hcur : e.currency = defaultCurrency := by
      obtain ⟨i, hi, hit⟩ := h.keys.intent_of t ht
      obtain ⟨x, y, hxy, hx, hy⟩ := h.posted.pair t ht hs i hi hit
      rw [hxy, List.mem_pair] at hmem
      rcases hmem with rfl | rfl
      · exact hx.2.2.1
      · exact hy.2.2.1
    refine ⟨fun u hu hue i hi hiu => ?_, fun a ha _ => ?_⟩
    · obtain rfl := eq_of_key h.keys.transactions hu ht (hue.trans het.symm)
      rw [hcur, hp u ht hs i hi hiu]
    · rw [hcur, h.chart.currency a ha]

/-- A finished payment is in the default currency if it was open and is, and the others were. -/
theorem paidInDefault_finish (hk : Keys d) (hp : PaidInDefault d) (ho : Open t i d)
    {status : PaymentStatus} {state : TransactionState}
    (hcur : state = .success → i.currency = defaultCurrency)
    (hi' : d'.intents = d.intents.map (withStatus i.id status))
    (ht' : d'.transactions = d.transactions.map (withState t.id state)) : PaidInDefault d' := by
  intro u' hu' hs j' hj' e
  rw [ht'] at hu'
  rw [hi'] at hj'
  obtain ⟨u, hu, rfl⟩ := List.mem_map.mp hu'
  obtain ⟨j, hj, rfl⟩ := List.mem_map.mp hj'
  rw [withStatus_id, withState_intentId] at e
  rw [withStatus_currency]
  by_cases hut : u.id = t.id
  · obtain rfl := eq_of_key hk.transactions hu ho.txn hut
    obtain rfl := eq_of_key hk.intents hj ho.intent (e.trans ho.intentId.symm)
    rw [withState_self] at hs
    exact hcur hs
  · rw [withState_of_ne hut] at hs
    exact hp u hu hs j hj e

theorem paidInDefault_after {c : Call} (h : Consistent d) (hp : PaidInDefault d)
    (hc : PostsDefault c d) : PaidInDefault (c.after d) := by
  rcases c.after_cases h with he | he
  · rw [he]; exact hp
  cases c with
  | createOrder merchant payload ids =>
    obtain ⟨i, he⟩ := he
    rw [he.db]
    intro t ht hs j hj e
    rcases List.mem_append.mp hj with hj | hj
    · exact hp t ht hs j hj e
    · obtain ⟨j', hj', e'⟩ := h.keys.intent_of t ht
      rw [List.mem_singleton.mp hj] at e
      exact absurd (e'.trans e.symm) (he.fresh j' hj').1
  | initiateUpi merchant payload ids =>
    obtain ⟨t, i, -, he⟩ := he
    rw [he.db]
    intro u hu hs j' hj' e
    obtain ⟨j, hj, rfl⟩ := List.mem_map.mp hj'
    rw [withStatus_id] at e
    rw [withStatus_currency]
    rcases List.mem_append.mp hu with hu | hu
    · exact hp u hu hs j hj e
    · rw [List.mem_singleton.mp hu, he.pending] at hs
      cases hs
  | processBankCallback event psp amount ids =>
    cases he with
    | failed hev ht ha he =>
      exact paidInDefault_finish h.keys hp he.toOpen (by simp) (congrArg Db.intents he.db)
        (congrArg Db.transactions he.db)
    | succeeded hev ht ha he =>
      subst hev
      have hcur := hc _ he.txn ht he.pending _ he.intent he.intentId ha
      exact paidInDefault_finish h.keys hp he.toOpen (fun _ => hcur) (congrArg Db.intents he.db)
        (congrArg Db.transactions he.db)

/-- A run of calls each of which posts, if it does, in the default currency. -/
def DefaultRun : Db → Db → Prop :=
  Relation.ReflTransGen fun d d' => ∃ c : Call, c.Fresh d ∧ PostsDefault c d ∧ d' = c.after d

theorem DefaultRun.paidInDefault {ms : List Merchant} (hr : DefaultRun (Db.empty ms) d) :
    Reachable d ∧ PaidInDefault d := by
  induction hr with
  | refl => exact ⟨reachable_empty ms, fun t ht => by cases ht⟩
  | tail _ hs ih =>
    obtain ⟨c, hf, hc, rfl⟩ := hs
    exact ⟨ih.1.step ⟨c, hf, rfl⟩, paidInDefault_after ih.1.consistent ih.2 hc⟩

/-- **Currencies.** In every state that calls reach, the currencies of intents, entries and accounts
agree if every call of the run that posts a payment posts one in the default currency; and they
agree exactly if every successful payment was in the default currency. -/
theorem currency_integrity (h : Reachable d) :
    (∀ ms, DefaultRun (Db.empty ms) d → CurrencyIntegrity d) ∧
      (CurrencyIntegrity d ↔ PaidInDefault d) :=
  ⟨fun _ hr => (currencyIntegrity_iff h.consistent).mpr hr.paidInDefault.2,
    currencyIntegrity_iff h.consistent⟩

/-- A paid order in rupees. -/
theorem currency_integrity_inr :
    CurrencyIntegrity (Sample.settled Sample.rupees .paymentSuccess) := by
  have h : Reachable (Sample.settled Sample.rupees .paymentSuccess) :=
    reachable_serveAll (reachable_empty _) (by decide)
  refine (currency_integrity h).1 [Sample.shop] (Relation.ReflTransGen.tail (b := serveAll
    [Sample.ordering Sample.rupees, Sample.initiating] (Db.empty [Sample.shop])) ?_
      ⟨Sample.callback .paymentSuccess, trivial, by decide, rfl⟩)
  refine .tail (.single ⟨Sample.ordering Sample.rupees, trivial, trivial, rfl⟩)
    ⟨Sample.initiating, by decide, trivial, rfl⟩

/-- A paid order in dollars is posted in rupees. -/
theorem not_currencyIntegrity_usd :
    Reachable (Sample.settled Sample.dollars .paymentSuccess) ∧
      ¬ CurrencyIntegrity (Sample.settled Sample.dollars .paymentSuccess) :=
  ⟨reachable_serveAll (reachable_empty _) (by decide), by decide⟩

end PaymentGateway.Results.Currency
