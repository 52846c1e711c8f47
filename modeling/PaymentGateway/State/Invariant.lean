import PaymentGateway.State.Changes
import PaymentGateway.Lib.Tables

/-! # The invariant of the committed state

What is known of the ledger and of the two state machines rests on four parts: keys are unique
(`Keys`), an intent and its transaction advance together (`Coupled`), the accounts are the payers'
and the merchants' (`Chart`), and the ledger says exactly what has succeeded (`Posted`). Every
change a service commits keeps it (`Consistent.change`). -/

namespace PaymentGateway.State.Invariant

open PaymentGateway.Core.Ids PaymentGateway.Models PaymentGateway.Db.Statements
open PaymentGateway.Db.Locking PaymentGateway.Lib.Tables PaymentGateway.State.Changes

/-- The keys of the tables are unique, and foreign keys point to a row. -/
structure Keys (d : Db) : Prop where
  intents : (d.intents.map (·.id)).Nodup
  publicIds : (d.intents.map (·.publicId)).Nodup
  idempotencyKeys : (d.intents.map (·.idempotencyKey)).Nodup
  transactions : (d.transactions.map (·.id)).Nodup
  accounts : (d.accounts.map (·.id)).Nodup
  accountKeys : (d.accounts.map (·.key)).Nodup
  intent_of : ∀ t ∈ d.transactions, ∃ i ∈ d.intents, i.id = t.intentId
  account_of : ∀ e ∈ d.entries, ∃ a ∈ d.accounts, a.id = e.accountId

/-- The pairs of an intent's status and the state of its transaction. -/
def coupled (status : PaymentStatus) (state : TransactionState) : Prop :=
  (status = .processing ∧ state = .pending) ∨ (status = .success ∧ state = .success) ∨
    (status = .failed ∧ state = .failed)

/-- An intent has no transaction while it is created, then one, which advances with it. -/
structure Coupled (d : Db) : Prop where
  one : (d.transactions.map (·.intentId)).Nodup
  created_iff : ∀ i ∈ d.intents, i.status = .created ↔ ∀ t ∈ d.transactions, t.intentId ≠ i.id
  pair : ∀ t ∈ d.transactions, ∀ i ∈ d.intents, i.id = t.intentId → coupled i.status t.state

/-- An account is a payer's, named by a vpa, or a merchant's. -/
def Kind (a : LedgerAccount) : Prop :=
  (a.accountType = .virtual ∧ '@' ∈ a.identifier.toList) ∨
    (a.accountType = .merchantSettlement ∧ ∃ m, a.identifier = merchantIdentifier m)

/-- The chart of accounts. -/
structure Chart (d : Db) : Prop where
  currency : ∀ a ∈ d.accounts, a.currency = defaultCurrency
  kind : ∀ a ∈ d.accounts, Kind a
  vpa : ∀ t ∈ d.transactions, '@' ∈ t.vpa.toList

/-- The entries of a transaction, in the order in which they were posted. -/
def entriesOf (d : Db) (t : Transaction) : List LedgerEntry :=
  d.entries.filter (·.transactionId = t.id)

/-- The sum of the amounts of all entries on the account `id`, in units of `10 ^ -4`. -/
def posted (d : Db) (id : UUID) : ℤ :=
  ((d.entries.filter (·.accountId = id)).map (·.amount.units)).sum

/-- The total balance of the accounts of a type. -/
def total (accountType : AccountType) (as : List LedgerAccount) : ℤ :=
  ((as.filter (·.accountType = accountType)).map (·.balance.units)).sum

/-- `e` is the debit of `t` on its payer. -/
def IsDebit (d : Db) (t : Transaction) (i : PaymentIntent) (e : LedgerEntry) : Prop :=
  e.entryType = .debit ∧ e.amount = i.amount ∧ e.currency = defaultCurrency ∧
    ∃ a ∈ d.accounts, a.id = e.accountId ∧ IsPayer t a

/-- `e` is the credit of the payment of `i` to its merchant. -/
def IsCredit (d : Db) (i : PaymentIntent) (e : LedgerEntry) : Prop :=
  e.entryType = .credit ∧ e.amount = i.amount ∧ e.currency = defaultCurrency ∧
    ∃ a ∈ d.accounts, a.id = e.accountId ∧ IsPayee i a

/-- The ledger: a debit and a credit for each success, and the balances they add up to. -/
structure Posted (d : Db) : Prop where
  amount_pos : ∀ i ∈ d.intents, 0 < i.amount.units
  txn_of : ∀ e ∈ d.entries, ∃ t ∈ d.transactions, t.id = e.transactionId
  none : ∀ t ∈ d.transactions, t.state ≠ .success → entriesOf d t = []
  pair : ∀ t ∈ d.transactions, t.state = .success → ∀ i ∈ d.intents, i.id = t.intentId →
    ∃ x y, entriesOf d t = [x, y] ∧ IsDebit d t i x ∧ IsCredit d i y
  balance : ∀ a ∈ d.accounts, a.balance.units = posted d a.id
  total : total .virtual d.accounts = total .merchantSettlement d.accounts

structure Consistent (d : Db) : Prop where
  keys : Keys d
  coupled : Coupled d
  chart : Chart d
  posted : Posted d

/-- What does not depend on how the two state machines are coupled. -/
structure Balanced (d : Db) : Prop where
  keys : Keys d
  chart : Chart d
  posted : Posted d

theorem Consistent.balanced {d : Db} (h : Consistent d) : Balanced d := ⟨h.keys, h.chart, h.posted⟩

/-- No two transactions have one provider reference. No constraint of the database says so. -/
def PspUnique (d : Db) : Prop := (d.transactions.map (·.pspReference)).Nodup

/-- The public ids of the transactions are unique. -/
def PublicIds (d : Db) : Prop := (d.transactions.map (·.publicId)).Nodup

/-- Every intent is a merchant's. -/
def Owned (d : Db) : Prop := ∀ i ∈ d.intents, ∃ m ∈ d.merchants, m.id = i.merchantId

theorem consistent_empty (ms : List Merchant) : Consistent (Db.empty ms) := by
  constructor <;> constructor <;> simp [Db.empty, total, entriesOf]

variable {d d' : Db} {t : Transaction} {i : PaymentIntent} {p : Posting}

/-! ### Keys -/

theorem Keys.ordered (k : Keys d) (h : Ordered i d d') : Keys d' := by
  obtain rfl := h.db
  refine ⟨?_, ?_, ?_, k.transactions, k.accounts, k.accountKeys, fun t ht => ?_, k.account_of⟩
  · exact nodup_append_key k.intents fun j hj => (h.fresh j hj).1
  · exact nodup_append_key k.publicIds fun j hj => (h.fresh j hj).2.1
  · exact nodup_append_key k.idempotencyKeys fun j hj => (h.fresh j hj).2.2
  · obtain ⟨j, hj, e⟩ := k.intent_of t ht
    exact ⟨j, List.mem_append_left _ hj, e⟩

/-- New statuses, states and balances do not touch the keys. -/
theorem Keys.update (k : Keys d) {f : PaymentIntent → PaymentIntent} {g : Transaction → Transaction}
    (hf : ∀ i, (f i).id = i.id ∧ (f i).publicId = i.publicId ∧
      (f i).idempotencyKey = i.idempotencyKey)
    (hg : ∀ t, (g t).id = t.id ∧ (g t).intentId = t.intentId) :
    Keys { d with intents := d.intents.map f, transactions := d.transactions.map g } := by
  refine ⟨?_, ?_, ?_, ?_, k.accounts, k.accountKeys, fun t ht => ?_, k.account_of⟩
  · rw [map_key fun i => (hf i).1]; exact k.intents
  · rw [map_key fun i => (hf i).2.1]; exact k.publicIds
  · rw [map_key fun i => (hf i).2.2]; exact k.idempotencyKeys
  · rw [map_key fun t => (hg t).1]; exact k.transactions
  · obtain ⟨u, hu, rfl⟩ := List.mem_map.mp ht
    obtain ⟨j, hj, e⟩ := k.intent_of u hu
    exact ⟨f j, List.mem_map_of_mem hj, by rw [(hf j).1, (hg u).2, e]⟩

theorem Keys.begun (k : Keys d) (h : Begun t i d d') : Keys d' := by
  obtain rfl := h.db
  have hk := k.update (f := withStatus i.id .processing) (g := id) (by simp) (by simp)
  refine ⟨hk.intents, hk.publicIds, hk.idempotencyKeys, ?_, k.accounts, k.accountKeys,
    fun u hu => ?_, k.account_of⟩
  · exact nodup_append_key k.transactions fun u hu => (h.fresh u hu).1
  · rcases List.mem_append.mp hu with hu | hu
    · exact hk.intent_of u (by simpa using hu)
    · rw [List.mem_singleton.mp hu]
      exact ⟨_, List.mem_map_of_mem h.intent, by rw [withStatus_id, h.intentId]⟩

theorem Keys.failed (k : Keys d) (h : Failed t i d d') : Keys d' := by
  obtain rfl := h.db
  exact k.update (by simp) (by simp)

variable {as : List LedgerAccount}

/-- The ids of the accounts, with those just opened. -/
theorem nodup_opened_ids (k : Keys d) (h : NewAccounts d as) :
    ((d.accounts ++ as).map (·.id)).Nodup := by
  rw [List.map_append, List.nodup_append]
  refine ⟨k.accounts, h.ids, fun x hx y hy => ?_⟩
  obtain ⟨a, ha, rfl⟩ := List.mem_map.mp hx
  obtain ⟨b, hb, rfl⟩ := List.mem_map.mp hy
  exact h.ids_new b hb a ha

theorem nodup_opened_keys (k : Keys d) (h : NewAccounts d as) :
    ((d.accounts ++ as).map (·.key)).Nodup := by
  rw [List.map_append, List.nodup_append]
  refine ⟨k.accountKeys, h.keys, fun x hx y hy => ?_⟩
  obtain ⟨a, ha, rfl⟩ := List.mem_map.mp hx
  obtain ⟨b, hb, rfl⟩ := List.mem_map.mp hy
  exact h.keys_new b hb a ha

theorem Keys.succeeded (k : Keys d) (h : Succeeded t i p d d') : Keys d' := by
  obtain rfl := h.db
  have hk := k.update (f := withStatus i.id .success) (g := withState t.id .success)
    (by simp) (by simp)
  refine ⟨hk.intents, hk.publicIds, hk.idempotencyKeys, hk.transactions, ?_, ?_, hk.intent_of,
    fun e he => ?_⟩
  · rw [p.map_accounts (by simp)]; exact nodup_opened_ids k h.opened
  · rw [p.map_accounts (by simp)]; exact nodup_opened_keys k h.opened
  · have hold : ∃ a ∈ d.accounts ++ p.opened, a.id = e.accountId := by
      rcases List.mem_append.mp he with he | he
      · obtain ⟨a, ha, ea⟩ := k.account_of e he
        exact ⟨a, List.mem_append_left _ ha, ea⟩
      · simp only [Posting.entries, List.mem_cons, List.not_mem_nil, or_false] at he
        rcases he with rfl | rfl
        · exact ⟨_, h.payer_mem, rfl⟩
        · exact ⟨_, h.payee_mem, rfl⟩
    obtain ⟨a, ha, ea⟩ := hold
    obtain ⟨b, hb, eb, -⟩ := Posting.exists_account (d := d) ha
    exact ⟨b, hb, eb.trans ea⟩

theorem Keys.change (k : Keys d) (h : Change d d') : Keys d' := by
  cases h with
  | ordered h => exact k.ordered h
  | initiated h => exact k.begun h.begun
  | failed h => exact k.failed h
  | succeeded h => exact k.succeeded h

/-! ### The two state machines -/

theorem Coupled.ordered (k : Keys d) (c : Coupled d) (h : Ordered i d d') : Coupled d' := by
  obtain rfl := h.db
  -- a transaction refers to an old intent
  have hnone : ∀ t ∈ d.transactions, t.intentId ≠ i.id := by
    intro t ht e
    obtain ⟨j, hj, ej⟩ := k.intent_of t ht
    exact (h.fresh j hj).1 (ej.trans e)
  refine ⟨c.one, fun j hj => ?_, fun t ht j hj e => ?_⟩
  · rcases List.mem_append.mp hj with hj | hj
    · exact c.created_iff j hj
    · rw [List.mem_singleton.mp hj]
      exact ⟨fun _ => hnone, fun _ => h.created⟩
  · rcases List.mem_append.mp hj with hj | hj
    · exact c.pair t ht j hj e
    · rw [List.mem_singleton.mp hj] at e
      exact absurd e.symm (hnone t ht)

theorem Coupled.initiated (k : Keys d) (c : Coupled d) (h : Initiated t i d d') :
    Coupled d' := by
  obtain rfl := h.db
  have hnone := (c.created_iff i h.intent).mp h.created
  refine ⟨?_, fun j' hj' => ?_, fun u hu j' hj' e => ?_⟩
  · exact nodup_append_key c.one fun u hu => by rw [h.intentId]; exact hnone u hu
  · obtain ⟨j, hj, rfl⟩ := List.mem_map.mp hj'
    by_cases hji : j.id = i.id
    · obtain rfl := eq_of_key k.intents hj h.intent hji
      rw [withStatus_self]
      refine ⟨fun e => (by cases e), fun e => ?_⟩
      exact absurd h.intentId (e t (by simp))
    · rw [withStatus_of_ne hji, c.created_iff j hj]
      refine ⟨fun e u hu => ?_, fun e u hu => e u (List.mem_append_left _ hu)⟩
      rcases List.mem_append.mp hu with hu | hu
      · exact e u hu
      · rw [List.mem_singleton.mp hu, h.intentId]; exact Ne.symm hji
  · obtain ⟨j, hj, rfl⟩ := List.mem_map.mp hj'
    rw [withStatus_id] at e
    rcases List.mem_append.mp hu with hu | hu
    · have hji : j.id ≠ i.id := fun hji => hnone u hu (e.symm.trans hji)
      rw [withStatus_of_ne hji]
      exact c.pair u hu j hj e
    · rw [List.mem_singleton.mp hu] at e ⊢
      obtain rfl := eq_of_key k.intents hj h.intent (e.trans h.intentId)
      rw [withStatus_self, h.pending]
      exact .inl ⟨rfl, rfl⟩

/-- A transaction and its intent, that are open, are both finished. -/
theorem Coupled.finish (k : Keys d) (c : Coupled d) (h : Open t i d) {status : PaymentStatus}
    {state : TransactionState} (hs : coupled status state) (hne : status ≠ .created) :
    Coupled { d with
      intents := d.intents.map (withStatus i.id status)
      transactions := d.transactions.map (withState t.id state) } := by
  refine ⟨?_, fun j' hj' => ?_, fun u' hu' j' hj' e => ?_⟩
  · rw [map_key (by simp)]; exact c.one
  · obtain ⟨j, hj, rfl⟩ := List.mem_map.mp hj'
    have htxns : (∀ u ∈ d.transactions.map (withState t.id state),
        u.intentId ≠ (withStatus i.id status j).id) ↔ ∀ u ∈ d.transactions, u.intentId ≠ j.id := by
      simp
    rw [htxns, ← c.created_iff j hj]
    by_cases hji : j.id = i.id
    · obtain rfl := eq_of_key k.intents hj h.intent hji
      rw [withStatus_self, h.processing]
      exact ⟨fun e => absurd e hne, fun e => (by cases e)⟩
    · rw [withStatus_of_ne hji]
  · obtain ⟨j, hj, rfl⟩ := List.mem_map.mp hj'
    obtain ⟨u, hu, rfl⟩ := List.mem_map.mp hu'
    rw [withStatus_id, withState_intentId] at e
    by_cases hut : u.id = t.id
    · obtain rfl := eq_of_key k.transactions hu h.txn hut
      obtain rfl := eq_of_key k.intents hj h.intent (e.trans h.intentId.symm)
      rw [withStatus_self, withState_self]
      exact hs
    · have hji : j.id ≠ i.id := fun hji => by
        have : u.intentId = t.intentId := by rw [← e, hji, h.intentId]
        exact hut (congrArg _ (eq_of_key c.one hu h.txn this))
      rw [withStatus_of_ne hji, withState_of_ne hut]
      exact c.pair u hu j hj e

theorem Coupled.failed (k : Keys d) (c : Coupled d) (h : Failed t i d d') : Coupled d' := by
  obtain rfl := h.db
  exact c.finish k h.toOpen (.inr (.inr ⟨rfl, rfl⟩)) (by simp)

theorem Coupled.succeeded (k : Keys d) (c : Coupled d) (h : Succeeded t i p d d') :
    Coupled d' := by
  obtain rfl := h.db
  have hpair : coupled .success .success := .inr (.inl ⟨rfl, rfl⟩)
  have hc := c.finish k h.toOpen hpair (by simp)
  exact ⟨hc.one, hc.created_iff, hc.pair⟩

theorem Coupled.change (k : Keys d) (c : Coupled d) (h : Change d d') : Coupled d' := by
  cases h with
  | ordered h => exact c.ordered k h
  | initiated h => exact c.initiated k h
  | failed h => exact c.failed k h
  | succeeded h => exact c.succeeded k h

/-! ### The chart of accounts -/

theorem Chart.ordered (c : Chart d) (h : Ordered i d d') : Chart d' := by
  obtain rfl := h.db
  exact ⟨c.currency, c.kind, c.vpa⟩

theorem Chart.begun (c : Chart d) (h : Begun t i d d') : Chart d' := by
  obtain rfl := h.db
  refine ⟨c.currency, c.kind, fun u hu => ?_⟩
  rcases List.mem_append.mp hu with hu | hu
  · exact c.vpa u hu
  · rw [List.mem_singleton.mp hu]; exact h.vpa

theorem Chart.vpa_withState (c : Chart d) {id : UUID} {state : TransactionState} :
    ∀ u ∈ d.transactions.map (withState id state), '@' ∈ u.vpa.toList := by
  intro u' hu'
  obtain ⟨u, hu, rfl⟩ := List.mem_map.mp hu'
  rw [withState_vpa]
  exact c.vpa u hu

theorem Chart.failed (c : Chart d) (h : Failed t i d d') : Chart d' := by
  obtain rfl := h.db
  exact ⟨c.currency, c.kind, c.vpa_withState⟩

/-- No account is both a payer's and a merchant's, since no merchant's identifier has an `@`. -/
theorem Kind.accountType_eq {a b : LedgerAccount} (ha : Kind a) (hb : Kind b)
    (h : a.identifier = b.identifier) : a.accountType = b.accountType := by
  rcases ha with ⟨ha, hv⟩ | ⟨ha, m, hm⟩ <;> rcases hb with ⟨hb, hv'⟩ | ⟨hb, m', hm'⟩
  · rw [ha, hb]
  · rw [h, hm'] at hv; exact absurd hv (at_notMem_merchantIdentifier m')
  · rw [← h, hm] at hv'; exact absurd hv' (at_notMem_merchantIdentifier m)
  · rw [ha, hb]

theorem Chart.kind_openedFor (c : Chart d) (ht : t ∈ d.transactions) {a : LedgerAccount}
    (ha : OpenedFor t i a) : Kind a := by
  rcases ha with ⟨⟨ht', hv⟩, -⟩ | ⟨⟨ht', hm⟩, -⟩
  · exact .inl ⟨ht', by rw [hv]; exact c.vpa t ht⟩
  · exact .inr ⟨ht', _, hm⟩

/-- The accounts, with those just opened for a transaction, are within the chart. -/
theorem Chart.opened (c : Chart d) (ht : t ∈ d.transactions) (hnew : NewAccounts d as)
    (has : ∀ a ∈ as, OpenedFor t i a) {a : LedgerAccount} (ha : a ∈ d.accounts ++ as) :
    a.currency = defaultCurrency ∧ Kind a := by
  rcases List.mem_append.mp ha with ha | ha
  · exact ⟨c.currency a ha, c.kind a ha⟩
  · exact ⟨by rw [hnew.made a ha]; rfl, c.kind_openedFor ht (has a ha)⟩

theorem Chart.succeeded (c : Chart d) (h : Succeeded t i p d d') : Chart d' := by
  have ho := fun a ha => c.opened h.txn h.opened h.openedFor (a := a) ha
  obtain rfl := h.db
  refine ⟨fun a ha => ?_, fun a ha => ?_, c.vpa_withState⟩
  · obtain ⟨b, hb, rfl⟩ := Posting.mem_accounts.mp ha
    simpa using (ho b hb).1
  · obtain ⟨b, hb, rfl⟩ := Posting.mem_accounts.mp ha
    simpa [Kind] using (ho b hb).2

theorem Chart.change (c : Chart d) (h : Change d d') : Chart d' := by
  cases h with
  | ordered h => exact c.ordered h
  | initiated h => exact c.begun h.begun
  | failed h => exact c.failed h
  | succeeded h => exact c.succeeded h

/-! ### The ledger -/

/-- The accounts of `d` are there in `d'`, up to their balances. -/
def AccountsKept (d d' : Db) : Prop :=
  ∀ a ∈ d.accounts, ∃ b ∈ d'.accounts,
    b.id = a.id ∧ b.accountType = a.accountType ∧ b.identifier = a.identifier

theorem AccountsKept.of_eq (h : d'.accounts = d.accounts) : AccountsKept d d' :=
  fun a ha => ⟨a, h ▸ ha, rfl, rfl, rfl⟩

/-- A transaction is posted as before if its entries, its intent and the accounts are. -/
theorem pair_kept {t' : Transaction} {i' : PaymentIntent} (hacc : AccountsKept d d')
    (he : entriesOf d' t' = entriesOf d t) (hvpa : t'.vpa = t.vpa) (hamount : i'.amount = i.amount)
    (hmerchant : i'.merchantId = i.merchantId)
    (h : ∃ x y, entriesOf d t = [x, y] ∧ IsDebit d t i x ∧ IsCredit d i y) :
    ∃ x y, entriesOf d' t' = [x, y] ∧ IsDebit d' t' i' x ∧ IsCredit d' i' y := by
  obtain ⟨x, y, hxy, ⟨h1, h2, h3, a, ha, h4, h5, h6⟩, ⟨g1, g2, g3, b, hb, g4, g5, g6⟩⟩ := h
  obtain ⟨a', ha', e1, e2, e3⟩ := hacc a ha
  obtain ⟨b', hb', f1, f2, f3⟩ := hacc b hb
  refine ⟨x, y, he.trans hxy,
    ⟨h1, h2.trans hamount.symm, h3, a', ha', e1.trans h4, e2.trans h5, ?_⟩,
    ⟨g1, g2.trans hamount.symm, g3, b', hb', f1.trans g4, f2.trans g5, ?_⟩⟩
  · rw [e3, h6, hvpa]
  · rw [f3, g6, hmerchant]

theorem Posted.ordered (k : Keys d) (q : Posted d) (h : Ordered i d d') : Posted d' := by
  obtain rfl := h.db
  refine ⟨fun j hj => ?_, q.txn_of, q.none, fun t ht hs j hj e => ?_, q.balance, q.total⟩
  · rcases List.mem_append.mp hj with hj | hj
    · exact q.amount_pos j hj
    · rw [List.mem_singleton.mp hj]; exact h.amount_pos
  · rcases List.mem_append.mp hj with hj | hj
    · exact q.pair t ht hs j hj e
    · obtain ⟨j', hj', e'⟩ := k.intent_of t ht
      rw [List.mem_singleton.mp hj] at e
      exact absurd (e'.trans e.symm) (h.fresh j' hj').1

/-- A transaction that is new has no entries yet. -/
theorem Posted.entriesOf_new (q : Posted d) (h : ∀ u ∈ d.transactions, u.id ≠ t.id) :
    entriesOf d t = [] := by
  refine List.filter_eq_nil_iff.mpr fun e he => ?_
  obtain ⟨u, hu, e'⟩ := q.txn_of e he
  simpa [← e'] using h u hu

theorem Posted.begun (q : Posted d) (h : Begun t i d d') : Posted d' := by
  have hnew := q.entriesOf_new fun u hu => (h.fresh u hu).1
  obtain rfl := h.db
  refine ⟨fun j' hj' => ?_, fun e he => ?_, fun u hu hs => ?_, fun u hu hs j' hj' e => ?_,
    q.balance, q.total⟩
  · obtain ⟨j, hj, rfl⟩ := List.mem_map.mp hj'
    rw [withStatus_amount]; exact q.amount_pos j hj
  · obtain ⟨u, hu, e'⟩ := q.txn_of e he
    exact ⟨u, List.mem_append_left _ hu, e'⟩
  · rcases List.mem_append.mp hu with hu | hu
    · exact q.none u hu hs
    · rw [List.mem_singleton.mp hu]; exact hnew
  · obtain ⟨j, hj, rfl⟩ := List.mem_map.mp hj'
    rw [withStatus_id] at e
    rcases List.mem_append.mp hu with hu | hu
    · exact pair_kept (.of_eq rfl) rfl rfl (by simp) (by simp) (q.pair u hu hs j hj e)
    · rw [List.mem_singleton.mp hu, h.pending] at hs
      cases hs

theorem Posted.failed (k : Keys d) (q : Posted d) (h : Failed t i d d') : Posted d' := by
  obtain rfl := h.db
  refine ⟨fun j' hj' => ?_, fun e he => ?_, fun u' hu' hs => ?_, fun u' hu' hs j' hj' e => ?_,
    q.balance, q.total⟩
  · obtain ⟨j, hj, rfl⟩ := List.mem_map.mp hj'
    rw [withStatus_amount]; exact q.amount_pos j hj
  · obtain ⟨u, hu, e'⟩ := q.txn_of e he
    exact ⟨_, List.mem_map_of_mem hu, by rw [withState_id, e']⟩
  · obtain ⟨u, hu, rfl⟩ := List.mem_map.mp hu'
    by_cases hut : u.id = t.id
    · obtain rfl := eq_of_key k.transactions hu h.txn hut
      rw [withState_self]
      exact q.none u hu (by rw [h.pending]; simp)
    · rw [withState_of_ne hut] at hs ⊢
      exact q.none u hu hs
  · obtain ⟨u, hu, rfl⟩ := List.mem_map.mp hu'
    obtain ⟨j, hj, rfl⟩ := List.mem_map.mp hj'
    rw [withStatus_id, withState_intentId] at e
    by_cases hut : u.id = t.id
    · rw [hut.symm, withState_self] at hs
      cases hs
    · rw [withState_of_ne hut] at hs ⊢
      exact pair_kept (.of_eq rfl) rfl rfl (by simp) (by simp) (q.pair u hu hs j hj e)

/-! ### A posting -/

theorem payer_ne_payee (k : Keys d) (h : Succeeded t i p d d') :
    p.payer.id ≠ p.payee.id := by
  intro e
  have he := eq_of_key (nodup_opened_ids k h.opened) h.payer_mem h.payee_mem e
  have ht := h.payer.1
  rw [he, h.payee.1] at ht
  cases ht

/-- The balance of an account that the posting found or opened is the sum of its entries. -/
theorem Posted.balance_opened (k : Keys d) (q : Posted d) (h : Succeeded t i p d d')
    {a : LedgerAccount} (ha : a ∈ d.accounts ++ p.opened) : a.balance.units = posted d a.id := by
  rcases List.mem_append.mp ha with ha | ha
  · exact q.balance a ha
  · have hnone : d.entries.filter (·.accountId = a.id) = [] := by
      refine List.filter_eq_nil_iff.mpr fun e he => ?_
      obtain ⟨b, hb, e'⟩ := k.account_of e he
      simpa [← e'] using h.opened.ids_new a ha b hb
    unfold posted
    rw [hnone, h.opened.made a ha]
    rfl

/-- What a posting adds to the entries of the account `id`. -/
theorem posted_entries (h : Succeeded t i p d d') (id : UUID) :
    posted d' id = posted d id + (if p.payer.id = id then i.amount.units else 0)
      + (if p.payee.id = id then i.amount.units else 0) := by
  obtain rfl := h.db
  simp only [posted, Posting.entries, List.filter_append, List.map_append, List.sum_append,
    List.filter_cons, List.filter_nil, decide_eq_true_eq]
  split_ifs <;> simp [add_assoc]

theorem Posted.balance_succeeded (k : Keys d) (q : Posted d) (h : Succeeded t i p d d')
    {a : LedgerAccount} (ha : a ∈ d'.accounts) : a.balance.units = posted d' a.id := by
  have hne := payer_ne_payee k h
  have hids := nodup_opened_ids k h.opened
  rw [h.db] at ha
  obtain ⟨b, hb, rfl⟩ := Posting.mem_accounts.mp ha
  have hbal := q.balance_opened k h hb
  rw [posted_entries h]
  simp only [withBalance_id]
  by_cases hpayer : b.id = p.payer.id
  · obtain rfl := eq_of_key hids hb h.payer_mem hpayer
    rw [withBalance_self, withBalance_of_ne (by exact hne), if_pos rfl, if_neg (Ne.symm hne)]
    rw [h.payerBalance, hbal, add_zero]
  · rw [withBalance_of_ne hpayer, if_neg (Ne.symm hpayer)]
    by_cases hpayee : b.id = p.payee.id
    · obtain rfl := eq_of_key hids hb h.payee_mem hpayee
      rw [withBalance_self, if_pos rfl, h.payeeBalance, hbal, add_zero]
    · rw [withBalance_of_ne hpayee, if_neg (Ne.symm hpayee), hbal, add_zero, add_zero]

theorem total_withBalance {as : List LedgerAccount} {a : LedgerAccount} {b : Money}
    (hids : (as.map (·.id)).Nodup) (ha : a ∈ as) (accountType : AccountType) :
    total accountType (as.map (withBalance a.id b)) =
      total accountType as +
        if a.accountType = accountType then b.units - a.balance.units else 0 := by
  unfold total
  have := sum_filter_update (f := withBalance a.id b) (c := fun x => x.accountType = accountType)
    (v := fun x => x.balance.units) (List.Nodup.of_map _ hids) ha
    (fun y hy hne => withBalance_of_ne fun e => hne (eq_of_key hids hy ha e)) (by simp)
  rw [this, withBalance_self]

theorem total_opened (h : NewAccounts d p.opened) (accountType : AccountType) :
    total accountType (d.accounts ++ p.opened) = total accountType d.accounts := by
  have hz : ∀ x ∈ (p.opened.filter (·.accountType = accountType)).map (·.balance.units),
      x = 0 := by
    intro x hx
    obtain ⟨a, ha, rfl⟩ := List.mem_map.mp hx
    rw [h.made a (List.mem_filter.mp ha).1]
    rfl
  unfold total
  rw [List.filter_append, List.map_append, List.sum_append, List.sum_eq_zero hz, add_zero]

/-- A posting adds its amount to both sides. -/
theorem total_succeeded (k : Keys d) (h : Succeeded t i p d d') :
    total .virtual d'.accounts = total .virtual d.accounts + i.amount.units ∧
      total .merchantSettlement d'.accounts =
        total .merchantSettlement d.accounts + i.amount.units := by
  have hne := payer_ne_payee k h
  have hids := nodup_opened_ids k h.opened
  have hids' : (((d.accounts ++ p.opened).map
      (withBalance p.payer.id p.payerBalance)).map (·.id)).Nodup := by
    rw [map_key (by simp)]; exact hids
  -- the second update finds the payee as it was
  have hpayee : p.payee ∈ (d.accounts ++ p.opened).map (withBalance p.payer.id p.payerBalance) :=
    List.mem_map.mpr ⟨p.payee, h.payee_mem, withBalance_of_ne (Ne.symm hne)⟩
  have hacc : d'.accounts = p.accounts d := by rw [h.db]
  rw [hacc]
  unfold Posting.accounts
  constructor
  · rw [total_withBalance hids' hpayee, total_withBalance hids h.payer_mem,
      total_opened h.opened, if_pos h.payer.1, if_neg (by rw [h.payee.1]; simp), h.payerBalance]
    ring
  · rw [total_withBalance hids' hpayee, total_withBalance hids h.payer_mem,
      total_opened h.opened, if_neg (by rw [h.payer.1]; simp), if_pos h.payee.1, h.payeeBalance]
    ring

theorem Posted.succeeded (k : Keys d) (q : Posted d) (h : Succeeded t i p d d') :
    Posted d' := by
  have hbal := fun a ha => q.balance_succeeded k h (a := a) ha
  have htot := total_succeeded k h
  have hempty := q.none t h.txn (by rw [h.pending]; simp)
  have hother : ∀ u : Transaction, u.id ≠ t.id → entriesOf d' u = entriesOf d u := by
    intro u hut
    rw [h.db]
    simp [entriesOf, Posting.entries, Ne.symm hut]
  have hself : ∀ u : Transaction, u.id = t.id → entriesOf d' u = p.entries t i := by
    intro u hut
    rw [h.db]
    simp only [entriesOf] at hempty
    simp [entriesOf, hut, hempty, Posting.entries]
  have hacc : AccountsKept d d' := fun a ha => by
    obtain ⟨b, hb, e⟩ := Posting.exists_account (d := d) (p := p) (List.mem_append_left _ ha)
    exact ⟨b, by rw [h.db]; exact hb, e⟩
  have hd := h.db
  subst hd
  refine ⟨fun j' hj' => ?_, fun e he => ?_, fun u' hu' hs => ?_, fun u' hu' hs j' hj' e => ?_,
    hbal, by rw [htot.1, htot.2, q.total]⟩
  · obtain ⟨j, hj, rfl⟩ := List.mem_map.mp hj'
    rw [withStatus_amount]; exact q.amount_pos j hj
  · have ht : e.transactionId = t.id ∨ e ∈ d.entries := by
      rcases List.mem_append.mp he with he | he
      · exact .inr he
      · simp only [Posting.entries, List.mem_cons, List.not_mem_nil, or_false] at he
        rcases he with rfl | rfl <;> exact .inl rfl
    rcases ht with e' | he
    · exact ⟨_, List.mem_map_of_mem h.txn, by rw [withState_id, e']⟩
    · obtain ⟨u, hu, e'⟩ := q.txn_of e he
      exact ⟨_, List.mem_map_of_mem hu, by rw [withState_id, e']⟩
  · obtain ⟨u, hu, rfl⟩ := List.mem_map.mp hu'
    by_cases hut : u.id = t.id
    · rw [hut.symm, withState_self] at hs
      exact absurd rfl hs
    · rw [withState_of_ne hut] at hs ⊢
      rw [hother u hut]
      exact q.none u hu hs
  · obtain ⟨u, hu, rfl⟩ := List.mem_map.mp hu'
    obtain ⟨j, hj, rfl⟩ := List.mem_map.mp hj'
    rw [withStatus_id, withState_intentId] at e
    by_cases hut : u.id = t.id
    · obtain rfl := eq_of_key k.transactions hu h.txn hut
      obtain rfl := eq_of_key k.intents hj h.intent (e.trans h.intentId.symm)
      obtain ⟨a, ha, e1, e2, e3⟩ := Posting.exists_account h.payer_mem
      obtain ⟨b, hb, f1, f2, f3⟩ := Posting.exists_account h.payee_mem
      refine ⟨_, _, hself _ withState_id, ⟨rfl, ?_, rfl, a, ha, e1, e2.trans h.payer.1, ?_⟩,
        ⟨rfl, ?_, rfl, b, hb, f1, f2.trans h.payee.1, ?_⟩⟩
      · simp
      · rw [e3, h.payer.2, withState_vpa]
      · simp
      · rw [f3, h.payee.2, withStatus_merchantId]
    · rw [withState_of_ne hut] at hs ⊢
      exact pair_kept hacc (hother u hut) rfl (by simp) (by simp) (q.pair u hu hs j hj e)

theorem Posted.change (k : Keys d) (q : Posted d) (h : Change d d') : Posted d' := by
  cases h with
  | ordered h => exact q.ordered k h
  | initiated h => exact q.begun h.begun
  | failed h => exact q.failed k h
  | succeeded h => exact q.succeeded k h

/-- **The invariant is kept by every change.** -/
theorem Consistent.change (hi : Consistent d) (h : Change d d') : Consistent d' :=
  ⟨hi.keys.change h, hi.coupled.change hi.keys h, hi.chart.change h, hi.posted.change hi.keys h⟩

theorem PublicIds.change (h : PublicIds d) (hc : Change d d') : PublicIds d' := by
  unfold PublicIds at h ⊢
  cases hc with
  | ordered hc => rw [hc.db]; exact h
  | initiated hc => rw [hc.db]; exact nodup_append_key h fun u hu => (hc.fresh u hu).2
  | failed hc => rw [hc.db, map_key (by simp)]; exact h
  | succeeded hc => rw [hc.db, map_key (by simp)]; exact h

/-! ### Signs -/

/-- Every entry is positive: it has the amount of an intent. -/
theorem entry_pos (h : Balanced d) {e : LedgerEntry} (he : e ∈ d.entries) :
    0 < e.amount.units := by
  obtain ⟨t, ht, het⟩ := h.posted.txn_of e he
  obtain ⟨i, hi, hit⟩ := h.keys.intent_of t ht
  have hmem : e ∈ entriesOf d t := List.mem_filter.mpr ⟨he, decide_eq_true het.symm⟩
  have hs : t.state = .success := by
    by_contra hs
    rw [h.posted.none t ht hs] at hmem
    cases hmem
  obtain ⟨x, y, hxy, hx, hy⟩ := h.posted.pair t ht hs i hi hit
  rw [hxy, List.mem_pair] at hmem
  rcases hmem with rfl | rfl
  · rw [hx.2.1]; exact h.posted.amount_pos i hi
  · rw [hy.2.1]; exact h.posted.amount_pos i hi

theorem balance_nonneg (h : Balanced d) (a : LedgerAccount) : 0 ≤ posted d a.id := by
  refine List.sum_nonneg fun x hx => ?_
  obtain ⟨e, he, rfl⟩ := List.mem_map.mp hx
  exact (entry_pos h (List.mem_filter.mp he).1).le

theorem posted_nonneg (h : Consistent d) (a : LedgerAccount) : 0 ≤ posted d a.id :=
  balance_nonneg h.balanced a

/-! ### Owners -/

theorem Owned.change (o : Owned d) (h : Change d d') : Owned d' := by
  have hmap : ∀ id status, Owned { d with intents := d.intents.map (withStatus id status) } := by
    intro id status i hi
    obtain ⟨j, hj, rfl⟩ := List.mem_map.mp hi
    rw [withStatus_merchantId]
    exact o j hj
  cases h with
  | ordered h =>
    have hmerchant := h.merchant
    obtain rfl := h.db
    intro j hj
    rcases List.mem_append.mp hj with hj | hj
    · exact o j hj
    · rw [List.mem_singleton.mp hj]
      exact hmerchant
  | initiated h => rw [h.db]; exact hmap _ _
  | failed h => rw [h.db]; exact hmap _ _
  | succeeded h => rw [h.db]; exact hmap _ _

end PaymentGateway.State.Invariant
