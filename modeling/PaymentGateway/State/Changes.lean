import PaymentGateway.Db.Locking

/-! # What the services commit

There are four changes of the committed state, one for each branch of a service that commits
writes: an order is created, a payment is initiated, and a payment fails or succeeds. Each is a
relation that says what was checked before and what the database is after; the invariants are
derived from these alone. -/

namespace PaymentGateway.State.Changes

open PaymentGateway.Core.Ids PaymentGateway.Models PaymentGateway.Db.Statements
open PaymentGateway.Db.Locking PaymentGateway.Lib.Tables

/-- The intent `i` is new. -/
structure Ordered (i : PaymentIntent) (d d' : Db) : Prop where
  created : i.status = .created
  amount_pos : 0 < i.amount.units
  merchant : ∃ m ∈ d.merchants, m.id = i.merchantId
  fresh : ∀ j ∈ d.intents,
    j.id ≠ i.id ∧ j.publicId ≠ i.publicId ∧ j.idempotencyKey ≠ i.idempotencyKey
  db : d' = { d with intents := d.intents ++ [i] }

/-- The intent `i` is now processing, with the new transaction `t`. -/
structure Initiated (t : Transaction) (i : PaymentIntent) (d d' : Db) : Prop where
  intent : i ∈ d.intents
  created : i.status = .created
  intentId : t.intentId = i.id
  pending : t.state = .pending
  vpa : '@' ∈ t.vpa.toList
  fresh : ∀ u ∈ d.transactions, u.id ≠ t.id ∧ u.publicId ≠ t.publicId
  db : d' = { d with
    intents := d.intents.map (withStatus i.id .processing)
    transactions := d.transactions ++ [t] }

/-- The same, but the intent may have had any status. -/
structure Begun (t : Transaction) (i : PaymentIntent) (d d' : Db) : Prop where
  intent : i ∈ d.intents
  intentId : t.intentId = i.id
  pending : t.state = .pending
  vpa : '@' ∈ t.vpa.toList
  fresh : ∀ u ∈ d.transactions, u.id ≠ t.id ∧ u.publicId ≠ t.publicId
  db : d' = { d with
    intents := d.intents.map (withStatus i.id .processing)
    transactions := d.transactions ++ [t] }

theorem Initiated.begun {t : Transaction} {i : PaymentIntent} {d d' : Db} (h : Initiated t i d d') :
    Begun t i d d' :=
  ⟨h.intent, h.intentId, h.pending, h.vpa, h.fresh, h.db⟩

theorem Begun.initiated {t : Transaction} {i : PaymentIntent} {d d' : Db} (h : Begun t i d d')
    (hcreated : i.status = .created) : Initiated t i d d' :=
  ⟨h.intent, hcreated, h.intentId, h.pending, h.vpa, h.fresh, h.db⟩

/-- The transaction `t` of the intent `i` waits for its callback. -/
structure Open (t : Transaction) (i : PaymentIntent) (d : Db) : Prop where
  txn : t ∈ d.transactions
  intent : i ∈ d.intents
  intentId : i.id = t.intentId
  pending : t.state = .pending
  processing : i.status = .processing

/-- The payment has failed. -/
structure Failed (t : Transaction) (i : PaymentIntent) (d d' : Db) : Prop extends Open t i d where
  db : d' = { d with
    intents := d.intents.map (withStatus i.id .failed)
    transactions := d.transactions.map (withState t.id .failed) }

/-- The two accounts of a posting, their new balances, and the ids of its two entries. -/
structure Posting where
  payer : LedgerAccount
  payee : LedgerAccount
  payerBalance : Money
  payeeBalance : Money
  debitId : UUID
  creditId : UUID
  /-- Those of the two accounts that did not exist. -/
  opened : List LedgerAccount

/-- The account of the payer of `t`. -/
def IsPayer (t : Transaction) (a : LedgerAccount) : Prop :=
  a.accountType = .virtual ∧ a.identifier = t.vpa

/-- The settlement account of the merchant of `i`. -/
def IsPayee (i : PaymentIntent) (a : LedgerAccount) : Prop :=
  a.accountType = .merchantSettlement ∧ a.identifier = merchantIdentifier i.merchantId

/-- An account as `_ensure_account_locked` opens it for `t` or for the merchant of `i`. -/
def OpenedFor (t : Transaction) (i : PaymentIntent) (a : LedgerAccount) : Prop :=
  (IsPayer t a ∧ a.merchantId = none) ∨ (IsPayee i a ∧ a.merchantId = some i.merchantId)

/-- The debit and the credit of a posting. -/
def Posting.entries (p : Posting) (t : Transaction) (i : PaymentIntent) : List LedgerEntry :=
  [⟨p.debitId, p.payer.id, t.id, i.amount, .debit, defaultCurrency⟩,
   ⟨p.creditId, p.payee.id, t.id, i.amount, .credit, defaultCurrency⟩]

/-- The accounts after a posting. -/
def Posting.accounts (p : Posting) (d : Db) : List LedgerAccount :=
  ((d.accounts ++ p.opened).map (withBalance p.payer.id p.payerBalance)).map
    (withBalance p.payee.id p.payeeBalance)

section Accounts

variable {d : Db} {p : Posting}

theorem Posting.map_accounts {β : Type} {f : LedgerAccount → β} (p : Posting)
    (hf : ∀ id b a, f (withBalance id b a) = f a) (d : Db) :
    (p.accounts d).map f = (d.accounts ++ p.opened).map f := by
  unfold Posting.accounts
  rw [map_key fun a => hf _ _ a, map_key fun a => hf _ _ a]

theorem Posting.mem_accounts {a : LedgerAccount} :
    a ∈ p.accounts d ↔ ∃ b ∈ d.accounts ++ p.opened,
      a = withBalance p.payee.id p.payeeBalance (withBalance p.payer.id p.payerBalance b) := by
  unfold Posting.accounts
  rw [List.map_map, List.mem_map]
  exact ⟨fun ⟨b, hb, e⟩ => ⟨b, hb, e.symm⟩, fun ⟨b, hb, e⟩ => ⟨b, hb, e.symm⟩⟩

/-- Every account is still there, up to its balance. -/
theorem Posting.exists_account {a : LedgerAccount} (ha : a ∈ d.accounts ++ p.opened) :
    ∃ b ∈ p.accounts d, b.id = a.id ∧ b.accountType = a.accountType ∧
      b.identifier = a.identifier :=
  ⟨_, Posting.mem_accounts.mpr ⟨a, ha, rfl⟩, by simp, by simp, by simp⟩

end Accounts

/-- The payment has succeeded and is posted. -/
structure Succeeded (t : Transaction) (i : PaymentIntent) (p : Posting) (d d' : Db) : Prop
    extends Open t i d where
  opened : NewAccounts d p.opened
  openedFor : ∀ a ∈ p.opened, OpenedFor t i a
  payer_mem : p.payer ∈ d.accounts ++ p.opened
  payee_mem : p.payee ∈ d.accounts ++ p.opened
  payer : IsPayer t p.payer
  payee : IsPayee i p.payee
  payerBalance : p.payerBalance.units = p.payer.balance.units + i.amount.units
  payeeBalance : p.payeeBalance.units = p.payee.balance.units + i.amount.units
  db : d' = { d with
    intents := d.intents.map (withStatus i.id .success)
    transactions := d.transactions.map (withState t.id .success)
    accounts := p.accounts d
    entries := d.entries ++ p.entries t i }

/-- A change of the committed state by a service. -/
inductive Change (d d' : Db) : Prop
  | ordered {i} (h : Ordered i d d')
  | initiated {t i} (h : Initiated t i d d')
  | failed {t i} (h : Failed t i d d')
  | succeeded {t i p} (h : Succeeded t i p d d')

/-- No service writes a delivery. -/
theorem Change.deliveries {d d' : Db} (h : Change d d') : d'.deliveries = d.deliveries := by
  cases h with
  | ordered h => rw [h.db]
  | initiated h => rw [h.db]
  | failed h => rw [h.db]
  | succeeded h => rw [h.db]

end PaymentGateway.State.Changes
