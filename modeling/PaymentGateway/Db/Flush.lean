import PaymentGateway.Db.Statements
import PaymentGateway.Lib.Tables

/-! # What a flush does

A write changes columns of rows that are already there, or appends a row. `flush_tables` says what a
flush does to every table, whatever its writes are; the inversion lemmas say what a given write
checked and did if it did not fail. -/

namespace PaymentGateway.Db.Flush

open PaymentGateway.Core.Ids PaymentGateway.Models PaymentGateway.Lib.DecimalArith
open PaymentGateway.Lib.Tables PaymentGateway.Db.Statements

/-! ### The columns a write changes, and the rows it appends -/

def onTransaction : Write → Transaction → Transaction
  | .setTransactionState id state => withState id state
  | _ => id

def onIntent : Write → PaymentIntent → PaymentIntent
  | .setIntentStatus id status => withStatus id status
  | _ => id

def onAccount : Write → LedgerAccount → LedgerAccount
  | .setBalance id balance => fun a =>
    withBalance id ((Numeric.ofDecimal 18 4 balance).getD a.balance) a
  | _ => id

def newTransactions : Write → List Transaction
  | .addTransaction row => [row]
  | _ => []

def newIntents : Write → List PaymentIntent
  | .addIntent id publicId merchantId amount currency idempotencyKey description status =>
    (Numeric.ofDecimal 18 4 amount).toList.map fun amount =>
      ⟨id, publicId, merchantId, amount, currency, status, idempotencyKey, description⟩
  | _ => []

def newEntries : Write → List LedgerEntry
  | .addEntry id accountId transactionId amount entryType currency =>
    (Numeric.ofDecimal 18 4 amount).toList.map fun amount =>
      ⟨id, accountId, transactionId, amount, entryType, currency⟩
  | _ => []

def newDeliveries : Write → List WebhookDelivery
  | .addDelivery row => [row]
  | _ => []

/-- The effect of a write, table by table. -/
structure Applied (w : Write) (d d' : Db) : Prop where
  merchants : d'.merchants = d.merchants
  intents : d'.intents = d.intents.map (onIntent w) ++ newIntents w
  transactions : d'.transactions = d.transactions.map (onTransaction w) ++ newTransactions w
  accounts : d'.accounts = d.accounts.map (onAccount w)
  entries : d'.entries = d.entries ++ newEntries w
  deliveries : d'.deliveries = d.deliveries ++ newDeliveries w

theorem applied_of_apply {w : Write} {d d' : Db} (h : w.apply d = .ok d') : Applied w d d' := by
  cases w <;> simp only [Write.apply] at h <;> split at h <;> try split at h
  all_goals try split at h
  all_goals try cases h
  all_goals constructor
  -- a table the write leaves alone, or one it maps or appends to
  all_goals first
    | rfl
    | exact (List.map_id _).symm
    | simp [onTransaction, onIntent, onAccount, newTransactions, newIntents, newEntries,
        newDeliveries, *]

/-- The effect of a list of writes, table by table. -/
structure Flushed (ws : List Write) (d d' : Db) : Prop where
  merchants : d'.merchants = d.merchants
  intents : d'.intents = apply onIntent newIntents ws d.intents
  transactions : d'.transactions = apply onTransaction newTransactions ws d.transactions
  accounts : d'.accounts = apply onAccount (fun _ => []) ws d.accounts
  entries : d'.entries = d.entries ++ ws.flatMap newEntries
  deliveries : d'.deliveries = d.deliveries ++ ws.flatMap newDeliveries

theorem flushed_of_foldlM {ws : List Write} {d d' : Db}
    (h : ws.foldlM (fun d w => w.apply d) d = .ok d') : Flushed ws d d' := by
  induction ws generalizing d with
  | nil => cases h; exact ⟨rfl, rfl, rfl, rfl, by simp, by simp⟩
  | cons w ws ih =>
    rw [List.foldlM_cons] at h
    cases hw : w.apply d with
    | error e => rw [hw] at h; cases h
    | ok d₁ =>
      rw [hw] at h
      have a := applied_of_apply hw
      have b := ih h
      refine ⟨b.merchants.trans a.merchants, ?_, ?_, ?_, ?_, ?_⟩
      · rw [b.intents, a.intents, apply_cons]
      · rw [b.transactions, a.transactions, apply_cons]
      · rw [b.accounts, a.accounts, apply_cons, List.append_nil]
      · rw [b.entries, a.entries, List.append_assoc, List.flatMap_cons]
      · rw [b.deliveries, a.deliveries, List.append_assoc, List.flatMap_cons]

/-- **A flush, table by table.** -/
theorem flush_tables {l : Session} {d d' : Db} (h : l.flush d = .ok d') :
    Flushed l.pending { d with accounts := d.accounts ++ l.inserted } d' :=
  flushed_of_foldlM h

/-- A flush fails on a value out of range, a key, or a row that is gone. -/
theorem apply_error {w : Write} {d : Db} {e : Exc} (h : w.apply d = .error e) :
    e = .dataError ∨ e = .integrityError ∨ e = .staleDataError := by
  cases w <;> simp only [Write.apply] at h <;> split at h <;> try split at h
  all_goals try split at h
  all_goals cases h
  all_goals simp

theorem flush_error {l : Session} {d : Db} {e : Exc} (h : l.flush d = .error e) :
    e = .dataError ∨ e = .integrityError ∨ e = .staleDataError := by
  unfold Session.flush at h
  generalize ({ d with accounts := d.accounts ++ l.inserted } : Db) = d₁ at h
  generalize l.pending = ws at h
  induction ws generalizing d₁ with
  | nil => cases h
  | cons w ws ih =>
    rw [List.foldlM_cons] at h
    cases hw : w.apply d₁ with
    | error e' => rw [hw] at h; cases h; exact apply_error hw
    | ok d₂ => rw [hw] at h; exact ih d₂ h

/-! ### What a write checked and did -/

section Inversion

variable {d d' : Db} {id : UUID}

theorem bind_ok {α β : Type} {x : Except Exc α} {f : α → Except Exc β} {b : β}
    (h : (x >>= f) = .ok b) : ∃ a, x = .ok a ∧ f a = .ok b := by
  cases x with
  | error e => cases h
  | ok a => exact ⟨a, rfl, h⟩

theorem addIntent_ok {publicId currency key : String} {merchantId : UUID} {amount : Decimal}
    {description : Option String} {status : PaymentStatus}
    (h : (Write.addIntent id publicId merchantId amount currency key description status).apply d
      = .ok d') :
    ∃ money, Numeric.ofDecimal 18 4 amount = some money ∧ (∃ m ∈ d.merchants, m.id = merchantId) ∧
      (∀ i ∈ d.intents, i.id ≠ id ∧ i.publicId ≠ publicId ∧ i.idempotencyKey ≠ key) ∧
      d' = { d with intents := d.intents ++
        [⟨id, publicId, merchantId, money, currency, status, key, description⟩] } := by
  simp only [Write.apply] at h
  split at h
  · cases h
  · rename_i money hm
    split_ifs at h with hlen hkey
    cases h
    exact ⟨money, hm, hkey.1, hkey.2, rfl⟩

theorem addTransaction_ok {row : Transaction} (h : (Write.addTransaction row).apply d = .ok d') :
    (∀ t ∈ d.transactions, t.id ≠ row.id ∧ t.publicId ≠ row.publicId) ∧
      d' = { d with transactions := d.transactions ++ [row] } := by
  simp only [Write.apply] at h
  split_ifs at h with hlen hkey
  cases h
  exact ⟨hkey.2, rfl⟩

theorem addEntry_ok {accountId transactionId : UUID} {amount : Decimal} {entryType : EntryType}
    {currency : String}
    (h : (Write.addEntry id accountId transactionId amount entryType currency).apply d = .ok d') :
    ∃ money, Numeric.ofDecimal 18 4 amount = some money ∧ (∀ e ∈ d.entries, e.id ≠ id) ∧
      d' = { d with entries := d.entries ++
        [⟨id, accountId, transactionId, money, entryType, currency⟩] } := by
  simp only [Write.apply] at h
  split at h
  · cases h
  · rename_i money hm
    split_ifs at h with hlen hkey
    cases h
    exact ⟨money, hm, hkey.2.2, rfl⟩

theorem addDelivery_ok {row : WebhookDelivery} (h : (Write.addDelivery row).apply d = .ok d') :
    d' = { d with deliveries := d.deliveries ++ [row] } := by
  simp only [Write.apply] at h
  split_ifs at h with hlen hkey
  cases h
  rfl

theorem setIntentStatus_ok {status : PaymentStatus}
    (h : (Write.setIntentStatus id status).apply d = .ok d') :
    d' = { d with intents := d.intents.map (withStatus id status) } := by
  simp only [Write.apply] at h
  split_ifs at h with hid
  cases h
  rfl

theorem setTransactionState_ok {state : TransactionState}
    (h : (Write.setTransactionState id state).apply d = .ok d') :
    d' = { d with transactions := d.transactions.map (withState id state) } := by
  simp only [Write.apply] at h
  split_ifs at h with hid
  cases h
  rfl

theorem setBalance_ok {balance : Decimal} (h : (Write.setBalance id balance).apply d = .ok d') :
    ∃ money, Numeric.ofDecimal 18 4 balance = some money ∧
      d' = { d with accounts := d.accounts.map (withBalance id money) } := by
  simp only [Write.apply] at h
  split at h
  · cases h
  · rename_i money hm
    split_ifs at h with hid
    cases h
    exact ⟨money, hm, rfl⟩

end Inversion

/-! ### A write with nothing in its way -/

section Success

variable {d d₁ : Db} {id : UUID} {w : Write} {ws : List Write}

theorem foldlM_apply (h : w.apply d = .ok d₁) :
    (w :: ws).foldlM (fun d w => w.apply d) d = ws.foldlM (fun d w => w.apply d) d₁ := by
  rw [List.foldlM_cons, h]
  rfl

theorem foldlM_apply_error {e : Exc} (h : w.apply d = .error e) :
    (w :: ws).foldlM (fun d w => w.apply d) d = .error e := by
  rw [List.foldlM_cons, h]
  rfl

theorem setIntentStatus_eq {status : PaymentStatus} (h : ∃ i ∈ d.intents, i.id = id) :
    (Write.setIntentStatus id status).apply d =
      .ok { d with intents := d.intents.map (withStatus id status) } := if_pos h

theorem setTransactionState_eq {state : TransactionState} (h : ∃ t ∈ d.transactions, t.id = id) :
    (Write.setTransactionState id state).apply d =
      .ok { d with transactions := d.transactions.map (withState id state) } := if_pos h

theorem setBalance_eq {balance : Decimal} {money : Money}
    (hm : Numeric.ofDecimal 18 4 balance = some money) (h : ∃ a ∈ d.accounts, a.id = id) :
    (Write.setBalance id balance).apply d =
      .ok { d with accounts := d.accounts.map (withBalance id money) } := by
  simp only [Write.apply, hm, if_pos h]

theorem setBalance_none {balance : Decimal} (hm : Numeric.ofDecimal 18 4 balance = none) :
    (Write.setBalance id balance).apply d = .error .dataError := by
  simp only [Write.apply, hm]

theorem addEntry_eq {accountId transactionId : UUID} {amount : Decimal} {entryType : EntryType}
    {currency : String} {money : Money} (hm : Numeric.ofDecimal 18 4 amount = some money)
    (hlen : currency.length ≤ 3) (ha : ∃ a ∈ d.accounts, a.id = accountId)
    (ht : ∃ t ∈ d.transactions, t.id = transactionId) (he : ∀ e ∈ d.entries, e.id ≠ id) :
    (Write.addEntry id accountId transactionId amount entryType currency).apply d =
      .ok { d with entries := d.entries ++
        [⟨id, accountId, transactionId, money, entryType, currency⟩] } := by
  simp only [Write.apply, hm, if_pos hlen]
  exact if_pos ⟨ha, ht, he⟩

end Success

end PaymentGateway.Db.Flush
