import PaymentGateway.Models
import PaymentGateway.Lib.Sessions

/-! # Sessions and statements

What a service does with the database, statement by statement, as SQLAlchemy and PostgreSQL at READ
COMMITTED do it.

* `Write`: a change of the unit of work (`db.add`, an assignment to a column of a loaded object). It
  is only staged; `commit` flushes it, since the session does not autoflush.
* `Session`: the intents in the identity map, the rows locked `FOR UPDATE`, the accounts inserted by
  an executed `INSERT` and not yet committed, and the staged writes.
* `exec`: a SELECT sees the committed rows and the session's own; an intent that is already in the
  identity map keeps the values it was loaded with. `commit` flushes and ends the transaction;
  with `expire_on_commit=False` the loaded objects stay. A failed flush rolls back.
* `waits`: a `FOR UPDATE` waits for whoever holds a row it matches, an `INSERT … ON CONFLICT DO
  NOTHING` for a rival's uncommitted row of the same key, a flush for the holders of the rows it
  updates or refers to.

Transactions and accounts are loaded at most once in a session, so only intents need the identity
map. -/

namespace PaymentGateway.Db.Statements

open PaymentGateway.Core.Ids PaymentGateway.Models PaymentGateway.Lib.DecimalArith
open PaymentGateway.Lib.Program PaymentGateway.Lib.Sessions

/-! ### Exceptions -/

/-- The exceptions of the services, of SQLAlchemy and of the endpoints. -/
inductive Exc
  /-- `Order {order_id} not found` -/
  | orderNotFound (orderId : String)
  /-- `Order {order_id} already {status}` -/
  | alreadyFinalised (orderId : String) (status : PaymentStatus)
  /-- `Idempotency key already consumed with a different payload` -/
  | orderIdempotencyReuse
  /-- `No transaction for {psp_reference=}` -/
  | transactionNotFound (pspReference : String)
  /-- `Callback amount {amount} != intent amount {intent.amount}` -/
  | amountMismatch (amount intentAmount : Decimal)
  | invalidStateTransition (message : String)
  | ledgerError (message : String)
  | noResultFound
  | multipleResultsFound
  | integrityError
  | dataError
  | staleDataError
  /-- `db.refresh` of a row that is gone. -/
  | invalidRequestError
  /-- `decimal.InvalidOperation` -/
  | invalidOperation
  /-- `hmac.compare_digest` of strings that are not ASCII, a value that cannot be hashed or written
  as JSON, or a parameter that is given twice. -/
  | typeError
  | attributeError
  | valueError
  | jsonDecodeError
  | unicodeDecodeError
  | recursionError
  /-- An integer too large for a float. -/
  | overflowError
  /-- `HMAC signature verification failed` -/
  | signatureVerificationError
  /-- A `WebhookTimestampError`: `Invalid callback timestamp` -/
  | invalidTimestamp
  /-- A `WebhookTimestampError`: `Callback timestamp too old ({age:.0f}s)` -/
  | timestampTooOld (age : ℚ)
  /-- The broker is out of reach. -/
  | operationalError
  /-- An `HTTPException` with a detail of its own. -/
  | httpException (status : ℕ) (detail : String)
  /-- An `HTTPException` with a `WWW-Authenticate` header. -/
  | httpChallenge (status : ℕ) (detail scheme : String)
  /-- An `HTTPException` raised from `cause`, whose text is the detail, or the message in it. -/
  | httpFrom (status : ℕ) (cause : Exc)
  /-- The process died. -/
  | crash
  deriving DecidableEq

/-! ### Staged writes -/

/-- A row that `FOR UPDATE` can lock. -/
inductive RowId
  | intent (id : UUID)
  | transaction (id : UUID)
  | account (id : UUID)
  deriving DecidableEq

inductive Write
  | addIntent (id : UUID) (publicId : String) (merchantId : UUID) (amount : Decimal)
      (currency idempotencyKey : String) (description : Option String) (status : PaymentStatus)
  | addTransaction (row : Transaction)
  | addEntry (id accountId transactionId : UUID) (amount : Decimal) (entryType : EntryType)
      (currency : String)
  | addDelivery (row : WebhookDelivery)
  | setIntentStatus (id : UUID) (status : PaymentStatus)
  | setTransactionState (id : UUID) (state : TransactionState)
  | setBalance (id : UUID) (balance : Decimal)
  deriving DecidableEq

/-- The lockable rows a write updates, or refers to by a foreign key. -/
def Write.rows : Write → List RowId
  | .addIntent .. => []
  | .addTransaction row => [.intent row.intentId]
  | .addEntry _ accountId transactionId _ _ _ => [.account accountId, .transaction transactionId]
  | .addDelivery row => [.transaction row.transactionId]
  | .setIntentStatus id _ => [.intent id]
  | .setTransactionState id _ => [.transaction id]
  | .setBalance id _ => [.account id]

/-- `UPDATE payment_intents SET status = … WHERE id = …`, row by row. -/
def withStatus (id : UUID) (status : PaymentStatus) (i : PaymentIntent) : PaymentIntent :=
  if i.id = id then { i with status } else i

/-- `UPDATE transactions SET state = … WHERE id = …`, row by row. -/
def withState (id : UUID) (state : TransactionState) (t : Transaction) : Transaction :=
  if t.id = id then { t with state } else t

/-- `UPDATE ledger_accounts SET balance = … WHERE id = …`, row by row. -/
def withBalance (id : UUID) (balance : Money) (a : LedgerAccount) : LedgerAccount :=
  if a.id = id then { a with balance } else a

section Columns

variable {id : UUID} {i : PaymentIntent} {t : Transaction} {a : LedgerAccount}
  {status : PaymentStatus} {state : TransactionState} {balance : Money}

theorem withStatus_eq : withStatus id status i =
    { i with status := (withStatus id status i).status } := by
  unfold withStatus; split_ifs <;> rfl

theorem withState_eq : withState id state t =
    { t with state := (withState id state t).state } := by
  unfold withState; split_ifs <;> rfl

theorem withBalance_eq : withBalance id balance a =
    { a with balance := (withBalance id balance a).balance } := by
  unfold withBalance; split_ifs <;> rfl

@[simp] theorem withStatus_id : (withStatus id status i).id = i.id := by rw [withStatus_eq]

@[simp] theorem withStatus_publicId : (withStatus id status i).publicId = i.publicId := by
  rw [withStatus_eq]

@[simp] theorem withStatus_idempotencyKey :
    (withStatus id status i).idempotencyKey = i.idempotencyKey := by rw [withStatus_eq]

@[simp] theorem withStatus_merchantId : (withStatus id status i).merchantId = i.merchantId := by
  rw [withStatus_eq]

@[simp] theorem withStatus_amount : (withStatus id status i).amount = i.amount := by
  rw [withStatus_eq]

@[simp] theorem withStatus_currency : (withStatus id status i).currency = i.currency := by
  rw [withStatus_eq]

@[simp] theorem withState_id : (withState id state t).id = t.id := by rw [withState_eq]

@[simp] theorem withState_publicId : (withState id state t).publicId = t.publicId := by
  rw [withState_eq]

@[simp] theorem withState_intentId : (withState id state t).intentId = t.intentId := by
  rw [withState_eq]

@[simp] theorem withState_vpa : (withState id state t).vpa = t.vpa := by rw [withState_eq]

@[simp] theorem withState_pspReference : (withState id state t).pspReference = t.pspReference := by
  rw [withState_eq]

@[simp] theorem withBalance_id : (withBalance id balance a).id = a.id := by rw [withBalance_eq]

@[simp] theorem withBalance_key : (withBalance id balance a).key = a.key := by
  rw [withBalance_eq]; rfl

@[simp] theorem withBalance_accountType :
    (withBalance id balance a).accountType = a.accountType := by
  rw [withBalance_eq]

@[simp] theorem withBalance_merchantId : (withBalance id balance a).merchantId = a.merchantId := by
  rw [withBalance_eq]

@[simp] theorem withBalance_identifier : (withBalance id balance a).identifier = a.identifier := by
  rw [withBalance_eq]

@[simp] theorem withBalance_currency : (withBalance id balance a).currency = a.currency := by
  rw [withBalance_eq]

theorem withStatus_self : withStatus i.id status i = { i with status } := if_pos rfl

theorem withState_self : withState t.id state t = { t with state } := if_pos rfl

theorem withBalance_self : withBalance a.id balance a = { a with balance } := if_pos rfl

theorem withStatus_of_ne (h : i.id ≠ id) : withStatus id status i = i := if_neg h

theorem withState_of_ne (h : t.id ≠ id) : withState id state t = t := if_neg h

theorem withBalance_of_ne (h : a.id ≠ id) : withBalance id balance a = a := if_neg h

theorem withStatus_comm {id' : UUID} {status' : PaymentStatus} (h : id ≠ id') :
    withStatus id status (withStatus id' status' i) =
      withStatus id' status' (withStatus id status i) := by
  by_cases hi : i.id = id
  · have hne : i.id ≠ id' := fun e => h (hi.symm.trans e)
    rw [withStatus_of_ne hne]
    exact (withStatus_of_ne (by rw [withStatus_id]; exact hne)).symm
  · rw [withStatus_of_ne hi]
    exact withStatus_of_ne (by rw [withStatus_id]; exact hi)

theorem withState_comm {id' : UUID} {state' : TransactionState} (h : id ≠ id') :
    withState id state (withState id' state' t) = withState id' state' (withState id state t) := by
  by_cases ht : t.id = id
  · have hne : t.id ≠ id' := fun e => h (ht.symm.trans e)
    rw [withState_of_ne hne]
    exact (withState_of_ne (by rw [withState_id]; exact hne)).symm
  · rw [withState_of_ne ht]
    exact withState_of_ne (by rw [withState_id]; exact ht)

end Columns

/-- The change a write makes when it is flushed: column types and widths first, then keys. -/
def Write.apply : Write → Db → Except Exc Db
  | .addIntent id publicId merchantId amount currency idempotencyKey description status, d =>
    match Numeric.ofDecimal 18 4 amount with
    | none => .error .dataError
    | some amount =>
      if publicId.length ≤ 64 ∧ currency.length ≤ 3 ∧ idempotencyKey.length ≤ 128 ∧
          ∀ s ∈ description, s.length ≤ 512 then
        if (∃ m ∈ d.merchants, m.id = merchantId) ∧ ∀ i ∈ d.intents,
            i.id ≠ id ∧ i.publicId ≠ publicId ∧ i.idempotencyKey ≠ idempotencyKey then
          .ok { d with intents := d.intents ++
            [⟨id, publicId, merchantId, amount, currency, status, idempotencyKey, description⟩] }
        else .error .integrityError
      else .error .dataError
  | .addTransaction row, d =>
    if row.publicId.length ≤ 64 ∧ row.vpa.length ≤ 255 ∧ ∀ s ∈ row.pspReference, s.length ≤ 128 then
      if (∃ i ∈ d.intents, i.id = row.intentId) ∧ ∀ t ∈ d.transactions,
          t.id ≠ row.id ∧ t.publicId ≠ row.publicId then
        .ok { d with transactions := d.transactions ++ [row] }
      else .error .integrityError
    else .error .dataError
  | .addEntry id accountId transactionId amount entryType currency, d =>
    match Numeric.ofDecimal 18 4 amount with
    | none => .error .dataError
    | some amount =>
      if currency.length ≤ 3 then
        if (∃ a ∈ d.accounts, a.id = accountId) ∧ (∃ t ∈ d.transactions, t.id = transactionId) ∧
            ∀ e ∈ d.entries, e.id ≠ id then
          .ok { d with entries := d.entries ++
            [⟨id, accountId, transactionId, amount, entryType, currency⟩] }
        else .error .integrityError
      else .error .dataError
  | .addDelivery row, d =>
    if row.url.length ≤ 2048 ∧ row.signature.length ≤ 128 then
      if (∃ t ∈ d.transactions, t.id = row.transactionId) ∧
          (∃ m ∈ d.merchants, m.id = row.merchantId) ∧ ∀ w ∈ d.deliveries, w.id ≠ row.id then
        .ok { d with deliveries := d.deliveries ++ [row] }
      else .error .integrityError
    else .error .dataError
  | .setIntentStatus id status, d =>
    if ∃ i ∈ d.intents, i.id = id then
      .ok { d with intents := d.intents.map (withStatus id status) }
    else .error .staleDataError
  | .setTransactionState id state, d =>
    if ∃ t ∈ d.transactions, t.id = id then
      .ok { d with transactions := d.transactions.map (withState id state) }
    else .error .staleDataError
  | .setBalance id balance, d =>
    match Numeric.ofDecimal 18 4 balance with
    | none => .error .dataError
    | some balance =>
      if ∃ a ∈ d.accounts, a.id = id then
        .ok { d with accounts := d.accounts.map (withBalance id balance) }
      else .error .staleDataError

/-! ### Sessions -/

structure Session where
  /-- The identity map, as far as intents go. -/
  loaded : List PaymentIntent
  /-- The rows locked in the present transaction. -/
  locks : List RowId
  /-- The accounts inserted in the present transaction. -/
  inserted : List LedgerAccount
  /-- The staged writes, in order. -/
  pending : List Write
  deriving DecidableEq

/-- A fresh, or closed, session. -/
def Session.closed : Session := ⟨[], [], [], []⟩

/-- The objects a SELECT of intents returns: those in the identity map as they are there. -/
def Session.objects (l : Session) (rows : List PaymentIntent) : List PaymentIntent :=
  rows.map fun r => (l.loaded.find? (·.id = r.id)).getD r

/-- The identity map after a SELECT of intents. -/
def Session.load (l : Session) (rows : List PaymentIntent) : List PaymentIntent :=
  l.loaded ++ rows.filter fun r => ∀ x ∈ l.loaded, x.id ≠ r.id

/-- The identity map after the row `r` is read anew. -/
def Session.reload (l : Session) (r : PaymentIntent) : List PaymentIntent :=
  l.loaded.map fun x => if x.id = r.id then r else x

/-- An assignment to a column of a loaded intent shows in the identity map. -/
def Session.assign (l : Session) : Write → List PaymentIntent
  | .setIntentStatus id status => l.loaded.map (withStatus id status)
  | _ => l.loaded

/-- The database after the flush of a session. -/
def Session.flush (l : Session) (d : Db) : Except Exc Db :=
  l.pending.foldlM (fun d w => w.apply d) { d with accounts := d.accounts ++ l.inserted }

/-! ### Statements -/

inductive Stmt
  /-- `db.get(Merchant, id)` -/
  | selectMerchantById (id : UUID)
  | selectMerchantByKeyHash (apiKeyHash : String)
  /-- `Merchant.payment_intents`, with `lazy="selectin"` -/
  | selectinPaymentIntents (merchantId : UUID)
  | selectIntentByKey (idempotencyKey : String) (merchantId : UUID)
  | selectIntentByPublicId (publicId : String) (merchantId : UUID)
  /-- `FOR UPDATE` -/
  | selectIntentForUpdate (publicId : String) (merchantId : UUID)
  /-- `FOR UPDATE` -/
  | selectIntentById (id : UUID)
  | selectTransactionsOf (intentId : UUID) (vpa : String) (paymentMethod : PaymentMethod)
  /-- `FOR UPDATE` -/
  | selectTransactionByPsp (pspReference : String)
  /-- `INSERT … ON CONFLICT (identifier, currency) DO NOTHING`, of a row with balance 0 and the
  default currency -/
  | insertAccount (id : UUID) (accountType : AccountType) (identifier : String)
      (merchantId : Option UUID)
  /-- `FOR UPDATE` -/
  | selectAccount (identifier : String) (accountType : AccountType)
  | selectMerchantByPsp (pspReference : String)
  | stage (w : Write)
  | commit
  | rollback
  | refreshIntent (id : UUID)
  | refreshTransaction (id : UUID)
  | refreshDelivery (id : UUID)
  /-- `deliver_merchant_webhook.delay(…)`, once the broker takes it -/
  | delay (deliveryId : UUID) (url payload secret : String)

/-- What a statement returns. -/
@[reducible]
def Stmt.Resp : Stmt → Type
  | .selectMerchantById _ => List Merchant
  | .selectMerchantByKeyHash _ => List Merchant
  | .selectMerchantByPsp _ => List Merchant
  | .selectIntentByKey _ _ => List PaymentIntent
  | .selectIntentByPublicId _ _ => List PaymentIntent
  | .selectIntentForUpdate _ _ => List PaymentIntent
  | .selectIntentById _ => List PaymentIntent
  | .selectTransactionsOf _ _ _ => List Transaction
  | .selectTransactionByPsp _ => List Transaction
  | .selectAccount _ _ => List LedgerAccount
  | .refreshIntent _ => PaymentIntent
  | .refreshTransaction _ => Transaction
  | .refreshDelivery _ => WebhookDelivery
  | _ => Unit

/-- The statements as a signature. -/
abbrev sql : Sig := ⟨Stmt, Stmt.Resp, Exc⟩

/-- A program of a service or an endpoint. -/
abbrev Sql := Prog sql

/-- `await db.execute(…)`, and the other calls on the session. -/
def execute (s : Stmt) : Sql s.Resp := @Prog.exec sql s

/-- The row an `insertAccount` offers. -/
def newAccount (id : UUID) (accountType : AccountType) (identifier : String)
    (merchantId : Option UUID) : LedgerAccount :=
  ⟨id, merchantId, accountType, identifier, defaultCurrency, ⟨0, by decide⟩⟩

/-- `INSERT INTO ledger_accounts … ON CONFLICT (identifier, currency) DO NOTHING`. -/
def insertAccount (row : LedgerAccount) (d : Db) (l : Session) : Except Exc Unit × Db × Session :=
  if row.identifier.length ≤ 128 then
    if ∃ a ∈ d.accounts ++ l.inserted, a.key = row.key then (.ok (), d, l)
    else if (∀ a ∈ d.accounts ++ l.inserted, a.id ≠ row.id) ∧
        ∀ m ∈ row.merchantId, ∃ x ∈ d.merchants, x.id = m then
      (.ok (), d, { l with inserted := l.inserted ++ [row] })
    else (.error .integrityError, d, l)
  else (.error .dataError, d, l)

/-- What a statement does. -/
def exec : (s : Stmt) → Db → Session → Except Exc s.Resp × Db × Session
  | .selectMerchantById id, d, l => (.ok (d.merchants.filter (·.id = id)), d, l)
  | .selectMerchantByKeyHash hash, d, l => (.ok (d.merchants.filter (·.apiKeyHash = hash)), d, l)
  | .selectinPaymentIntents merchantId, d, l =>
    (.ok (), d, { l with loaded := l.load (d.intents.filter (·.merchantId = merchantId)) })
  | .selectIntentByKey key merchantId, d, l =>
    let rows := d.intents.filter fun i => i.idempotencyKey = key ∧ i.merchantId = merchantId
    (.ok (l.objects rows), d, { l with loaded := l.load rows })
  | .selectIntentByPublicId publicId merchantId, d, l =>
    let rows := d.intents.filter fun i => i.publicId = publicId ∧ i.merchantId = merchantId
    (.ok (l.objects rows), d, { l with loaded := l.load rows })
  | .selectIntentForUpdate publicId merchantId, d, l =>
    let rows := d.intents.filter fun i => i.publicId = publicId ∧ i.merchantId = merchantId
    (.ok (l.objects rows), d,
      { l with loaded := l.load rows, locks := l.locks ++ rows.map fun i => .intent i.id })
  | .selectIntentById id, d, l =>
    let rows := d.intents.filter (·.id = id)
    (.ok (l.objects rows), d,
      { l with loaded := l.load rows, locks := l.locks ++ rows.map fun i => .intent i.id })
  | .selectTransactionsOf intentId vpa method, d, l =>
    (.ok (d.transactions.filter fun t =>
      t.intentId = intentId ∧ t.vpa = vpa ∧ t.paymentMethod = method), d, l)
  | .selectTransactionByPsp psp, d, l =>
    let rows := d.transactions.filter (·.pspReference = some psp)
    (.ok rows, d, { l with locks := l.locks ++ rows.map fun t => .transaction t.id })
  | .insertAccount id accountType identifier merchantId, d, l =>
    insertAccount (newAccount id accountType identifier merchantId) d l
  | .selectAccount identifier accountType, d, l =>
    let rows := (d.accounts ++ l.inserted).filter fun a =>
      a.identifier = identifier ∧ a.accountType = accountType
    (.ok rows, d, { l with locks := l.locks ++ rows.map fun a => .account a.id })
  | .selectMerchantByPsp psp, d, l =>
    (.ok (d.merchants.flatMap fun m => (d.intents.filter (·.merchantId = m.id)).flatMap fun i =>
        (d.transactions.filter fun t =>
          t.intentId = i.id ∧ t.pspReference = some psp).map fun _ => m), d, l)
  | .stage w, d, l => (.ok (), d, { l with loaded := l.assign w, pending := l.pending ++ [w] })
  | .commit, d, l =>
    match l.flush d with
    | .ok d' => (.ok (), d', { l with locks := [], inserted := [], pending := [] })
    | .error e => (.error e, d, .closed)
  | .rollback, d, _ => (.ok (), d, .closed)
  | .refreshIntent id, d, l =>
    match d.intents.find? (·.id = id) with
    | some i => (.ok i, d, { l with loaded := l.reload i })
    | none => (.error .invalidRequestError, d, l)
  | .refreshTransaction id, d, l =>
    match d.transactions.find? (·.id = id) with
    | some t => (.ok t, d, l)
    | none => (.error .invalidRequestError, d, l)
  | .refreshDelivery id, d, l =>
    match d.deliveries.find? (·.id = id) with
    | some w => (.ok w, d, l)
    | none => (.error .invalidRequestError, d, l)
  | .delay _ _ _ _, d, l => (.ok (), d, l)

/-- `waits s d l m`: the session `m` makes `s`, issued in `l`, wait. -/
def waits : Stmt → Db → Session → Session → Prop
  | .selectIntentForUpdate publicId merchantId, d, _, m =>
    ∃ i ∈ d.intents, (i.publicId = publicId ∧ i.merchantId = merchantId) ∧ .intent i.id ∈ m.locks
  | .selectIntentById id, d, _, m => ∃ i ∈ d.intents, i.id = id ∧ .intent i.id ∈ m.locks
  | .selectTransactionByPsp psp, d, _, m =>
    ∃ t ∈ d.transactions, t.pspReference = some psp ∧ .transaction t.id ∈ m.locks
  | .insertAccount id _ identifier _, _, _, m =>
    ∃ a ∈ m.inserted, a.key = (identifier, defaultCurrency) ∨ a.id = id
  | .selectAccount identifier accountType, d, _, m =>
    ∃ a ∈ d.accounts, (a.identifier = identifier ∧ a.accountType = accountType) ∧
      .account a.id ∈ m.locks
  | .commit, _, l, m => ∃ w ∈ l.pending, ∃ r ∈ w.rows, r ∈ m.locks
  | _, _, _, _ => False

instance decidableWaits : (s : Stmt) → (d : Db) → (l m : Session) → Decidable (waits s d l m)
  | .selectIntentForUpdate publicId merchantId, d, _, m =>
    inferInstanceAs (Decidable (∃ i ∈ d.intents,
      (i.publicId = publicId ∧ i.merchantId = merchantId) ∧ .intent i.id ∈ m.locks))
  | .selectIntentById id, d, _, m =>
    inferInstanceAs (Decidable (∃ i ∈ d.intents, i.id = id ∧ .intent i.id ∈ m.locks))
  | .selectTransactionByPsp psp, d, _, m =>
    inferInstanceAs (Decidable (∃ t ∈ d.transactions, t.pspReference = some psp ∧
      .transaction t.id ∈ m.locks))
  | .insertAccount id _ identifier _, _, _, m =>
    inferInstanceAs (Decidable (∃ a ∈ m.inserted,
      a.key = (identifier, defaultCurrency) ∨ a.id = id))
  | .selectAccount identifier accountType, d, _, m =>
    inferInstanceAs (Decidable (∃ a ∈ d.accounts, (a.identifier = identifier ∧
      a.accountType = accountType) ∧ .account a.id ∈ m.locks))
  | .commit, _, l, m => inferInstanceAs (Decidable (∃ w ∈ l.pending, ∃ r ∈ w.rows, r ∈ m.locks))
  | .selectMerchantById _, _, _, _ => isFalse id
  | .selectMerchantByKeyHash _, _, _, _ => isFalse id
  | .selectinPaymentIntents _, _, _, _ => isFalse id
  | .selectIntentByKey _ _, _, _, _ => isFalse id
  | .selectIntentByPublicId _ _, _, _, _ => isFalse id
  | .selectTransactionsOf _ _ _, _, _, _ => isFalse id
  | .selectMerchantByPsp _, _, _, _ => isFalse id
  | .stage _, _, _, _ => isFalse id
  | .rollback, _, _, _ => isFalse id
  | .refreshIntent _, _, _, _ => isFalse id
  | .refreshTransaction _, _, _, _ => isFalse id
  | .refreshDelivery _, _, _, _ => isFalse id
  | .delay _ _ _ _, _, _, _ => isFalse id

/-- The database as a machine for these statements. -/
def database : Machine sql Db Session where
  exec := exec
  waits := waits
  closed := .closed
  crash := .crash

instance (s : Stmt) (d : Db) (l m : Session) : Decidable (database.waits s d l m) :=
  decidableWaits s d l m

/-! ### Results of a query -/

/-- `result.scalar_one_or_none()` -/
def scalarOneOrNone {α : Type} : List α → Sql (Option α)
  | [] => .ret none
  | [a] => .ret (some a)
  | _ => .raise .multipleResultsFound

/-- `result.scalar_one()` -/
def scalarOne {α : Type} : List α → Sql α
  | [] => .raise .noResultFound
  | [a] => .ret a
  | _ => .raise .multipleResultsFound

end PaymentGateway.Db.Statements
