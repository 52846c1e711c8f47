import PaymentGateway.Schemas
import PaymentGateway.Services.StateMachine

/-! # Bank callbacks

`process_bank_callback`: it locks the transaction and its intent, advances both state machines, and
on success posts one debit and one credit, all in one database transaction. -/

namespace PaymentGateway.Services.Webhook

open PaymentGateway.Core.Ids PaymentGateway.Models PaymentGateway.Schemas
open PaymentGateway.Lib.Program PaymentGateway.Lib.DecimalArith
open PaymentGateway.Db.Statements PaymentGateway.Services.StateMachine

/-- What `process_bank_callback` draws at random. -/
structure CallbackIds where
  payerAccountId : UUID
  merchantAccountId : UUID
  debitEntryId : UUID
  creditEntryId : UUID
  deriving DecidableEq

/-- The dictionary that `process_bank_callback` returns; a replay has no `order_id`. -/
structure CallbackResult where
  replay : Bool
  transactionDbId : UUID
  transactionId : String
  orderId : Option String
  status : String
  deriving DecidableEq

/-- `_ensure_account_locked` -/
def ensureAccountLocked (accountType : AccountType) (identifier : String)
    (merchantId : Option UUID) (newId : UUID) : Sql LedgerAccount := do
  execute (.insertAccount newId accountType identifier
    (if accountType = .merchantSettlement then merchantId else none))
  let row ← execute (.selectAccount identifier accountType)
  scalarOne row

def targetTxn (event : BankCallbackEvent) : TransactionState :=
  if event = .paymentSuccess then .success else .failed

def targetIntent (event : BankCallbackEvent) : PaymentStatus :=
  if event = .paymentSuccess then .success else .failed

/-- The two transition guards, in the order of the source. -/
def assertTransitions (txn : Transaction) (intent : PaymentIntent) (event : BankCallbackEvent) :
    Except Exc Unit := do
  assertTransactionTransition txn.state (targetTxn event)
  assertIntentTransition intent.status (targetIntent event)

/-- `intent.amount != amount` -/
def amountDiffers (intent : PaymentIntent) (amount : Decimal) : Except Exc Bool :=
  (Decimal.ne intent.amount.toDecimal amount).mapError fun _ => .invalidOperation

/-- `Decimal(account.balance) + amount`, in the default context of 28 digits. -/
def addBalance (account : LedgerAccount) (amount : Decimal) : Except Exc Decimal :=
  (Decimal.add 28 account.balance.toDecimal amount).mapError fun _ => .invalidOperation

/-- The balances and entries of a success. -/
def postLedger (txn : Transaction) (intent : PaymentIntent) (amount : Decimal) (ids : CallbackIds) :
    Sql Unit := do
  let payerAccount ← ensureAccountLocked .virtual txn.vpa none ids.payerAccountId
  let merchantAccount ← ensureAccountLocked .merchantSettlement
    (merchantIdentifier intent.merchantId) (some intent.merchantId) ids.merchantAccountId
  let payerBalance ← Prog.ofExcept (addBalance payerAccount amount)
  execute (.stage (.setBalance payerAccount.id payerBalance))
  let merchantBalance ← Prog.ofExcept (addBalance merchantAccount amount)
  execute (.stage (.setBalance merchantAccount.id merchantBalance))
  execute (.stage (.addEntry ids.debitEntryId payerAccount.id txn.id amount .debit
    defaultCurrency))
  execute (.stage (.addEntry ids.creditEntryId merchantAccount.id txn.id amount .credit
    defaultCurrency))

/-- The answer to a callback that was applied before. -/
def replayed (txn : Transaction) : Sql CallbackResult := do
  execute .commit
  return { replay := true, transactionDbId := txn.id, transactionId := txn.publicId,
           orderId := none, status := txn.state.value }

/-- The state change, the ledger and the commit of a callback that is not a replay. -/
def settle (txn : Transaction) (intent : PaymentIntent) (event : BankCallbackEvent)
    (amount : Decimal) (ids : CallbackIds) : Sql CallbackResult := do
  match assertTransitions txn intent event with
  | .error exc =>
    execute .rollback
    throw exc
  | .ok () =>
    execute (.stage (.setTransactionState txn.id (targetTxn event)))
    execute (.stage (.setIntentStatus intent.id (targetIntent event)))
    (if event = .paymentSuccess then postLedger txn intent amount ids else pure ())
    execute .commit
    return { replay := false, transactionDbId := txn.id, transactionId := txn.publicId,
             orderId := some intent.publicId, status := (targetIntent event).value }

def processBankCallback (event : BankCallbackEvent) (pspReference : String) (amount : Decimal)
    (ids : CallbackIds) : Sql CallbackResult := do
  let rows ← execute (.selectTransactionByPsp pspReference)
  let txn ← scalarOneOrNone rows
  match txn with
  | none => throw (.transactionNotFound pspReference)
  | some txn =>
    let rows ← execute (.selectIntentById txn.intentId)
    let intent ← scalarOne rows
    let differs ← Prog.ofExcept (amountDiffers intent amount)
    if differs then throw (.amountMismatch amount intent.amount.toDecimal)
    else if txn.state = .success ∧ event = .paymentSuccess then replayed txn
    else if txn.state = .failed ∧ event = .paymentFailed then replayed txn
    else settle txn intent event amount ids

end PaymentGateway.Services.Webhook
