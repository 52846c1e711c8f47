import PaymentGateway.Services.Webhook

/-! # Double-entry ledger

`post_double_entry` posts a debit and a credit and updates both balances, in the transaction of its
caller. Nothing of the gateway calls it: `process_bank_callback` posts its entries itself. -/

namespace PaymentGateway.Services.Ledger

open PaymentGateway.Core.Ids PaymentGateway.Models
open PaymentGateway.Lib.Program PaymentGateway.Lib.DecimalArith
open PaymentGateway.Db.Statements PaymentGateway.Services.Webhook

/-- What `post_double_entry` draws at random. -/
structure PostingIds where
  debitAccountId : UUID
  creditAccountId : UUID
  debitEntryId : UUID
  creditEntryId : UUID

/-- The entries and the accounts that `post_double_entry` returns: the accounts as they were loaded,
each with the balance assigned to it. -/
structure DoubleEntry where
  debitEntry : Write
  creditEntry : Write
  debitAccount : LedgerAccount
  debitBalance : Decimal
  creditAccount : LedgerAccount
  creditBalance : Decimal

/-- The currency of a posting for which none is given. -/
def postingCurrency : String := "INR"

/-- `_get_or_create_account` -/
def getOrCreateAccount (accountType : AccountType) (identifier : String)
    (merchantId : Option UUID) (newId : UUID) : Sql LedgerAccount := do
  execute (.insertAccount newId accountType identifier
    (match accountType with
      | .merchantSettlement => merchantId
      | _ => none))
  let row ← execute (.selectAccount identifier accountType)
  scalarOne row

/-- `amount <= 0` -/
def notAboveZero (amount : Decimal) : Except Exc Bool :=
  (Decimal.le amount (.finite false 0 0)).mapError fun _ => .invalidOperation

def postDoubleEntry (transaction : Transaction) (payerVpa : String) (merchantId : UUID)
    (amount : Decimal) (currency : String) (ids : PostingIds) : Sql DoubleEntry := do
  let refused ← Prog.ofExcept (notAboveZero amount)
  if refused then throw (.ledgerError "Cannot post a zero or negative ledger entry")
  else
    let debitAccount ← getOrCreateAccount .virtual payerVpa none ids.debitAccountId
    let creditAccount ← getOrCreateAccount .merchantSettlement (merchantIdentifier merchantId)
      (some merchantId) ids.creditAccountId
    let debitBalance ← Prog.ofExcept (addBalance debitAccount amount)
    execute (.stage (.setBalance debitAccount.id debitBalance))
    let creditBalance ← Prog.ofExcept (addBalance creditAccount amount)
    execute (.stage (.setBalance creditAccount.id creditBalance))
    let debitEntry :=
      .addEntry ids.debitEntryId debitAccount.id transaction.id amount .debit currency
    let creditEntry :=
      .addEntry ids.creditEntryId creditAccount.id transaction.id amount .credit currency
    execute (.stage debitEntry)
    execute (.stage creditEntry)
    return { debitEntry, creditEntry, debitAccount, debitBalance, creditAccount, creditBalance }

end PaymentGateway.Services.Ledger
