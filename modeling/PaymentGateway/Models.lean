import PaymentGateway.Core.Ids
import PaymentGateway.Lib.DecimalArith

/-! # The tables

The rows of the database as the ORM models and the initial migration declare them, less the
timestamps and the columns no service reads. Money columns are `NUMERIC(18, 4)`. `Db` is the
committed state: one list of rows for each table, in order of insertion. -/

namespace PaymentGateway.Models

open PaymentGateway.Core.Ids PaymentGateway.Lib.DecimalArith

/-- A money column. -/
abbrev Money := Numeric 18 4

/-! ### Merchants -/

structure Merchant where
  id : UUID
  name : String
  apiKeyHash : String
  secretHash : String
  isActive : Bool
  webhookUrl : Option String
  deriving DecidableEq

/-! ### Intents and transactions -/

/-- Lifecycle of a payment intent. -/
inductive PaymentStatus
  | created
  | processing
  | success
  | failed
  deriving DecidableEq

/-- Fine-grained state of a single payment attempt. -/
inductive TransactionState
  | initiated
  | pending
  | success
  | failed
  deriving DecidableEq

inductive PaymentMethod
  | upi
  | card
  | netbanking
  deriving DecidableEq

def PaymentStatus.value : PaymentStatus → String
  | .created => "CREATED"
  | .processing => "PROCESSING"
  | .success => "SUCCESS"
  | .failed => "FAILED"

def TransactionState.value : TransactionState → String
  | .initiated => "INITIATED"
  | .pending => "PENDING"
  | .success => "SUCCESS"
  | .failed => "FAILED"

structure PaymentIntent where
  id : UUID
  publicId : String
  merchantId : UUID
  amount : Money
  currency : String
  status : PaymentStatus
  idempotencyKey : String
  description : Option String
  deriving DecidableEq

structure Transaction where
  id : UUID
  publicId : String
  intentId : UUID
  vpa : String
  paymentMethod : PaymentMethod
  state : TransactionState
  pspReference : Option String
  deriving DecidableEq

/-! ### The ledger -/

inductive AccountType
  | virtual
  | merchantSettlement
  | platformFee
  deriving DecidableEq

inductive EntryType
  | debit
  | credit
  deriving DecidableEq

structure LedgerAccount where
  id : UUID
  merchantId : Option UUID
  accountType : AccountType
  identifier : String
  currency : String
  balance : Money
  deriving DecidableEq

/-- The columns of `uq_acct_currency`. -/
def LedgerAccount.key (a : LedgerAccount) : String × String := (a.identifier, a.currency)

structure LedgerEntry where
  id : UUID
  accountId : UUID
  transactionId : UUID
  amount : Money
  entryType : EntryType
  currency : String
  deriving DecidableEq

/-! ### The outbox -/

inductive DeliveryState
  | pending
  | delivered
  | failed
  deriving DecidableEq

structure WebhookDelivery where
  id : UUID
  transactionId : UUID
  merchantId : UUID
  url : String
  payload : String
  signature : String
  state : DeliveryState
  attempts : ℕ
  deriving DecidableEq

/-! ### The database -/

/-- The committed rows. -/
structure Db where
  merchants : List Merchant
  intents : List PaymentIntent
  transactions : List Transaction
  accounts : List LedgerAccount
  entries : List LedgerEntry
  deliveries : List WebhookDelivery
  deriving DecidableEq

/-- A database with merchants only. -/
def Db.empty (merchants : List Merchant) : Db := ⟨merchants, [], [], [], [], []⟩

/-- The column default of every currency column. -/
def defaultCurrency : String := "INR"

/-- The identifier of a merchant's settlement account, `merchant:<id>`. -/
def merchantIdentifier (merchantId : UUID) : String := "merchant:" ++ merchantId.str

theorem at_notMem_merchantIdentifier (m : UUID) : '@' ∉ (merchantIdentifier m).toList := by
  unfold merchantIdentifier
  rw [String.toList_append, List.mem_append]
  rintro (h | h)
  · exact absurd h (by decide)
  · exact m.at_notMem_str h

/-- It fits its column. -/
theorem length_merchantIdentifier (m : UUID) : (merchantIdentifier m).length ≤ 128 := by
  unfold merchantIdentifier
  rw [String.length_append, m.length_str]
  decide

theorem merchantIdentifier_inj {m n : UUID} (h : merchantIdentifier m = merchantIdentifier n) :
    m = n := by
  have h := congrArg String.toList h
  unfold merchantIdentifier at h
  rw [String.toList_append, String.toList_append] at h
  exact UUID.str_inj (String.toList_inj.mp (List.append_cancel_left h))

end PaymentGateway.Models
