import PaymentGateway.Api.Verification
import PaymentGateway.Core.Loads
import PaymentGateway.Lib.Floats

/-! # The body of a callback

The rest of step 1 of `bank_callback`: the body is read as a document, and three of its members are
taken. The reference is not converted: any value that is true in a condition passes. -/

namespace PaymentGateway.Api.Callbacks

open PaymentGateway.Lib.Numerals PaymentGateway.Lib.DecimalText PaymentGateway.Lib.DecimalArith
open PaymentGateway.Lib.Floats PaymentGateway.Lib.JsonLoads PaymentGateway.Core.Loads
open PaymentGateway.Schemas PaymentGateway.Db.Statements PaymentGateway.Api.Verification

/-- What `process_bank_callback` is called with. -/
structure Payload where
  event : BankCallbackEvent
  pspReference : Json
  amount : Decimal

/-- `bool(value)` -/
def truthy : Json → Bool
  | .null => false
  | .bool b => b
  | .int n => n ≠ 0
  | .float n => (parseFloat n).truthy
  | .infinity _ => true
  | .nan => true
  | .str t => t ≠ []
  | .arr items => !items.isEmpty
  | .obj members => !members.isEmpty

/-- `str(n)`, of at most 4300 digits. -/
def strInt (n : ℤ) : Except Exc Text :=
  if numDigits n.natAbs ≤ maxStrDigits then .ok (intNumeral n).text else .error .valueError

/-- `Decimal(s)` -/
def decimal (t : Text) : Except Exc Decimal :=
  match parseDecimal t with
  | some d => .ok d
  | none => .error .invalidOperation

/-- `Decimal(str(value))`. The text of a list or of a dictionary begins with a bracket. -/
def decimalOf : Json → Except Exc Decimal
  | .null => decimal (text "None")
  | .bool b => decimal (text (if b then "True" else "False"))
  | .int n => (strInt n).bind decimal
  | .float n => decimal (Lib.Floats.repr (parseFloat n))
  | .infinity negative => decimal (Lib.Floats.repr (.infinity negative))
  | .nan => decimal (Lib.Floats.repr .nan)
  | .str t => decimal t
  | .arr _ => .error .invalidOperation
  | .obj _ => .error .invalidOperation

/-- The body as a document. Of what `json.loads` raises, one exception is answered. -/
def eventData (depth : ℕ) (body : List UInt8) : Except Exc Json :=
  match loadsBody depth body with
  | .error .jsonDecodeError => .error (.httpException 400 "Invalid JSON body")
  | result => result

/-- The event, if it is one of the two. What cannot be hashed is in no set. -/
def knownEvent : Json → Except Exc (Option BankCallbackEvent)
  | .str t => .ok ([.paymentSuccess, .paymentFailed].find? fun event => text event.value = t)
  | .arr _ => .error .typeError
  | .obj _ => .error .typeError
  | _ => .ok none

/-- The check of the members, and the conversion of the amount. -/
def checkMembers (event pspReference amount : Json) : Except Exc Payload := do
  match (← knownEvent event).filter fun _ => truthy pspReference with
  | none => .error (.httpException 400 "Malformed event payload")
  | some event => return ⟨event, pspReference, ← decimalOf amount⟩

def readPayload (depth : ℕ) (body : List UInt8) : Except Exc Payload := do
  let eventData ← eventData depth body
  let event ← getMember eventData "event" .null
  let pspReference ← getMember eventData "psp_reference" .null
  let amount ← getMember eventData "amount" .null
  checkMembers event pspReference amount

/-- Step 1, up to the call of `process_bank_callback`. -/
def receivePayload (signPayload : List UInt8 → String → String) (settings : Settings) (depth : ℕ)
    (now : ℚ) (request : SignedRequest) : Except Exc Payload := do
  verify signPayload settings now request
  readPayload depth request.body

/-- The reference as a parameter of a query. The driver refuses what is no text, or none that can be
encoded. -/
def parameter : Json → Except Exc String
  | .str t =>
    if ∀ n ∈ t, n.isValidChar then .ok (String.ofList (t.map Char.ofNat)) else .error .dataError
  | _ => .error .dataError

/-- Step 1, and the reference as `process_bank_callback` first uses it. -/
def receiveCallback (signPayload : List UInt8 → String → String) (settings : Settings) (depth : ℕ)
    (now : ℚ) (request : SignedRequest) : Except Exc Webhooks.Callback := do
  let payload ← receivePayload signPayload settings depth now request
  let pspReference ← parameter payload.pspReference
  return ⟨payload.event, pspReference, payload.amount⟩

end PaymentGateway.Api.Callbacks
