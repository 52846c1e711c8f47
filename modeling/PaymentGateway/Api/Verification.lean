import PaymentGateway.Api.Webhooks
import PaymentGateway.Core.Security

/-! # The checks of a callback

Step 1 of `bank_callback`: the signature over the raw body, and the timestamp, if there is one. The
clock is a rational number, as the float that `time.time()` returns is, and its distance to the
timestamp is exact: where floats round, it is far beyond any tolerance. What is read from the body
after the checks is a parameter. -/

namespace PaymentGateway.Api.Verification

open PaymentGateway.Lib.Numerals PaymentGateway.Db.Statements PaymentGateway.Core.Security
open PaymentGateway.Api.Webhooks

/-- What the checks read of a request. -/
structure SignedRequest where
  body : List UInt8
  /-- `X-Signature` -/
  xSignature : Option String
  /-- `X-Timestamp` -/
  xTimestamp : Option String
  deriving DecidableEq

structure Settings where
  pspWebhookSecret : String
  webhookVerifyToleranceSeconds : ℕ

variable (signPayload : List UInt8 → String → String) (settings : Settings)

def checkSignature (request : SignedRequest) : Except Exc Unit :=
  match request.xSignature.filter (· ≠ "") with
  | none => .error (.httpException 400 "Missing X-Signature")
  | some xSignature => do
    let valid ← verifySignature signPayload request.body settings.pspWebhookSecret xSignature
    if valid then .ok () else .error (.httpException 401 "HMAC signature verification failed")

def checkTimestamp (now : ℚ) (request : SignedRequest) : Except Exc Unit :=
  match request.xTimestamp with
  | none => .ok ()
  | some xTimestamp =>
    match parseInt xTimestamp with
    | none => .error (.httpException 400 "Invalid callback timestamp")
    | some ts =>
      if OverflowsFloat ts then .error .overflowError
      else if settings.webhookVerifyToleranceSeconds < |now - ts| then
        .error (.httpException 401 "Callback timestamp outside tolerance window")
      else .ok ()

/-- The checks, in order. -/
def verify (now : ℚ) (request : SignedRequest) : Except Exc Unit := do
  checkSignature signPayload settings request
  checkTimestamp settings now request

/-- The freshness check of the service; an empty timestamp is none. -/
def checkFreshness (now : ℚ) (timestamp : Option String) : Except Exc Unit :=
  match timestamp.filter (· ≠ "") with
  | none => .ok ()
  | some timestamp =>
    match parseInt timestamp with
    | none => .error .invalidTimestamp
    | some ts =>
      if OverflowsFloat ts then .error .overflowError
      else if settings.webhookVerifyToleranceSeconds < |now - ts| then
        .error (.timestampTooOld |now - ts|)
      else .ok ()

/-- `verify_bank_signature` of the service: the same checks, the other way round. -/
def verifyBankSignature (now : ℚ) (payload : List UInt8) (signature : String)
    (timestamp : Option String) : Except Exc Unit := do
  checkFreshness settings now timestamp
  let valid ← verifySignature signPayload payload settings.pspWebhookSecret signature
  if valid then .ok () else .error .signatureVerificationError

/-- Step 1: the checks, and then what is read from the body. -/
def receive (parse : List UInt8 → Except Exc Callback) (now : ℚ) (request : SignedRequest) :
    Except Exc Callback := do
  verify signPayload settings now request
  parse request.body

end PaymentGateway.Api.Verification
