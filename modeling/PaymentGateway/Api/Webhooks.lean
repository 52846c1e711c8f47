import PaymentGateway.Lib.Json
import PaymentGateway.Lib.Utf8
import PaymentGateway.Services.Webhook

/-! # The webhooks router

`bank_callback` applies a callback and, unless it was applied before, writes a delivery for the
merchant and hands it to the broker. The payment and the delivery are committed one after the other,
in two database transactions. -/

namespace PaymentGateway.Api.Webhooks

open PaymentGateway.Core.Ids PaymentGateway.Models PaymentGateway.Schemas
open PaymentGateway.Lib.Program PaymentGateway.Lib.DecimalArith PaymentGateway.Lib.Json
open PaymentGateway.Db.Statements PaymentGateway.Services.Webhook

/-- What step 1 reads from a body that it accepts; the amount is `Decimal(str(amount))`. -/
structure Callback where
  event : BankCallbackEvent
  pspReference : String
  amount : Decimal
  deriving DecidableEq

/-- A request, with what it draws at random. -/
structure BankRequest where
  /-- The outcome of step 1: the checks of signature, timestamp and body. -/
  verified : Except Exc Callback
  ids : CallbackIds
  deliveryId : UUID
  /-- How the broker takes the task. -/
  broker : Except Exc Unit

/-- The key of notifications, `sign_payload`, and the logger. -/
structure Signing where
  merchantWebhookSecret : String
  signPayload : List UInt8 → String → String
  /-- How `logger.warning("bank_callback_rejected", …, event=event)` ends. The methods of a logger
  of structlog have a first parameter `event` of their own. -/
  rejectionLogged : Except Exc Unit

/-- A rejection is logged, and then answered. -/
def rejection (signing : Signing) (exc : Exc) : Exc :=
  match signing.rejectionLogged with
  | .error raised => raised
  | .ok () => .httpFrom 422 exc

/-- The exceptions of `process_bank_callback` that the endpoint answers; the others are a `500`. -/
def webhookException (signing : Signing) : Exc → Exc
  | .transactionNotFound pspReference => rejection signing (.transactionNotFound pspReference)
  | .amountMismatch amount intentAmount => rejection signing (.amountMismatch amount intentAmount)
  | exc => exc

/-- The text of a notification. -/
def notification (event : BankCallbackEvent) (result : CallbackResult) : String :=
  dumps .default (.obj [("event", .str event.value),
    ("data", .obj [("transaction_id", .str result.transactionId),
      ("order_id", (result.orderId.map Value.str).getD .null), ("status", .str result.status)])])

/-- The row of a notification. Its text is the decoded encoding of `notification`, that is, itself.
-/
def newDelivery (signing : Signing) (request : BankRequest) (event : BankCallbackEvent)
    (merchant : Merchant) (url : String) (result : CallbackResult) : WebhookDelivery where
  id := request.deliveryId
  transactionId := result.transactionDbId
  merchantId := merchant.id
  url := url
  payload := notification event result
  signature := signing.signPayload (Lib.Utf8.encode (notification event result))
    signing.merchantWebhookSecret
  state := .pending
  attempts := 0

/-- `WebhookAck(accepted=True)` -/
def accepted : WebhookAck := ⟨true, none⟩

/-- A delivery that is committed is handed to the broker. -/
def dispatch (signing : Signing) (request : BankRequest) : Sql WebhookAck := do
  let delivery ← execute (.refreshDelivery request.deliveryId)
  execute (.delay delivery.id delivery.url delivery.payload signing.merchantWebhookSecret)
  Prog.ofExcept request.broker
  return accepted

/-- The outbox row and its dispatch. -/
def enqueue (signing : Signing) (request : BankRequest) (delivery : WebhookDelivery) :
    Sql WebhookAck := do
  execute (.stage (.addDelivery delivery))
  execute .commit
  dispatch signing request

/-- A merchant with a url is notified, unless the callback was applied before. -/
def inform (signing : Signing) (request : BankRequest) (callback : Callback)
    (result : CallbackResult) (merchant : Option Merchant) : Sql WebhookAck :=
  match merchant with
  | none => return accepted
  | some merchant =>
    match merchant.webhookUrl with
    | none => return accepted
    | some url =>
      if url ≠ "" ∧ result.replay = false then
        enqueue signing request (newDelivery signing request callback.event merchant url result)
      else return accepted

/-- Step 3. -/
def notify (signing : Signing) (request : BankRequest) (callback : Callback)
    (result : CallbackResult) : Sql WebhookAck := do
  let rows ← execute (.selectMerchantByPsp callback.pspReference)
  let merchant ← scalarOneOrNone rows
  inform signing request callback result merchant

/-- Steps 1 to 3, in the session of the request. -/
def bankCallback (signing : Signing) (request : BankRequest) : Sql WebhookAck := do
  let callback ← Prog.ofExcept request.verified
  let result ← tryCatch
    (processBankCallback callback.event callback.pspReference callback.amount request.ids)
    fun exc => throw (webhookException signing exc)
  notify signing request callback result

end PaymentGateway.Api.Webhooks
