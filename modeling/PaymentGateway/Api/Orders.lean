import PaymentGateway.Api.Deps
import PaymentGateway.Services.Order

/-! # The orders router -/

namespace PaymentGateway.Api.Orders

open PaymentGateway.Models PaymentGateway.Schemas PaymentGateway.Lib.Program
open PaymentGateway.Db.Statements PaymentGateway.Services.Order PaymentGateway.Api.Deps

/-- The exceptions of `create_order` that the endpoint answers; the others are a `500`. -/
def orderException : Exc → Exc
  | .orderIdempotencyReuse => .httpFrom 409 .orderIdempotencyReuse
  | exc => exc

/-- `POST /orders`: authentication and creation, in one session. -/
def createOrderEndpoint (security : Security) (credentials : Credentials)
    (payload : CreateOrderRequest) (ids : OrderIds) : Sql CreateOrderResponse := do
  let merchant ← getCurrentMerchant security credentials
  tryCatch (createOrder merchant payload ids) fun exc => throw (orderException exc)

/-- `GET /orders/{order_id}`, for the merchant of the request. -/
def getOrder (orderId : String) (merchant : Merchant) : Sql CreateOrderResponse := do
  let rows ← execute (.selectIntentByPublicId orderId merchant.id)
  let intent ← scalarOneOrNone rows
  match intent with
  | none => throw (.httpException 404 "Order not found")
  | some intent =>
    return ⟨intent.publicId, intent.idempotencyKey, intent.amount, intent.currency, intent.status⟩

end PaymentGateway.Api.Orders
