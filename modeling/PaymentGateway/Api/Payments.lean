import PaymentGateway.Api.Deps
import PaymentGateway.Services.Payment

/-! # The payments router -/

namespace PaymentGateway.Api.Payments

open PaymentGateway.Schemas PaymentGateway.Lib.Program PaymentGateway.Db.Statements
open PaymentGateway.Services.Payment PaymentGateway.Api.Deps

/-- The exceptions of `initiate_upi` that the endpoint answers; the others are a `500`. -/
def paymentException : Exc → Exc
  | .orderNotFound orderId => .httpFrom 404 (.orderNotFound orderId)
  | .alreadyFinalised orderId status => .httpFrom 409 (.alreadyFinalised orderId status)
  | exc => exc

/-- `POST /payments/upi/initiate`: authentication and initiation, in one session. -/
def initiateUpiPayment (security : Security) (credentials : Credentials)
    (payload : UpiInitiateRequest) (ids : InitiateIds) : Sql UpiInitiateResponse := do
  let merchant ← getCurrentMerchant security credentials
  tryCatch (initiateUpi merchant payload ids) fun exc => throw (paymentException exc)

end PaymentGateway.Api.Payments
