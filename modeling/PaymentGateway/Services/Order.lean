import PaymentGateway.Db.Statements
import PaymentGateway.Schemas

/-! # Order creation -/

namespace PaymentGateway.Services.Order

open PaymentGateway.Core.Ids PaymentGateway.Models PaymentGateway.Schemas
open PaymentGateway.Lib.Program PaymentGateway.Db.Statements

/-- What `create_order` draws at random. -/
structure OrderIds where
  intentId : UUID
  token : String
  deriving DecidableEq

/-- The row `create_order` adds. -/
def newIntent (merchant : Merchant) (payload : CreateOrderRequest) (ids : OrderIds) : Write :=
  .addIntent ids.intentId (newId "ord" ids.token) merchant.id payload.amount payload.currency
    payload.idempotencyKey payload.description .created

/-- `await db.commit()`, where an `IntegrityError` means that the key is taken. -/
def commitIntent : Sql Unit :=
  tryCatch (execute .commit) fun exc =>
    match exc with
    | .integrityError => do
      execute .rollback
      throw .orderIdempotencyReuse
    | exc => throw exc

def createOrder (merchant : Merchant) (payload : CreateOrderRequest) (ids : OrderIds) :
    Sql CreateOrderResponse := do
  let rows ← execute (.selectIntentByKey payload.idempotencyKey merchant.id)
  let existing ← scalarOneOrNone rows
  match existing with
  | some existing =>
    return ⟨existing.publicId, existing.idempotencyKey, existing.amount, existing.currency,
      existing.status⟩
  | none =>
    execute (.stage (newIntent merchant payload ids))
    commitIntent
    let intent ← execute (.refreshIntent ids.intentId)
    return ⟨intent.publicId, intent.idempotencyKey, intent.amount, intent.currency, intent.status⟩

end PaymentGateway.Services.Order
