import PaymentGateway.Schemas
import PaymentGateway.Services.StateMachine

/-! # UPI payment initiation -/

namespace PaymentGateway.Services.Payment

open PaymentGateway.Core.Ids PaymentGateway.Models PaymentGateway.Schemas
open PaymentGateway.Lib.Program PaymentGateway.Db.Statements PaymentGateway.Services.StateMachine

/-- What `initiate_upi` draws at random. -/
structure InitiateIds where
  transactionId : UUID
  token : String
  pspToken : String
  deriving DecidableEq

/-- The row `initiate_upi` adds. -/
def newTransaction (intent : PaymentIntent) (payload : UpiInitiateRequest) (ids : InitiateIds) :
    Transaction :=
  { id := ids.transactionId
    publicId := newId "txn" ids.token
    intentId := intent.id
    vpa := payload.vpa
    paymentMethod := .upi
    state := .pending
    pspReference := some (newId "psp" ids.pspToken) }

/-- The writes of `initiate_upi`, its commit and its answer. -/
def startPayment (intent : PaymentIntent) (payload : UpiInitiateRequest) (ids : InitiateIds) :
    Sql UpiInitiateResponse := do
  Prog.ofExcept (assertIntentTransition intent.status .processing)
  execute (.stage (.setIntentStatus intent.id .processing))
  Prog.ofExcept (assertTransactionTransition .initiated .pending)
  execute (.stage (.addTransaction (newTransaction intent payload ids)))
  execute .commit
  let intent ← execute (.refreshIntent intent.id)
  let transaction ← execute (.refreshTransaction ids.transactionId)
  return ⟨transaction.publicId, intent.publicId, transaction.state, transaction.pspReference⟩

def initiateUpi (merchant : Merchant) (payload : UpiInitiateRequest) (ids : InitiateIds) :
    Sql UpiInitiateResponse := do
  let rows ← execute (.selectIntentForUpdate payload.orderId merchant.id)
  let intent ← scalarOneOrNone rows
  match intent with
  | none => throw (.orderNotFound payload.orderId)
  | some intent =>
    if intent.status ∈ [PaymentStatus.success, .failed] then
      throw (.alreadyFinalised payload.orderId intent.status)
    else
      let rows ← execute (.selectTransactionsOf intent.id payload.vpa .upi)
      let duplicate ← scalarOneOrNone rows
      match duplicate with
      | some duplicate =>
        return ⟨duplicate.publicId, intent.publicId, .pending, duplicate.pspReference⟩
      | none => startPayment intent payload ids

end PaymentGateway.Services.Payment
