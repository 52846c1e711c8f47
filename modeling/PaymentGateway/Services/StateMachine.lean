import PaymentGateway.Db.Statements

/-! # The payment state machine

The transitions the services allow, for the status of an intent and for the state of a
transaction. -/

namespace PaymentGateway.Services.StateMachine

open PaymentGateway.Models PaymentGateway.Db.Statements

/-- `PAYMENT_INTENT_TRANSITIONS` -/
def paymentIntentTransitions : PaymentStatus → List PaymentStatus
  | .created => [.processing]
  | .processing => [.success, .failed]
  | .success => []
  | .failed => []

/-- `TRANSACTION_TRANSITIONS` -/
def transactionTransitions : TransactionState → List TransactionState
  | .initiated => [.pending]
  | .pending => [.success, .failed]
  | .success => []
  | .failed => []

def assertIntentTransition (current target : PaymentStatus) : Except Exc Unit :=
  if target ∉ paymentIntentTransitions current then
    .error (.invalidStateTransition
      ("Illegal payment intent transition " ++ current.value ++ " -> " ++ target.value))
  else .ok ()

def assertTransactionTransition (current target : TransactionState) : Except Exc Unit :=
  if target ∉ transactionTransitions current then
    .error (.invalidStateTransition
      ("Illegal transaction transition " ++ current.value ++ " -> " ++ target.value))
  else .ok ()

theorem assertIntentTransition_ok {current target : PaymentStatus} {u : Unit}
    (h : assertIntentTransition current target = .ok u) :
    target ∈ paymentIntentTransitions current := by
  unfold assertIntentTransition at h
  split_ifs at h with hn
  exact hn

theorem assertTransactionTransition_ok {current target : TransactionState} {u : Unit}
    (h : assertTransactionTransition current target = .ok u) :
    target ∈ transactionTransitions current := by
  unfold assertTransactionTransition at h
  split_ifs at h with hn
  exact hn

end PaymentGateway.Services.StateMachine
