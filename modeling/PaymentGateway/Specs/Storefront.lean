import PaymentGateway.Runs.Isolation

/-! # Orders

What the gateway is for, without tables and statuses that could contradict each other: an order is
new, or it is being paid, or it has ended with an event of the bank (`Stage`). There is no ledger, as
what a payer has paid and a merchant is owed follows from the orders (`Shop.balance`).

A database stands for a shop (`shopOf`); `Runs.Refinement` shows that a call does to the database what
it does to the shop, and is answered as the shop answers. -/

namespace PaymentGateway.Specs.Storefront

open PaymentGateway.Core.Ids PaymentGateway.Models PaymentGateway.Schemas
open PaymentGateway.Lib.DecimalArith PaymentGateway.Lib.Tables PaymentGateway.Db.Statements
open PaymentGateway.Services.Order PaymentGateway.Services.Payment PaymentGateway.Services.Webhook
open PaymentGateway.Services.StateMachine PaymentGateway.State.Changes
open PaymentGateway.State.Invariant PaymentGateway.Runs.Serial PaymentGateway.Runs.Isolation
open PaymentGateway.Specs.Callback PaymentGateway.Specs.Books PaymentGateway.Specs.Requests
open PaymentGateway.Outlines.Webhook

/-! ### The shop -/

/-- A payment, as it was begun. -/
structure Payment where
  id : UUID
  publicId : String
  vpa : String
  method : PaymentMethod
  pspReference : Option String
  deriving DecidableEq

inductive Stage
  | created
  | processing (payment : Payment)
  | ended (event : BankCallbackEvent) (payment : Payment)
  deriving DecidableEq

structure Order where
  id : UUID
  publicId : String
  merchantId : UUID
  amount : Money
  currency : String
  idempotencyKey : String
  description : Option String
  stage : Stage
  deriving DecidableEq

/-- The merchants, and the orders in the order of their creation. -/
structure Shop where
  merchants : List UUID
  orders : List Order
  deriving DecidableEq

def Stage.payment? : Stage → Option Payment
  | .created => none
  | .processing payment => some payment
  | .ended _ payment => some payment

def Order.status (o : Order) : PaymentStatus :=
  match o.stage with
  | .created => .created
  | .processing _ => .processing
  | .ended event _ => targetIntent event

/-- The answer that describes an order. -/
def Order.response (o : Order) : CreateOrderResponse :=
  ⟨o.publicId, o.idempotencyKey, o.amount, o.currency, o.status⟩

/-- An order enters another stage. -/
def Shop.advance (id : UUID) (stage : Stage) (s : Shop) : Shop :=
  { s with orders := s.orders.map fun o => if o.id = id then { o with stage } else o }

/-- A merchant asks for an order. The key is taken if any merchant has used it. -/
def Shop.create (merchant : Merchant) (payload : CreateOrderRequest) (ids : OrderIds) (s : Shop) :
    Except Exc CreateOrderResponse × Shop :=
  match s.orders.find? fun o => o.idempotencyKey = payload.idempotencyKey ∧
      o.merchantId = merchant.id with
  | some o => (.ok o.response, s)
  | none =>
    if (newId "ord" ids.token).length ≤ 64 then
      if merchant.id ∈ s.merchants ∧ ∀ o ∈ s.orders, o.idempotencyKey ≠ payload.idempotencyKey then
        let o := ⟨ids.intentId, newId "ord" ids.token, merchant.id, amountOf payload,
          payload.currency, payload.idempotencyKey, payload.description, .created⟩
        (.ok (Order.response o), { s with orders := s.orders ++ [o] })
      else (.error .orderIdempotencyReuse, s)
    else (.error .dataError, s)

/-- The payment that is begun. -/
def newPayment (payload : UpiInitiateRequest) (ids : InitiateIds) : Payment :=
  ⟨ids.transactionId, newId "txn" ids.token, payload.vpa, .upi, some (newId "psp" ids.pspToken)⟩

/-- A merchant asks for the payment of its order. -/
def Shop.initiate (merchant : Merchant) (payload : UpiInitiateRequest) (ids : InitiateIds)
    (s : Shop) : Except Exc UpiInitiateResponse × Shop :=
  match s.orders.find? fun o => o.publicId = payload.orderId ∧ o.merchantId = merchant.id with
  | none => (.error (.orderNotFound payload.orderId), s)
  | some o =>
    match o.stage with
    | .ended event _ => (.error (.alreadyFinalised payload.orderId (targetIntent event)), s)
    | .processing p =>
      if p.vpa = payload.vpa ∧ p.method = .upi then
        (.ok ⟨p.publicId, o.publicId, .pending, p.pspReference⟩, s)
      else (.error (.invalidStateTransition
        "Illegal payment intent transition PROCESSING -> PROCESSING"), s)
    | .created =>
      if (newId "txn" ids.token).length ≤ 64 ∧ (newId "psp" ids.pspToken).length ≤ 128 then
        (.ok ⟨newId "txn" ids.token, o.publicId, .pending, some (newId "psp" ids.pspToken)⟩,
          s.advance o.id (.processing (newPayment payload ids)))
      else (.error .dataError, s)

/-- The bank speaks of this payment. -/
def Stage.Names (psp : String) (stage : Stage) : Prop :=
  ∃ p ∈ stage.payment?, p.pspReference = some psp

instance (psp : String) (stage : Stage) : Decidable (stage.Names psp) :=
  inferInstanceAs (Decidable (∃ p ∈ stage.payment?, _))

/-- Whose an account is. -/
inductive Holder
  | payer (vpa : String)
  | merchant (id : UUID)
  deriving DecidableEq

/-- The order is paid, by the payer or to the merchant. -/
def Stage.Pays (holder : Holder) (merchantId : UUID) : Stage → Prop
  | .ended .paymentSuccess p => holder = .payer p.vpa ∨ holder = .merchant merchantId
  | _ => False

instance (holder : Holder) (merchantId : UUID) : DecidablePred (Stage.Pays holder merchantId)
  | .ended .paymentSuccess _ => inferInstanceAs (Decidable (_ ∨ _))
  | .ended .paymentFailed _ => isFalse id
  | .processing _ => isFalse id
  | .created => isFalse id

/-- What has been paid by the payer, or to the merchant, in units of `10 ^ -4`. -/
def Shop.balance (holder : Holder) (s : Shop) : ℤ :=
  ((s.orders.filter fun o => o.stage.Pays holder o.merchantId).map (·.amount.units)).sum

/-- The two accounts of the payment can hold its amount too. -/
def Shop.HasRoom (p : Payment) (o : Order) (s : Shop) : Prop :=
  s.balance (.payer p.vpa) + o.amount.units < 10 ^ 18 ∧
    s.balance (.merchant o.merchantId) + o.amount.units < 10 ^ 18

instance (p : Payment) (o : Order) (s : Shop) : Decidable (s.HasRoom p o) :=
  inferInstanceAs (Decidable (_ ∧ _))

/-- A payment of the right amount ends, or has ended. -/
def Shop.conclude (event : BankCallbackEvent) (o : Order) (s : Shop) :
    Except Exc CallbackResult × Shop :=
  match o.stage with
  | .created => (.error .noResultFound, s)
  | .processing p =>
    if event = .paymentSuccess ∧ (128 < p.vpa.length ∨ ¬ s.HasRoom p o) then (.error .dataError, s)
    else (.ok ⟨false, p.id, p.publicId, some o.publicId, (targetIntent event).value⟩,
      s.advance o.id (.ended event p))
  | .ended first p =>
    if first = event then (.ok ⟨true, p.id, p.publicId, none, (targetTxn first).value⟩, s)
    else (.error (.invalidStateTransition ("Illegal transaction transition " ++
      (targetTxn first).value ++ " -> " ++ (targetTxn event).value)), s)

/-- The bank tells how a payment has ended. -/
def Shop.callback (c : BankCallback) (s : Shop) : Except Exc CallbackResult × Shop :=
  match s.orders.find? fun o => o.stage.Names c.pspReference with
  | none => (.error (.transactionNotFound c.pspReference), s)
  | some o =>
    match Decimal.ne o.amount.toDecimal c.amount with
    | .error _ => (.error .invalidOperation, s)
    | .ok true => (.error (.amountMismatch c.amount o.amount.toDecimal), s)
    | .ok false => s.conclude c.event o

/-- A merchant asks how its order stands. -/
def Shop.get (orderId : String) (merchant : Merchant) (s : Shop) :
    Except Exc CreateOrderResponse :=
  match s.orders.find? fun o => o.publicId = orderId ∧ o.merchantId = merchant.id with
  | none => .error (.httpException 404 "Order not found")
  | some o => .ok o.response

/-- **What the operations are for.** -/
def Shop.serve : Op → Shop → Except Exc Reply × Shop
  | .createOrder merchant payload ids, s => (s.create merchant payload ids).map (·.map .order) id
  | .initiateUpi merchant payload ids, s =>
    (s.initiate merchant payload ids).map (·.map .payment) id
  | .getOrder orderId merchant, s => ((s.get orderId merchant).map .order, s)
  | .processBankCallback c, s => (s.callback c).map (·.map .callback) id

/-! ### What a database stands for -/

def paymentOf (t : Transaction) : Payment :=
  ⟨t.id, t.publicId, t.vpa, t.paymentMethod, t.pspReference⟩

/-- The stage of an order with this transaction, if it has one. -/
def stageOf : Option Transaction → Stage
  | none => .created
  | some t =>
    match t.state with
    | .success => .ended .paymentSuccess (paymentOf t)
    | .failed => .ended .paymentFailed (paymentOf t)
    | _ => .processing (paymentOf t)

/-- The transaction of an intent. -/
def transactionOf (d : Db) (i : PaymentIntent) : Option Transaction :=
  d.transactions.find? (·.intentId = i.id)

def asOrder (d : Db) (i : PaymentIntent) : Order :=
  ⟨i.id, i.publicId, i.merchantId, i.amount, i.currency, i.idempotencyKey, i.description,
    stageOf (transactionOf d i)⟩

def shopOf (d : Db) : Shop := ⟨d.merchants.map (·.id), d.intents.map (asOrder d)⟩

def Holder.Owns : Holder → LedgerAccount → Prop
  | .payer vpa, a => a.accountType = .virtual ∧ a.identifier = vpa
  | .merchant id, a =>
    a.accountType = .merchantSettlement ∧ a.identifier = merchantIdentifier id

instance : (holder : Holder) → DecidablePred holder.Owns
  | .payer _ => fun _ => inferInstanceAs (Decidable (_ ∧ _))
  | .merchant _ => fun _ => inferInstanceAs (Decidable (_ ∧ _))

theorem nil_fits : 0 < 2 ^ 128 := by norm_num

/-- An account that is opened for the holder. -/
def Holder.opened : Holder → LedgerAccount
  | .payer vpa => ⟨⟨0, nil_fits⟩, none, .virtual, vpa, defaultCurrency, ⟨0, zero_fits⟩⟩
  | .merchant id => ⟨⟨0, nil_fits⟩, some id, .merchantSettlement, merchantIdentifier id,
      defaultCurrency, ⟨0, zero_fits⟩⟩

theorem Holder.owns_opened : (holder : Holder) → holder.Owns holder.opened
  | .payer _ => ⟨rfl, rfl⟩
  | .merchant _ => ⟨rfl, rfl⟩

theorem Holder.owns_iff {holder : Holder} {a : LedgerAccount} : holder.Owns a ↔
    a.accountType = holder.opened.accountType ∧ a.identifier = holder.opened.identifier := by
  cases holder <;> rfl

/-- What the ledger has on the account of a holder, if there is one. -/
def balanceOf (holder : Holder) (d : Db) : ℤ :=
  ((d.accounts.find? fun a => holder.Owns a).map (·.balance.units)).getD 0

end PaymentGateway.Specs.Storefront
