import PaymentGateway.Api.Callbacks
import PaymentGateway.Outlines.Endpoints

/-! # The gateway

The endpoints of the gateway at once, in any interleaving: order creations and reads, initiations and
bank callbacks. Any of them may die and any commit may fail, and no session is assumed to see what is
current. Whatever is in the database then goes back to requests of the pool (`Traced`): an order and
its payment to requests with the credentials of its merchant, and the end of a payment to a callback
that the bank has signed. -/

namespace PaymentGateway.Runs.Origins

open PaymentGateway.Core.Ids PaymentGateway.Models PaymentGateway.Schemas
open PaymentGateway.Lib.Program PaymentGateway.Lib.Sessions PaymentGateway.Lib.Interference
open PaymentGateway.Lib.DecimalArith PaymentGateway.Lib.Tables PaymentGateway.Db.Statements
open PaymentGateway.Db.Locking PaymentGateway.Services.Order PaymentGateway.Services.Payment
open PaymentGateway.Services.Webhook PaymentGateway.Api.Deps PaymentGateway.Api.Orders
open PaymentGateway.Api.Payments PaymentGateway.Api.Webhooks PaymentGateway.Api.Verification
open PaymentGateway.Api.Callbacks PaymentGateway.State.Changes PaymentGateway.State.Invariant
open PaymentGateway.State.Outbox PaymentGateway.State.Histories PaymentGateway.Outlines.Rules
open PaymentGateway.Outlines.Order PaymentGateway.Outlines.Payment PaymentGateway.Outlines.Requests
open PaymentGateway.Outlines.Webhook PaymentGateway.Outlines.Endpoints PaymentGateway.Runs.Deliveries

/-- What the endpoints have besides the database. -/
structure Gateway where
  security : Security
  signing : Signing
  settings : Settings
  /-- How deep the interpreter lets a document be nested. -/
  depth : ℕ

/-- A request, with the time it comes and what it draws at random. -/
inductive Request
  | createOrder (credentials : Credentials) (payload : CreateOrderRequest) (ids : OrderIds)
  | getOrder (credentials : Credentials) (orderId : String)
  | initiateUpi (credentials : Credentials) (payload : UpiInitiateRequest) (ids : InitiateIds)
  | bankCallback (now : ℚ) (signed : SignedRequest) (ids : CallbackIds) (deliveryId : UUID)
      (broker : Except Exc Unit)

inductive Reply
  | order (response : CreateOrderResponse)
  | payment (response : UpiInitiateResponse)
  | ack (response : WebhookAck)
  deriving DecidableEq

variable (gateway : Gateway)

/-- Step 1 of a callback. -/
def receive (now : ℚ) (signed : SignedRequest) : Except Exc Callback :=
  receiveCallback gateway.signing.signPayload gateway.settings gateway.depth now signed

/-- What a request does. -/
def Request.prog : Request → Sql Reply
  | .createOrder credentials payload ids => do
    let response ← createOrderEndpoint gateway.security credentials payload ids
    return .order response
  | .getOrder credentials orderId => do
    let response ← getCurrentMerchant gateway.security credentials >>= Api.Orders.getOrder orderId
    return .order response
  | .initiateUpi credentials payload ids => do
    let response ← initiateUpiPayment gateway.security credentials payload ids
    return .payment response
  | .bankCallback now signed ids deliveryId broker => do
    let response ← Api.Webhooks.bankCallback gateway.signing
      ⟨receive gateway now signed, ids, deliveryId, broker⟩
    return .ack response

/-- The requests before their first statement. -/
def pool {ι : Type} (requests : ι → Request) (d : Db) : Config sql Db Session ι Reply :=
  database.start d fun i => (requests i).prog gateway

/-! ### Where a row comes from -/

section Origins

variable {ι : Type} (ms : List Merchant) (requests : ι → Request)

/-- The order was asked for with the credentials of its merchant. -/
def OrderOrigin (i : PaymentIntent) : Prop :=
  ∃ r credentials payload ids m, requests r = .createOrder credentials payload ids ∧
    Authenticates gateway.security credentials m ms ∧ i.merchantId = m.id ∧
    i.id = ids.intentId ∧ i.publicId = newId "ord" ids.token ∧
    Numeric.ofDecimal 18 4 payload.amount = some i.amount ∧ i.currency = payload.currency ∧
    i.idempotencyKey = payload.idempotencyKey ∧ i.description = payload.description

/-- The payment of the order was asked for with the credentials of its merchant. -/
def PaymentOrigin (t : Transaction) (i : PaymentIntent) : Prop :=
  ∃ r credentials payload ids m, requests r = .initiateUpi credentials payload ids ∧
    Authenticates gateway.security credentials m ms ∧ i.merchantId = m.id ∧
    i.publicId = payload.orderId ∧ t.vpa = payload.vpa ∧ t.id = ids.transactionId ∧
    t.publicId = newId "txn" ids.token ∧ t.pspReference = some (newId "psp" ids.pspToken)

/-- The end of the payment was in a callback, with the amount of the order. -/
def SettlementOrigin (t : Transaction) (i : PaymentIntent) : Prop :=
  ∃ r now signed ids deliveryId broker callback,
    requests r = .bankCallback now signed ids deliveryId broker ∧
    receive gateway now signed = .ok callback ∧ t.pspReference = some callback.pspReference ∧
    t.state = targetTxn callback.event ∧ amountDiffers i callback.amount = .ok false

/-- Every row goes back to requests, and the ledger is balanced. -/
structure Traced (d : Db) : Prop where
  merchants : d.merchants = ms
  balanced : Balanced d
  publicIds : PublicIds d
  orders : ∀ i ∈ d.intents, OrderOrigin gateway ms requests i
  payments : ∀ t ∈ d.transactions, ∃ i ∈ d.intents, i.id = t.intentId ∧
    PaymentOrigin gateway ms requests t i ∧
    (t.state ≠ .pending → SettlementOrigin gateway requests t i)
  addressed : ∀ w ∈ d.deliveries, Addressed gateway.signing w ms
  written : ∀ w ∈ d.deliveries, Written w d

/-- The change that a request may commit. -/
def Request.effect (r : Request) (d d' : Db) : Prop :=
  match r with
  | .createOrder credentials payload ids => ∃ m,
    Authenticates gateway.security credentials m ms ∧ Creates m payload ids d d'
  | .getOrder _ _ => False
  | .initiateUpi credentials payload ids => ∃ m i,
    Authenticates gateway.security credentials m ms ∧ i.merchantId = m.id ∧
    i.publicId = payload.orderId ∧ Begun (newTransaction i payload ids) i d d'
  | .bankCallback now signed _ _ _ => ∃ callback, receive gateway now signed = .ok callback ∧
    (Settles callback.event callback.pspReference callback.amount d d' ∨
      Announces gateway.signing d d')

/-- The reply is about an order of the merchant whose credentials the request has. -/
def Speaks (r : Request) (reply : Reply) (d : Db) : Prop :=
  match r, reply with
  | .createOrder credentials payload _, .order res => ∃ m,
    Authenticates gateway.security credentials m ms ∧
      Shows m (·.idempotencyKey = payload.idempotencyKey) res d
  | .getOrder credentials orderId, .order res => ∃ m,
    Authenticates gateway.security credentials m ms ∧ Shows m (·.publicId = orderId) res d
  | .initiateUpi credentials payload _, .payment res => ∃ m,
    Authenticates gateway.security credentials m ms ∧ Answers m payload res d
  | .bankCallback _ _ _ _ _, .ack _ => True
  | _, _ => False

end Origins

variable {gateway} {ι : Type} {ms : List Merchant} {requests : ι → Request} {d d' : Db}

theorem Request.effect_any {r : Request} (h : r.effect gateway ms d d') : Effect d d' := by
  cases r with
  | createOrder credentials payload ids =>
    obtain ⟨m, -, money, -, h⟩ := h
    exact .ordered h
  | getOrder credentials orderId => exact absurd h id
  | initiateUpi credentials payload ids =>
    obtain ⟨m, i, -, -, -, h⟩ := h
    exact .begun h
  | bankCallback now signed ids deliveryId broker =>
    obtain ⟨callback, -, h | ⟨w, -, -, h⟩⟩ := h
    · cases h with
      | failed he ht ha h => exact .failed h
      | succeeded he ht ha h => exact .succeeded h
    · exact .delivered h

/-! ### What a request commits keeps the origins -/

section Keeping

variable {i j : PaymentIntent} {t u : Transaction} {w : WebhookDelivery}

theorem traced_empty : Traced gateway ms requests (Db.empty ms) :=
  ⟨rfl, (consistent_empty ms).balanced, List.nodup_nil, fun _ h => (by cases h), fun _ h => (by cases h),
    fun _ h => (by cases h), fun _ h => by cases h⟩

theorem OrderOrigin.status (h : OrderOrigin gateway ms requests i)
    (hj : j = { i with status := j.status }) : OrderOrigin gateway ms requests j := by
  rw [hj]
  exact h

theorem PaymentOrigin.state (h : PaymentOrigin gateway ms requests t i)
    (hj : j = { i with status := j.status }) (hu : u = { t with state := u.state }) :
    PaymentOrigin gateway ms requests u j := by
  rw [hj, hu]
  exact h

theorem SettlementOrigin.status (h : SettlementOrigin gateway requests t i)
    (hj : j = { i with status := j.status }) : SettlementOrigin gateway requests t j := by
  rw [hj]
  exact h

/-- Every order is a merchant's. -/
theorem Traced.owned (h : Traced gateway ms requests d) : Owned d := by
  intro i hi
  obtain ⟨_, _, _, _, m, -, hm, hmerchant, -⟩ := h.orders i hi
  exact ⟨m, h.merchants ▸ hm.merchant, hmerchant.symm⟩

/-- A later state in which every new row has its origin is traced. -/
theorem Traced.later (h : Traced gateway ms requests d) (hlater : Later d d') (hb : Balanced d')
    (hpublic : PublicIds d') (horders : ∀ j ∈ d'.intents, (∃ i ∈ d.intents, j = { i with status := j.status }) ∨
      OrderOrigin gateway ms requests j)
    (hpayments : ∀ u ∈ d'.transactions, (∃ t ∈ d.transactions, u = { t with state := u.state } ∧
        (u = t ∨ ∀ i ∈ d.intents, i.id = t.intentId → SettlementOrigin gateway requests u i)) ∨
      u.state = .pending ∧ ∃ i ∈ d.intents, i.id = u.intentId ∧
        PaymentOrigin gateway ms requests u i)
    (hdeliveries : ∀ w ∈ d'.deliveries, w ∈ d.deliveries ∨ Addressed gateway.signing w ms ∧
      Written w d) : Traced gateway ms requests d' := by
  refine ⟨hlater.frame.merchants.trans h.merchants, hb, hpublic, fun j hj => ?_, fun u hu => ?_,
    fun w hw => ?_, fun w hw => ?_⟩
  · rcases horders j hj with ⟨i, hi, hij⟩ | hnew
    · exact (h.orders i hi).status hij
    · exact hnew
  · rcases hpayments u hu with ⟨t, ht, hut, hsame⟩ | ⟨hpending, i, hi, hiu, horigin⟩
    · obtain ⟨i, hi, hit, horigin, hsettled⟩ := h.payments t ht
      obtain ⟨j, hj, hij, -⟩ := hlater.frame.intents.exists_mem hi
      have hid : j.id = u.intentId := by rw [hij, hut, ← hit]
      refine ⟨j, hj, hid, horigin.state hij hut, fun hs => ?_⟩
      rcases hsame with rfl | hnew
      · exact (hsettled hs).status hij
      · exact (hnew i hi hit).status hij
    · obtain ⟨j, hj, hij, -⟩ := hlater.frame.intents.exists_mem hi
      exact ⟨j, hj, by rw [hij, ← hiu], horigin.state hij rfl, fun hs => absurd hpending hs⟩
  · exact (hdeliveries w hw).elim (h.addressed w) And.left
  · have hkeeps := keeps_of_steady ⟨hlater.frame, hlater.final⟩
    exact hkeeps.written ((hdeliveries w hw).elim (h.written w) And.right)

/-- The intents after a new status. -/
theorem status_of_mem {id : UUID} {status : PaymentStatus}
    (hj : j ∈ d.intents.map (withStatus id status)) :
    ∃ i ∈ d.intents, j = { i with status := j.status } := by
  obtain ⟨i, hi, rfl⟩ := List.mem_map.mp hj
  exact ⟨i, hi, withStatus_eq⟩

theorem Traced.ordered (h : Traced gateway ms requests d) (ho : Ordered i d d')
    (hi : OrderOrigin gateway ms requests i) : Traced gateway ms requests d' := by
  refine h.later (later_ordered ho) (Balanced.ordered h.balanced ho) ?_ (fun j hj => ?_)
    (fun u hu => ?_) fun w hw => ?_
  · rw [ho.db]
    exact h.publicIds
  · rw [ho.db] at hj
    rcases List.mem_append.mp hj with hj | hj
    · exact .inl ⟨j, hj, rfl⟩
    · exact .inr (List.mem_singleton.mp hj ▸ hi)
  · rw [ho.db] at hu
    exact .inl ⟨u, hu, rfl, .inl rfl⟩
  · rw [ho.db] at hw
    exact .inl hw

theorem Traced.begun (h : Traced gateway ms requests d) (hb : Begun t i d d')
    (ht : PaymentOrigin gateway ms requests t i) : Traced gateway ms requests d' := by
  refine h.later (later_begun hb) (Balanced.begun h.balanced hb) ?_ (fun j hj => ?_)
    (fun u hu => ?_) fun w hw => ?_
  · rw [hb.db]
    exact nodup_append_key h.publicIds fun u hu => (hb.fresh u hu).2
  · rw [hb.db] at hj
    exact .inl (status_of_mem hj)
  · rw [hb.db] at hu
    rcases List.mem_append.mp hu with hu | hu
    · exact .inl ⟨u, hu, rfl, .inl rfl⟩
    · rw [List.mem_singleton.mp hu]
      exact .inr ⟨hb.pending, i, hb.intent, hb.intentId.symm, ht⟩
  · rw [hb.db] at hw
    exact .inl hw

/-- The end of a payment, as a callback of the pool says. -/
theorem Traced.finished (h : Traced gateway ms requests d) (ho : Open t i d) (hlater : Later d d')
    (hb : Balanced d') {status : PaymentStatus} {state : TransactionState}
    (hintents : d'.intents = d.intents.map (withStatus i.id status))
    (htransactions : d'.transactions = d.transactions.map (withState t.id state))
    (hdeliveries : d'.deliveries = d.deliveries)
    (horigin : SettlementOrigin gateway requests { t with state := state } i) :
    Traced gateway ms requests d' := by
  have hpublic : PublicIds d' := by
    unfold PublicIds
    rw [htransactions, map_key (by simp)]
    exact h.publicIds
  refine h.later hlater hb hpublic (fun j hj => .inl (status_of_mem (hintents ▸ hj)))
    (fun u hu => ?_) fun w hw => .inl (hdeliveries ▸ hw)
  rw [htransactions] at hu
  obtain ⟨v, hv, rfl⟩ := List.mem_map.mp hu
  refine .inl ⟨v, hv, withState_eq, ?_⟩
  by_cases hvt : v.id = t.id
  · obtain rfl := eq_of_key h.balanced.keys.transactions hv ho.txn hvt
    refine .inr fun j hj hjv => ?_
    obtain rfl := eq_of_key h.balanced.keys.intents hj ho.intent (hjv.trans ho.intentId.symm)
    rw [withState_self]
    exact horigin
  · exact .inl (withState_of_ne hvt)

theorem Traced.delivered (h : Traced gateway ms requests d) (hw : Addressed gateway.signing w ms)
    (hwritten : Written w d) : Traced gateway ms requests (withDelivery w d) := by
  refine h.later (later_delivered w d) (Balanced.delivered h.balanced w) h.publicIds
    (fun j hj => .inl ⟨j, hj, rfl⟩) (fun u hu => .inl ⟨u, hu, rfl, .inl rfl⟩) fun v hv => ?_
  rcases List.mem_append.mp hv with hv | hv
  · exact .inl hv
  · exact .inr (List.mem_singleton.mp hv ▸ ⟨hw, hwritten⟩)

/-- **What a request of the pool commits keeps the origins.** -/
theorem Traced.effect (h : Traced gateway ms requests d) {r : ι}
    (he : (requests r).effect gateway ms d d') : Traced gateway ms requests d' := by
  cases hr : requests r with
  | createOrder credentials payload ids =>
    rw [hr] at he
    obtain ⟨m, hm, money, hmoney, ho⟩ := he
    exact h.ordered ho ⟨r, credentials, payload, ids, m, hr, hm, rfl, rfl, rfl, hmoney, rfl, rfl, rfl⟩
  | getOrder credentials orderId =>
    rw [hr] at he
    exact absurd he id
  | initiateUpi credentials payload ids =>
    rw [hr] at he
    obtain ⟨m, i, hm, hmerchant, horder, hb⟩ := he
    exact h.begun hb
      ⟨r, credentials, payload, ids, m, hr, hm, hmerchant, horder, rfl, rfl, rfl, rfl⟩
  | bankCallback now signed ids deliveryId broker =>
    rw [hr] at he
    obtain ⟨callback, hcallback, hs | ⟨w, hw, hwritten, rfl⟩⟩ := he
    · cases hs with
      | failed hevent hpsp hamount hf =>
        refine h.finished hf.toOpen (later_failed h.balanced.keys hf) (Balanced.failed h.balanced hf)
          (by rw [hf.db]) (by rw [hf.db]) (by rw [hf.db]) ?_
        exact ⟨r, now, signed, ids, deliveryId, broker, callback, hr, hcallback, hpsp,
          by rw [hevent]; rfl, hamount⟩
      | succeeded hevent hpsp hamount hf =>
        refine h.finished hf.toOpen (later_succeeded h.balanced.keys hf)
          (Balanced.succeeded h.balanced hf) (by rw [hf.db]) (by rw [hf.db]) (by rw [hf.db]) ?_
        exact ⟨r, now, signed, ids, deliveryId, broker, callback, hr, hcallback, hpsp,
          by rw [hevent]; rfl, hamount⟩
    · exact h.delivered (h.merchants ▸ hw) hwritten

end Keeping

/-! ### The outlines of the pool -/

section Outlines

/-- A reply is the request's. -/
abbrev Replies (gateway : Gateway) (ms : List Merchant) (r : Request) (res : Except Exc Reply)
    (d : Db) : Prop :=
  ∀ reply, res = .ok reply → Speaks gateway ms r reply d

abbrev contracts (gateway : Gateway) (ms : List Merchant) (requests : ι → Request) (r : ι) :
    Contract database :=
  steady (Traced gateway ms requests) ((requests r).effect gateway ms)

/-- The outline of a request. -/
theorem outline_request (r : ι) : Outline (contracts gateway ms requests r)
    (fun res _ d => Replies gateway ms (requests r) res d) ((requests r).prog gateway) .closed d := by
  have hkeys : ∀ d, Traced gateway ms requests d → Keys d := fun _ h => h.balanced.keys
  unfold contracts
  cases requests r with
  | createOrder credentials payload ids =>
    refine steady_of (Outline.bind (P := fun res _ d => ∀ response, res = .ok response →
      Speaks gateway ms (.createOrder credentials payload ids) (.order response) d) ?_
      (fun res l d h reply he => ?_) fun e l d _ reply he => by cases he)
    · refine outline_createOrderEndpoint hkeys (fun m d₀ d d' hj hm hc => ⟨m, hj.merchants ▸ hm, hc⟩)
        (fun m d₀ res l d hj hm hshows response he => ?_) fun e l d response he => by cases he
      cases he
      exact ⟨m, hj.merchants ▸ hm, hshows⟩
    · cases he
      exact h res rfl
  | getOrder credentials orderId =>
    refine steady_of (Outline.bind (P := fun res _ d => ∀ response, res = .ok response →
      Speaks gateway ms (.getOrder credentials orderId) (.order response) d) ?_
      (fun res l d h reply he => ?_) fun e l d _ reply he => by cases he)
    · refine outline_getOrder hkeys (fun m d₀ res l d hj hm hshows response he => ?_)
        fun e l d response he => by cases he
      cases he
      exact ⟨m, hj.merchants ▸ hm, hshows⟩
    · cases he
      exact h res rfl
  | initiateUpi credentials payload ids =>
    refine steady_of (Outline.bind (P := fun res _ d => ∀ response, res = .ok response →
      Speaks gateway ms (.initiateUpi credentials payload ids) (.payment response) d) ?_
      (fun res l d h reply he => ?_) fun e l d _ reply he => by cases he)
    · refine outline_beginPayment hkeys (fun m d₀ i d d' hj hm hmerchant horder hb =>
        ⟨m, i, hj.merchants ▸ hm, hmerchant, horder, hb⟩)
        (fun m d₀ res l d hj hm hanswers response he => ?_) fun e l d response he => by cases he
      cases he
      exact ⟨m, hj.merchants ▸ hm, hanswers⟩
    · cases he
      exact h res rfl
  | bankCallback now signed ids deliveryId broker =>
    refine Outline.bind (P := fun _ _ _ => True) ?_ (fun res l d _ reply he => ?_)
      fun e l d _ reply he => by cases he
    · exact outline_bankCallback (fun _ h => h.balanced) (fun _ h => h.owned)
        (fun callback d d' hv hs => ⟨callback, hv, .inl hs⟩)
        fun callback d d' hv ha => ⟨callback, hv, .inr ha⟩
    · cases he
      trivial

/-- The others keep the reply a true one. -/
theorem Speaks.keeps {r : Request} {reply : Reply} {keep : List RowId}
    (h : Speaks gateway ms r reply d) (hf : Frame keep d d') : Speaks gateway ms r reply d' := by
  cases r with
  | createOrder credentials payload ids =>
    cases reply with
    | order res =>
      obtain ⟨m, hm, hshows⟩ := h
      exact ⟨m, hm, hshows.frame (fun _ _ h => h) hf⟩
    | payment res => exact h
    | ack res => exact h
  | getOrder credentials orderId =>
    cases reply with
    | order res =>
      obtain ⟨m, hm, hshows⟩ := h
      exact ⟨m, hm, hshows.frame (fun _ _ h => h) hf⟩
    | payment res => exact h
    | ack res => exact h
  | initiateUpi credentials payload ids =>
    cases reply with
    | order res => exact h
    | payment res =>
      obtain ⟨m, hm, t, i, hp, htxn, hord, hpsp⟩ := h
      obtain ⟨u, j, -, hji, hpublic, hpsp', hp'⟩ := hp.frame hf
      exact ⟨m, hm, u, j, hp', htxn.trans hpublic.symm, hord.trans (hp.order.trans hp'.order.symm),
        hpsp.trans hpsp'.symm⟩
    | ack res => exact h
  | bankCallback now signed ids deliveryId broker =>
    cases reply with
    | order res => exact h
    | payment res => exact h
    | ack res => exact h

end Outlines

/-! ### Runs -/

variable {c c' : Config sql Db Session ι Reply}

/-- A configuration of the pool in which everything has its origin. -/
abbrev InOrder (gateway : Gateway) (ms : List Merchant) (requests : ι → Request)
    (c : Config sql Db Session ι Reply) : Prop :=
  Sound isolation (Traced gateway ms requests) (contracts gateway ms requests)
    (fun r res d => Replies gateway ms (requests r) res d) c

theorem fits : Fits isolation (Traced gateway ms requests) (fun _ _ => True)
    (contracts gateway ms requests) fun r res d => Replies gateway ms (requests r) res d where
  assume _ hpool hJ _ := ⟨hpool.own _, hJ⟩
  keeps := by
    rintro r d d' hJ (rfl | he)
    · exact hJ
    · exact hJ.effect he
  rely := by
    rintro i j s d l m - - - - hw hassume hg
    refine ⟨frame_exec hw, ?_⟩
    rcases hg with hsame | he
    · rw [hsame]
      exact .refl d
    · exact ((Request.effect_any he).later hassume.2.balanced.keys).final
  stable hq hr reply he := (hq reply he).keeps hr.1
  crash _ _ _ he := by cases he

/-- **Every step of the pool** leads to a later state, in which everything has its origin. -/
theorem inOrder_run [DecidableEq ι] (h : InOrder gateway ms requests c)
    (hr : database.Run (fun _ _ => True) c c') :
    InOrder gateway ms requests c' ∧ Later c.shared c'.shared := by
  obtain ⟨h', hg⟩ := h.run fits hr
  refine ⟨h', ?_⟩
  generalize c'.shared = d' at hg
  induction hg with
  | refl => exact .refl _
  | tail _ hs ih =>
    obtain ⟨hJ, r, rfl | he⟩ := hs
    · exact ih
    · exact ih.trans ((Request.effect_any he).later hJ.balanced.keys)

theorem inOrder_start (ms : List Merchant) :
    InOrder gateway ms requests (pool gateway requests (Db.empty ms)) :=
  .start traced_empty fun r => outline_request r

end PaymentGateway.Runs.Origins
