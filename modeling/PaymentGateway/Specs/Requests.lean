import PaymentGateway.Api.Orders
import PaymentGateway.Specs.Callback

/-! # What the requests of a merchant do when they run alone

The outcomes of `create_order`, `initiate_upi` and `get_order` as functions of the database. For the
shorter ones (`ordered`, `initiated`) the ids that are drawn are new, and the idempotency key of an
order is not another merchant's; `serve_createOrder_eq` is about any ids and keys. -/

namespace PaymentGateway.Specs.Requests

open PaymentGateway.Core.Ids PaymentGateway.Models PaymentGateway.Schemas
open PaymentGateway.Lib.Program PaymentGateway.Lib.Sessions PaymentGateway.Lib.DecimalArith
open PaymentGateway.Lib.Tables PaymentGateway.Db.Statements PaymentGateway.Db.Flush
open PaymentGateway.Services.StateMachine PaymentGateway.Services.Order
open PaymentGateway.Services.Payment PaymentGateway.Api.Deps PaymentGateway.Api.Orders
open PaymentGateway.State.Invariant PaymentGateway.Specs.Callback

variable {d d' : Db} {l : Session} {merchant : Merchant} {i : PaymentIntent}

/-- The answer that describes an intent. -/
def orderResponse (i : PaymentIntent) : CreateOrderResponse :=
  ⟨i.publicId, i.idempotencyKey, i.amount, i.currency, i.status⟩

/-! ### Statements -/

theorem run_execute (s : Stmt) (d : Db) (l : Session) :
    database.run (execute s) d l = exec s d l := by
  rw [execute, Machine.run_exec]
  rfl

/-- What the session has loaded are rows, and nothing is inserted or staged. -/
structure Synced (l : Session) (d : Db) : Prop where
  loaded : ∀ x ∈ l.loaded, x ∈ d.intents
  inserted : l.inserted = []
  pending : l.pending = []

theorem synced_closed (d : Db) : Synced .closed d :=
  ⟨fun _ hx => (by cases hx), rfl, rfl⟩

theorem Synced.load {rows : List PaymentIntent} {locks : List RowId} (h : Synced l d)
    (hrows : ∀ r ∈ rows, r ∈ d.intents) :
    Synced { l with loaded := l.load rows, locks := locks } d := by
  refine ⟨fun x hx => ?_, h.inserted, h.pending⟩
  rcases List.mem_append.mp hx with hx | hx
  · exact h.loaded x hx
  · exact hrows x (List.mem_filter.mp hx).1

/-- Such a session has the rows as they are. -/
theorem Synced.objects {rows : List PaymentIntent} (h : Synced l d) (k : Keys d)
    (hrows : ∀ r ∈ rows, r ∈ d.intents) : l.objects rows = rows := by
  unfold Session.objects
  refine (List.map_congr_left fun r hr => ?_).trans (List.map_id rows)
  cases hf : l.loaded.find? (·.id = r.id) with
  | none => rfl
  | some x =>
    have hid : x.id = r.id := of_decide_eq_true (List.find?_some hf :)
    exact eq_of_key k.intents (h.loaded x (List.mem_of_find?_eq_some hf)) (hrows r hr) hid

/-- A session with nothing loaded has the rows as they are. -/
theorem objects_closed (rows : List PaymentIntent) : Session.closed.objects rows = rows :=
  List.map_id' rows

theorem load_closed (rows : List PaymentIntent) : Session.closed.load rows = rows := by
  unfold Session.load Session.closed
  rw [List.nil_append]
  exact List.filter_eq_self.mpr fun r _ => by simp

theorem run_refreshIntent {id : UUID} (h : d.intents.find? (·.id = id) = some i) :
    database.run (execute (.refreshIntent id)) d l =
      (.ok i, d, ⟨l.reload i, l.locks, l.inserted, l.pending⟩) := by
  rw [run_execute]
  simp only [exec, h]

theorem run_refreshTransaction {id : UUID} {t : Transaction}
    (h : d.transactions.find? (·.id = id) = some t) :
    database.run (execute (.refreshTransaction id)) d l = (.ok t, d, l) := by
  rw [run_execute]
  simp only [exec, h]

theorem run_scalarOneOrNone {α : Type} (o : Option α) (d : Db) (l : Session) :
    database.run (scalarOneOrNone o.toList) d l = (.ok o, d, l) := by
  cases o <;> rfl

/-! ### Authentication -/

section Authentication

variable {security : Security} {credentials : Credentials}

theorem run_loadIntents (ms : List Merchant) (hl : Synced l d) :
    ∃ l', database.run (loadIntents ms) d l = (.ok (), d, l') ∧ Synced l' d := by
  induction ms generalizing l with
  | nil => exact ⟨l, rfl, hl⟩
  | cons m ms ih =>
    have hload : Synced { l with
        loaded := l.load (d.intents.filter (·.merchantId = m.id)), locks := l.locks } d :=
      hl.load fun r hr => (List.mem_filter.mp hr).1
    exact ih hload

theorem run_loaded (rows : List Merchant) (hl : Synced l d) : ∃ r l',
    database.run (loadIntents rows >>= fun _ => scalarOneOrNone rows) d l = (r, d, l') ∧
      Synced l' d := by
  obtain ⟨l', hrun, hl'⟩ := run_loadIntents rows hl
  rw [Machine.run_bind_ok _ hrun]
  match rows with
  | [] => exact ⟨_, l', rfl, hl'⟩
  | [_] => exact ⟨_, l', rfl, hl'⟩
  | _ :: _ :: _ => exact ⟨_, l', rfl, hl'⟩

theorem run_findMerchant (security : Security) (credentials : Credentials) (d : Db) : ∃ r l',
    database.run (findMerchant security credentials) d .closed = (r, d, l') ∧ Synced l' d := by
  unfold findMerchant
  cases credentials.token.filter (· ≠ "") with
  | some token =>
    dsimp only
    rcases security.decodeAccessToken token with detail | _ | merchantId
    · exact ⟨_, _, rfl, synced_closed d⟩
    · exact ⟨_, _, rfl, synced_closed d⟩
    · exact run_loaded (d.merchants.filter (·.id = merchantId)) (synced_closed d)
  | none =>
    cases credentials.apiKey with
    | none => exact ⟨_, _, rfl, synced_closed d⟩
    | some apiKey =>
      exact run_loaded (d.merchants.filter (·.apiKeyHash = security.deriveKey apiKey))
        (synced_closed d)

/-- **`get_current_merchant`** leaves the rows it loads as they are. -/
theorem run_getCurrentMerchant (security : Security) (credentials : Credentials) (d : Db) :
    ∃ r l', database.run (getCurrentMerchant security credentials) d .closed = (r, d, l') ∧
      Synced l' d := by
  obtain ⟨r, l', hrun, hl'⟩ := run_findMerchant security credentials d
  unfold getCurrentMerchant
  cases r with
  | error exc => exact ⟨_, l', Machine.run_bind_error _ hrun, hl'⟩
  | ok found =>
    rw [Machine.run_bind_ok _ hrun]
    cases found with
    | none => exact ⟨_, l', rfl, hl'⟩
    | some m =>
      dsimp only
      split_ifs
      · exact ⟨_, l', rfl, hl'⟩
      · exact ⟨_, l', rfl, hl'⟩

/-- What follows the authentication of `merchant`. -/
theorem run_authenticated {α : Type} {f : Merchant → Sql α}
    (h : (database.serve (getCurrentMerchant security credentials) d).1 = .ok merchant) :
    ∃ l, Synced l d ∧ database.run (getCurrentMerchant security credentials >>= f) d .closed =
      database.run (f merchant) d l := by
  obtain ⟨r, l, hrun, hl⟩ := run_getCurrentMerchant security credentials d
  refine ⟨l, hl, Machine.run_bind_ok _ ?_⟩
  unfold Machine.serve at h
  rw [show database.closed = Session.closed from rfl, hrun] at h
  rw [hrun, show r = .ok merchant from h]

end Authentication

/-! ### `get_order` -/

/-- The intent of the public id, if it is the merchant's. -/
def orderOf (publicId : String) (merchantId : UUID) (d : Db) : Option PaymentIntent :=
  d.intents.find? fun i => i.publicId = publicId ∧ i.merchantId = merchantId

theorem mem_of_orderOf {publicId : String} {merchantId : UUID}
    (h : orderOf publicId merchantId d = some i) : i ∈ d.intents ∧ i.merchantId = merchantId := by
  have hi : i.publicId = publicId ∧ i.merchantId = merchantId := by simpa using List.find?_some h
  exact ⟨List.mem_of_find?_eq_some h, hi.2⟩

theorem rows_orderOf (k : Keys d) (publicId : String) (merchantId : UUID) :
    (d.intents.filter fun i => i.publicId = publicId ∧ i.merchantId = merchantId) =
      (orderOf publicId merchantId d).toList :=
  filter_eq_toList k.publicIds fun _ _ _ _ hy hz => hy.1.trans hz.1.symm

def got (orderId : String) (merchantId : UUID) (d : Db) : Except Exc CreateOrderResponse :=
  match orderOf orderId merchantId d with
  | none => .error (.httpException 404 "Order not found")
  | some i => .ok (orderResponse i)

theorem serve_getOrder (k : Keys d) (orderId : String) (merchant : Merchant) :
    database.serve (getOrder orderId merchant) d = (got orderId merchant.id d, d) := by
  have hrows : database.run (execute (.selectIntentByPublicId orderId merchant.id)) d .closed =
      (.ok (orderOf orderId merchant.id d).toList, d,
        ⟨(orderOf orderId merchant.id d).toList, [], [], []⟩) := by
    rw [run_execute]
    simp only [exec, rows_orderOf k, objects_closed, load_closed]
    rfl
  unfold Machine.serve getOrder got
  rw [show database.closed = Session.closed from rfl, Machine.run_bind_ok _ hrows]
  cases orderOf orderId merchant.id d <;> rfl

/-! ### `create_order` -/

section Order

variable {payload : CreateOrderRequest} {ids : Services.Order.OrderIds}

theorem zero_fits : (0 : ℤ).natAbs < 10 ^ 18 := by decide

/-- The amount of the request, as it is stored. -/
def amountOf (payload : CreateOrderRequest) : Money :=
  (Numeric.ofDecimal 18 4 payload.amount).getD ⟨0, zero_fits⟩

theorem ofDecimal_amountOf (payload : CreateOrderRequest) :
    Numeric.ofDecimal 18 4 payload.amount = some (amountOf payload) := by
  obtain ⟨u, hu, -, hlt⟩ := payload.amount_valid
  have hv : Decimal.value? payload.amount = some ((u : ℤ) * 10 ^ (-(4 : ℕ) : ℤ) : ℚ) := by
    rw [hu]
    simp [Decimal.value?, signed]
  have hsome : Numeric.ofDecimal 18 4 payload.amount = some ⟨(u : ℤ), by simpa using hlt⟩ :=
    (Numeric.ofDecimal_eq_some hv).mpr rfl
  unfold amountOf
  rw [hsome]
  rfl

/-- The intent that an order creation adds. -/
def orderRow (merchant : Merchant) (payload : CreateOrderRequest) (ids : OrderIds) : PaymentIntent :=
  ⟨ids.intentId, newId "ord" ids.token, merchant.id, amountOf payload, payload.currency, .created,
    payload.idempotencyKey, payload.description⟩

/-- The intent of the key, if it is the merchant's. -/
def replayOf (key : String) (merchantId : UUID) (d : Db) : Option PaymentIntent :=
  d.intents.find? fun i => i.idempotencyKey = key ∧ i.merchantId = merchantId

/-- The database with the new intent. -/
def withIntent (merchant : Merchant) (payload : CreateOrderRequest) (ids : OrderIds) (d : Db) : Db :=
  { d with intents := d.intents ++ [orderRow merchant payload ids] }

/-- How the creation of an order ends, if it repeats none. -/
def added (merchant : Merchant) (payload : CreateOrderRequest) (ids : OrderIds) (d : Db) :
    Except Exc CreateOrderResponse × Db :=
  if (newId "ord" ids.token).length ≤ 64 then
    if ∃ m ∈ d.merchants, m.id = merchant.id then
      (.ok (orderResponse (orderRow merchant payload ids)), withIntent merchant payload ids d)
    else (.error .orderIdempotencyReuse, d)
  else (.error .dataError, d)

/-- How `create_order` ends. -/
def ordered (merchant : Merchant) (payload : CreateOrderRequest) (ids : OrderIds) (d : Db) :
    Except Exc CreateOrderResponse × Db :=
  match replayOf payload.idempotencyKey merchant.id d with
  | some i => (.ok (orderResponse i), d)
  | none => added merchant payload ids d

/-- The ids that an order creation draws are new. -/
def NewOrder (ids : OrderIds) (d : Db) : Prop :=
  ∀ i ∈ d.intents, i.id ≠ ids.intentId ∧ i.publicId ≠ newId "ord" ids.token

/-- The key is used by no other merchant. -/
def OwnKey (merchant : Merchant) (payload : CreateOrderRequest) (d : Db) : Prop :=
  ∀ i ∈ d.intents, i.idempotencyKey = payload.idempotencyKey → i.merchantId = merchant.id

theorem rows_replayOf (k : Keys d) (key : String) (merchantId : UUID) :
    (d.intents.filter fun i => i.idempotencyKey = key ∧ i.merchantId = merchantId) =
      (replayOf key merchantId d).toList :=
  filter_eq_toList k.idempotencyKeys fun _ _ _ _ hy hz => hy.1.trans hz.1.symm

/-- No intent stands in the way of the new one. -/
def Unclaimed (payload : CreateOrderRequest) (ids : OrderIds) (d : Db) : Prop :=
  ∀ i ∈ d.intents, i.id ≠ ids.intentId ∧ i.publicId ≠ newId "ord" ids.token ∧
    i.idempotencyKey ≠ payload.idempotencyKey

instance : Decidable (Unclaimed payload ids d) := inferInstanceAs (Decidable
  (∀ i ∈ d.intents, i.id ≠ ids.intentId ∧ i.publicId ≠ newId "ord" ids.token ∧
    i.idempotencyKey ≠ payload.idempotencyKey))

/-- How the creation of an order ends, if the merchant has none of its key. -/
def attempted (merchant : Merchant) (payload : CreateOrderRequest) (ids : OrderIds) (d : Db) :
    Except Exc CreateOrderResponse × Db :=
  if (newId "ord" ids.token).length ≤ 64 then
    if (∃ m ∈ d.merchants, m.id = merchant.id) ∧ Unclaimed payload ids d then
      (.ok (orderResponse (orderRow merchant payload ids)), withIntent merchant payload ids d)
    else (.error .orderIdempotencyReuse, d)
  else (.error .dataError, d)

theorem apply_newIntent : (newIntent merchant payload ids).apply d =
    if (newId "ord" ids.token).length ≤ 64 then
      if (∃ m ∈ d.merchants, m.id = merchant.id) ∧ Unclaimed payload ids d then
        .ok (withIntent merchant payload ids d)
      else .error .integrityError
    else .error .dataError := by
  unfold newIntent
  simp only [Write.apply, ofDecimal_amountOf]
  by_cases hlen : (newId "ord" ids.token).length ≤ 64
  · rw [if_pos hlen, if_pos ⟨hlen, payload.currency_valid.le, payload.idempotencyKey_valid.2,
      payload.description_valid⟩]
    rfl
  · rw [if_neg hlen, if_neg fun hc => hlen hc.1]

/-- With new ids, only the key can be in the way, and it is not. -/
theorem unclaimed (hnew : NewOrder ids d) (hkey : OwnKey merchant payload d)
    (hnone : replayOf payload.idempotencyKey merchant.id d = none) : Unclaimed payload ids d := by
  intro i hi
  refine ⟨(hnew i hi).1, (hnew i hi).2, fun e => ?_⟩
  exact List.find?_eq_none.mp hnone i hi (decide_eq_true ⟨e, hkey i hi e⟩)

theorem attempted_eq (hnew : NewOrder ids d) (hkey : OwnKey merchant payload d)
    (hnone : replayOf payload.idempotencyKey merchant.id d = none) :
    attempted merchant payload ids d = added merchant payload ids d := by
  have hfree := unclaimed hnew hkey hnone
  unfold attempted added
  simp only [hfree, and_true]

theorem flush_one {w : Write} (hinserted : l.inserted = []) (hpending : l.pending = [w]) :
    l.flush d = w.apply d := by
  unfold Session.flush
  rw [hpending, hinserted, List.append_nil, List.foldlM_cons]
  exact bind_pure _

theorem run_commitIntent_ok (h : l.flush d = .ok d') :
    database.run commitIntent d l = (.ok (), d', ⟨l.loaded, [], [], []⟩) := by
  have hexec : exec .commit d l = (.ok (), d', ⟨l.loaded, [], [], []⟩) := by simp only [exec, h]
  unfold commitIntent
  change database.run (Prog.tryCatch (Prog.ofExcept (exec .commit d l).1) _)
    (exec .commit d l).2.1 (exec .commit d l).2.2 = _
  rw [hexec]
  rfl

theorem run_commitIntent_error {exc : Exc} (h : l.flush d = .error exc) :
    database.run commitIntent d l =
      (.error (if exc = .integrityError then .orderIdempotencyReuse else exc), d, .closed) := by
  have hexec : exec .commit d l = (.error exc, d, .closed) := by simp only [exec, h]
  unfold commitIntent
  change database.run (Prog.tryCatch (Prog.ofExcept (exec .commit d l).1) _)
    (exec .commit d l).2.1 (exec .commit d l).2.2 = _
  rw [hexec]
  cases exc <;> rfl

/-- What follows if there is no intent of the key. -/
def addOrder (merchant : Merchant) (payload : CreateOrderRequest) (ids : OrderIds) :
    Sql CreateOrderResponse := do
  execute (.stage (newIntent merchant payload ids))
  commitIntent
  let intent ← execute (.refreshIntent ids.intentId)
  return ⟨intent.publicId, intent.idempotencyKey, intent.amount, intent.currency, intent.status⟩

theorem run_addOrder (hl : Synced l d) :
    ((database.run (addOrder merchant payload ids) d l).1,
      (database.run (addOrder merchant payload ids) d l).2.1) =
      attempted merchant payload ids d := by
  have hflush : Session.flush ⟨l.assign (newIntent merchant payload ids), l.locks, l.inserted,
      l.pending ++ [newIntent merchant payload ids]⟩ d = (newIntent merchant payload ids).apply d :=
    flush_one hl.inserted (by rw [hl.pending]; rfl)
  rw [apply_newIntent] at hflush
  unfold addOrder attempted
  rw [Machine.run_bind_ok _ (run_stage _ d l)]
  by_cases hlen : (newId "ord" ids.token).length ≤ 64
  · rw [if_pos hlen] at hflush ⊢
    by_cases hfree : (∃ m ∈ d.merchants, m.id = merchant.id) ∧ Unclaimed payload ids d
    · rw [if_pos hfree] at hflush ⊢
      have hfind : (d.intents ++ [orderRow merchant payload ids]).find? (·.id = ids.intentId) =
          some (orderRow merchant payload ids) :=
        find_append (x := orderRow merchant payload ids) (·.id) fun i hi => (hfree.2 i hi).1
      rw [Machine.run_bind_ok _ (run_commitIntent_ok hflush),
        Machine.run_bind_ok _ (run_refreshIntent hfind)]
      rfl
    · rw [if_neg hfree] at hflush ⊢
      rw [Machine.run_bind_error _ (run_commitIntent_error hflush)]
      rfl
  · rw [if_neg hlen] at hflush ⊢
    rw [Machine.run_bind_error _ (run_commitIntent_error hflush)]
    rfl

/-- **`create_order`**, whatever it draws and whoever uses the key. -/
theorem run_createOrder (k : Keys d) (hl : Synced l d) :
    ((database.run (createOrder merchant payload ids) d l).1,
      (database.run (createOrder merchant payload ids) d l).2.1) =
      match replayOf payload.idempotencyKey merchant.id d with
      | some i => (.ok (orderResponse i), d)
      | none => attempted merchant payload ids d := by
  have hmem : ∀ r ∈ d.intents.filter fun i => i.idempotencyKey = payload.idempotencyKey ∧
      i.merchantId = merchant.id, r ∈ d.intents := fun r hr => (List.mem_filter.mp hr).1
  have hobj := hl.objects k hmem
  rw [rows_replayOf k] at hmem hobj
  have hrows : database.run (execute (.selectIntentByKey payload.idempotencyKey merchant.id)) d
      l = (.ok (replayOf payload.idempotencyKey merchant.id d).toList, d,
        { l with loaded := l.load (replayOf payload.idempotencyKey merchant.id d).toList }) := by
    rw [run_execute]
    simp only [exec, rows_replayOf k, hobj]
  unfold createOrder
  rw [Machine.run_bind_ok _ hrows]
  cases hreplay : replayOf payload.idempotencyKey merchant.id d with
  | some i => rfl
  | none =>
    rw [hreplay] at hmem
    have hload : Synced { l with
        loaded := l.load (none : Option PaymentIntent).toList, locks := l.locks } d := hl.load hmem
    exact run_addOrder hload

/-- **`create_order` alone**, whatever it draws and whoever uses the key. -/
theorem serve_createOrder_eq (k : Keys d) :
    database.serve (createOrder merchant payload ids) d =
      match replayOf payload.idempotencyKey merchant.id d with
      | some i => (.ok (orderResponse i), d)
      | none => attempted merchant payload ids d :=
  run_createOrder k (synced_closed d)

theorem serve_createOrder (k : Keys d) (hnew : NewOrder ids d) (hkey : OwnKey merchant payload d) :
    database.serve (createOrder merchant payload ids) d = ordered merchant payload ids d := by
  rw [serve_createOrder_eq k]
  unfold ordered
  cases hreplay : replayOf payload.idempotencyKey merchant.id d with
  | some i => rfl
  | none => exact attempted_eq hnew hkey hreplay

end Order

/-! ### `initiate_upi` -/

section Payment

variable {payload : UpiInitiateRequest} {ids : InitiateIds}

/-- The transaction that the initiation repeats. -/
def duplicateOf (intentId : UUID) (vpa : String) (d : Db) : Option Transaction :=
  d.transactions.find? fun t => t.intentId = intentId ∧ t.vpa = vpa ∧ t.paymentMethod = .upi

/-- The database with the new transaction. -/
def withTransaction (i : PaymentIntent) (payload : UpiInitiateRequest) (ids : InitiateIds)
    (d : Db) : Db :=
  { d with
    intents := d.intents.map (withStatus i.id .processing)
    transactions := d.transactions ++ [newTransaction i payload ids] }

/-- How the initiation of a payment for the intent ends, if it repeats none. -/
def started (i : PaymentIntent) (payload : UpiInitiateRequest) (ids : InitiateIds) (d : Db) :
    Except Exc UpiInitiateResponse × Db :=
  match assertIntentTransition i.status .processing with
  | .error exc => (.error exc, d)
  | .ok () =>
    if (newId "txn" ids.token).length ≤ 64 ∧ (newId "psp" ids.pspToken).length ≤ 128 then
      (.ok ⟨newId "txn" ids.token, i.publicId, .pending, some (newId "psp" ids.pspToken)⟩,
        withTransaction i payload ids d)
    else (.error .dataError, d)

/-- How `initiate_upi` ends. -/
def initiated (merchant : Merchant) (payload : UpiInitiateRequest) (ids : InitiateIds) (d : Db) :
    Except Exc UpiInitiateResponse × Db :=
  match orderOf payload.orderId merchant.id d with
  | none => (.error (.orderNotFound payload.orderId), d)
  | some i =>
    if i.status ∈ [PaymentStatus.success, .failed] then
      (.error (.alreadyFinalised payload.orderId i.status), d)
    else
      match duplicateOf i.id payload.vpa d with
      | some t => (.ok ⟨t.publicId, i.publicId, .pending, t.pspReference⟩, d)
      | none => started i payload ids d

/-- The ids that an initiation draws are new. -/
def NewPayment (ids : InitiateIds) (d : Db) : Prop :=
  ∀ t ∈ d.transactions, t.id ≠ ids.transactionId ∧ t.publicId ≠ newId "txn" ids.token

theorem rows_duplicateOf (c : Coupled d) (intentId : UUID) (vpa : String) :
    (d.transactions.filter fun t => t.intentId = intentId ∧ t.vpa = vpa ∧ t.paymentMethod = .upi) =
      (duplicateOf intentId vpa d).toList :=
  filter_eq_toList c.one fun _ _ _ _ hy hz => hy.1.trans hz.1.symm

instance : Decidable (NewPayment ids d) := inferInstanceAs (Decidable
  (∀ t ∈ d.transactions, t.id ≠ ids.transactionId ∧ t.publicId ≠ newId "txn" ids.token))

/-- How the initiation of a payment for the intent ends, if it repeats none, whatever it draws. -/
def begun (i : PaymentIntent) (payload : UpiInitiateRequest) (ids : InitiateIds) (d : Db) :
    Except Exc UpiInitiateResponse × Db :=
  match assertIntentTransition i.status .processing with
  | .error exc => (.error exc, d)
  | .ok () =>
    if (newId "txn" ids.token).length ≤ 64 ∧ (newId "psp" ids.pspToken).length ≤ 128 then
      if NewPayment ids d then
        (.ok ⟨newId "txn" ids.token, i.publicId, .pending, some (newId "psp" ids.pspToken)⟩,
          withTransaction i payload ids d)
      else (.error .integrityError, d)
    else (.error .dataError, d)

theorem begun_eq (hnew : NewPayment ids d) : begun i payload ids d = started i payload ids d := by
  unfold begun started
  simp only [hnew, if_true]

theorem flush_started (payload : UpiInitiateRequest) (hi : i ∈ d.intents)
    (hinserted : l.inserted = []) (hpending : l.pending =
      [.setIntentStatus i.id .processing, .addTransaction (newTransaction i payload ids)]) :
    l.flush d =
      if (newId "txn" ids.token).length ≤ 64 ∧ (newId "psp" ids.pspToken).length ≤ 128 then
        if NewPayment ids d then .ok (withTransaction i payload ids d) else .error .integrityError
      else .error .dataError := by
  have hrow : ∃ j ∈ d.intents.map (withStatus i.id .processing), j.id = i.id :=
    ⟨_, List.mem_map_of_mem hi, withStatus_id⟩
  unfold Session.flush
  rw [hpending, hinserted, List.append_nil]
  refine Eq.trans (foldlM_apply (setIntentStatus_eq ⟨i, hi, rfl⟩)) ?_
  rw [List.foldlM_cons]
  refine (bind_pure _).trans ?_
  simp only [Write.apply]
  by_cases hlen : (newId "txn" ids.token).length ≤ 64 ∧ (newId "psp" ids.pspToken).length ≤ 128
  · rw [if_pos hlen, if_pos ⟨hlen.1, payload.vpa_valid.2.2, fun s hs => by cases hs; exact hlen.2⟩]
    by_cases hnew : NewPayment ids d
    · rw [if_pos hnew, if_pos ⟨hrow, hnew⟩]
      rfl
    · rw [if_neg hnew, if_neg fun hc => hnew hc.2]
  · rw [if_neg hlen, if_neg fun hc => hlen ⟨hc.1, hc.2.2 _ rfl⟩]

theorem run_startPayment (k : Keys d) (hi : i ∈ d.intents)
    (hl : l.inserted = [] ∧ l.pending = []) :
    ((database.run (startPayment i payload ids) d l).1,
      (database.run (startPayment i payload ids) d l).2.1) = begun i payload ids d := by
  unfold startPayment begun
  cases hassert : assertIntentTransition i.status .processing with
  | error exc => rfl
  | ok u =>
    cases u
    have hpending : assertTransactionTransition .initiated .pending = .ok () := rfl
    rw [hpending, Machine.run_bind_ok _ (run_value () d _), Machine.run_bind_ok _ (run_stage _ d _),
      Machine.run_bind_ok _ (run_value () d _), Machine.run_bind_ok _ (run_stage _ d _)]
    dsimp only
    have hstaged : l.pending ++ [.setIntentStatus i.id .processing] ++
        [.addTransaction (newTransaction i payload ids)] =
          [.setIntentStatus i.id .processing, .addTransaction (newTransaction i payload ids)] := by
      rw [hl.2]
      rfl
    have hflush := fun loaded => flush_started (d := d) (l := ⟨loaded, l.locks, l.inserted, _⟩)
      payload hi hl.1 hstaged
    by_cases hlen : (newId "txn" ids.token).length ≤ 64 ∧ (newId "psp" ids.pspToken).length ≤ 128
    · simp only [if_pos hlen] at hflush ⊢
      by_cases hnew : NewPayment ids d
      · simp only [if_pos hnew] at hflush ⊢
        have hintent : (d.intents.map (withStatus i.id .processing)).find? (·.id = i.id) =
            some (withStatus i.id .processing i) :=
          find_updated (fun _ => withStatus_id) k.intents hi
        have htxn : (d.transactions ++ [newTransaction i payload ids]).find?
            (·.id = ids.transactionId) = some (newTransaction i payload ids) :=
          find_append (x := newTransaction i payload ids) (·.id) fun t ht => (hnew t ht).1
        rw [Machine.run_bind_ok _ (run_commit (hflush _)),
          Machine.run_bind_ok _ (run_refreshIntent hintent),
          Machine.run_bind_ok _ (run_refreshTransaction htxn), withStatus_self]
        rfl
      · simp only [if_neg hnew] at hflush ⊢
        rw [Machine.run_bind_error _ (run_commit_error (hflush _))]
    · simp only [if_neg hlen] at hflush ⊢
      rw [Machine.run_bind_error _ (run_commit_error (hflush _))]

/-- How `initiate_upi` ends, whatever it draws. -/
def initiating (merchant : Merchant) (payload : UpiInitiateRequest) (ids : InitiateIds) (d : Db) :
    Except Exc UpiInitiateResponse × Db :=
  match orderOf payload.orderId merchant.id d with
  | none => (.error (.orderNotFound payload.orderId), d)
  | some i =>
    if i.status ∈ [PaymentStatus.success, .failed] then
      (.error (.alreadyFinalised payload.orderId i.status), d)
    else
      match duplicateOf i.id payload.vpa d with
      | some t => (.ok ⟨t.publicId, i.publicId, .pending, t.pspReference⟩, d)
      | none => begun i payload ids d

/-- **`initiate_upi`**, whatever it draws. -/
theorem run_initiateUpi (k : Keys d) (c : Coupled d) (hl : Synced l d) :
    ((database.run (initiateUpi merchant payload ids) d l).1,
      (database.run (initiateUpi merchant payload ids) d l).2.1) =
      initiating merchant payload ids d := by
  have hmem : ∀ r ∈ d.intents.filter fun i => i.publicId = payload.orderId ∧
      i.merchantId = merchant.id, r ∈ d.intents := fun r hr => (List.mem_filter.mp hr).1
  have hobj := hl.objects k hmem
  rw [rows_orderOf k] at hmem hobj
  have hrows : database.run (execute (.selectIntentForUpdate payload.orderId merchant.id)) d
      l = (.ok (orderOf payload.orderId merchant.id d).toList, d,
        { l with
          loaded := l.load (orderOf payload.orderId merchant.id d).toList
          locks := l.locks ++
            (orderOf payload.orderId merchant.id d).toList.map fun i => .intent i.id }) := by
    rw [run_execute]
    simp only [exec, rows_orderOf k, hobj]
  unfold initiateUpi initiating
  rw [Machine.run_bind_ok _ hrows]
  cases horder : orderOf payload.orderId merchant.id d with
  | none => rfl
  | some i =>
    have hi : i ∈ d.intents := List.mem_of_find?_eq_some horder
    have hdup : ∀ l, database.run (execute (.selectTransactionsOf i.id payload.vpa .upi)) d l =
        (.ok (duplicateOf i.id payload.vpa d).toList, d, l) := by
      intro l
      rw [run_execute]
      simp only [exec, rows_duplicateOf c]
    rw [Machine.run_bind_ok _ (run_scalarOneOrNone (some i) d _)]
    dsimp only
    by_cases hfinal : i.status ∈ [PaymentStatus.success, .failed]
    · rw [if_pos hfinal, if_pos hfinal]
      rfl
    · rw [if_neg hfinal, if_neg hfinal, Machine.run_bind_ok _ (hdup _),
        Machine.run_bind_ok _ (run_scalarOneOrNone _ d _)]
      cases duplicateOf i.id payload.vpa d with
      | some t => rfl
      | none => exact run_startPayment k hi ⟨hl.inserted, hl.pending⟩

/-- **`initiate_upi` alone**, whatever it draws. -/
theorem serve_initiateUpi_eq (k : Keys d) (c : Coupled d) :
    database.serve (initiateUpi merchant payload ids) d = initiating merchant payload ids d :=
  run_initiateUpi k c (synced_closed d)

/-- **`initiate_upi` alone.** -/
theorem serve_initiateUpi (k : Keys d) (c : Coupled d) (hnew : NewPayment ids d) :
    database.serve (initiateUpi merchant payload ids) d = initiated merchant payload ids d := by
  rw [serve_initiateUpi_eq k c]
  unfold initiating initiated
  simp only [begun_eq hnew]

end Payment

end PaymentGateway.Specs.Requests
