import PaymentGateway.Lib.Calls
import PaymentGateway.Specs.Books
import PaymentGateway.Specs.Requests

/-! # Serial runs of several merchants

Orders, initiations, reads and callbacks of any number of merchants, one after another. The ids that
the operations draw are all different, and no two merchants use one idempotency key in the body of an
order (`Ready`).

A merchant has its intents, their transactions, and what is on its settlement account; whatever else
there is, its operations do the same, and other operations do not touch it. The accounts of the payers
are shared between merchants: their balances are only larger where there are more merchants
(`Same`). -/

namespace PaymentGateway.Runs.Isolation

open PaymentGateway.Core.Ids PaymentGateway.Models PaymentGateway.Schemas
open PaymentGateway.Lib.Program PaymentGateway.Lib.Sessions PaymentGateway.Lib.Tables
open PaymentGateway.Lib.Calls PaymentGateway.Db.Statements
open PaymentGateway.Services.Order PaymentGateway.Services.Payment PaymentGateway.Services.Webhook
open PaymentGateway.Services.StateMachine
open PaymentGateway.State.Changes PaymentGateway.State.Invariant PaymentGateway.Runs.Serial
open PaymentGateway.Specs.Callback PaymentGateway.Specs.Accounts PaymentGateway.Specs.Books
open PaymentGateway.Specs.Requests PaymentGateway.Specs

/-! ### Operations -/

/-- An operation, with the ids it draws. -/
inductive Op
  | createOrder (merchant : Merchant) (payload : CreateOrderRequest) (ids : OrderIds)
  | initiateUpi (merchant : Merchant) (payload : UpiInitiateRequest) (ids : InitiateIds)
  | getOrder (orderId : String) (merchant : Merchant)
  | processBankCallback (callback : BankCallback)

/-- How the operation ends, and the database after it. -/
def Op.serve : Op → Db → Except Exc Reply × Db
  | .createOrder merchant payload ids, d => (Call.createOrder merchant payload ids).serve d
  | .initiateUpi merchant payload ids, d => (Call.initiateUpi merchant payload ids).serve d
  | .getOrder orderId merchant, d =>
    (database.serve (Api.Orders.getOrder orderId merchant) d).map (·.map .order) id
  | .processBankCallback c, d => (c.serve d).map (·.map .callback) id

/-- An id that an operation draws. -/
inductive Drawn
  | intent (id : UUID)
  | order (token : String)
  | transaction (id : UUID)
  | payment (token : String)
  | psp (token : String)
  | account (id : UUID)
  | entry (id : UUID)
  deriving DecidableEq

def Op.drawn : Op → List Drawn
  | .createOrder _ _ ids => [.intent ids.intentId, .order ids.token]
  | .initiateUpi _ _ ids => [.transaction ids.transactionId, .payment ids.token, .psp ids.pspToken]
  | .getOrder _ _ => []
  | .processBankCallback c => (accountIds c.ids).map .account ++ (entryIds c.ids).map .entry

/-- The id is in the database. -/
def Used (d : Db) : Drawn → Prop
  | .intent id => ∃ i ∈ d.intents, i.id = id
  | .order token => ∃ i ∈ d.intents, i.publicId = newId "ord" token
  | .transaction id => ∃ t ∈ d.transactions, t.id = id
  | .payment token => ∃ t ∈ d.transactions, t.publicId = newId "txn" token
  | .psp token => ∃ t ∈ d.transactions, t.pspReference = some (newId "psp" token)
  | .account id => ∃ a ∈ d.accounts, a.id = id
  | .entry id => ∃ e ∈ d.entries, e.id = id

/-- The merchant and the idempotency key of an order creation. -/
def Op.body : Op → Option (UUID × String)
  | .createOrder merchant payload _ => some (merchant.id, payload.idempotencyKey)
  | _ => none

/-- No two merchants use one idempotency key. -/
def OwnKeys (ops : List Op) : Prop :=
  ∀ op ∈ ops, ∀ op' ∈ ops, ∀ b ∈ op.body, ∀ b' ∈ op'.body, b.2 = b'.2 → b.1 = b'.1

instance (ops : List Op) : Decidable (OwnKeys ops) := inferInstanceAs (Decidable
  (∀ op ∈ ops, ∀ op' ∈ ops, ∀ b ∈ op.body, ∀ b' ∈ op'.body, b.2 = b'.2 → b.1 = b'.1))

/-- The balances are in range after the operation. -/
def Op.Fits : Op → Db → Prop
  | .processBankCallback c, d => Postable c d
  | _, _ => True

/-- The database is ready for the operations to come. -/
structure Ready (ops : List Op) (d : Db) : Prop where
  reachable : Reachable d
  distinct : (ops.flatMap Op.drawn).Nodup
  unused : ∀ op ∈ ops, ∀ x ∈ op.drawn, ¬ Used d x
  keys : OwnKeys ops
  owned : ∀ i ∈ d.intents, ∀ op ∈ ops, ∀ b ∈ op.body, b.2 = i.idempotencyKey → b.1 = i.merchantId

/-! ### One operation -/

/-- What an operation may do. -/
inductive Did : Op → Db → Db → Prop
  | nothing (op : Op) (d : Db) : Did op d d
  | ordered (merchant : Merchant) (payload : CreateOrderRequest) (ids : OrderIds) (d : Db) :
      Did (.createOrder merchant payload ids) d (withIntent merchant payload ids d)
  | initiated (merchant : Merchant) (payload : UpiInitiateRequest) (ids : InitiateIds) (d : Db)
      (i : PaymentIntent) (h : orderOf payload.orderId merchant.id d = some i) :
      Did (.initiateUpi merchant payload ids) d (withTransaction i payload ids d)
  | settled (c : BankCallback) (d : Db) (t : Transaction) (i : PaymentIntent)
      (h : Found c.pspReference t i d) (hs : Settling t i c.event c.amount) :
      Did (.processBankCallback c) d (settled t i c.event c.ids d)

variable {A : UUID} {op : Op} {ops : List Op} {d d' e : Db} {x : Drawn} {merchant : Merchant}
  {c : BankCallback} {t : Transaction} {i : PaymentIntent}

theorem Ready.unused_now (h : Ready (op :: ops) d) (hx : x ∈ op.drawn) : ¬ Used d x :=
  h.unused op List.mem_cons_self x hx

theorem Ready.newOrder {payload : CreateOrderRequest} {ids : OrderIds}
    (h : Ready (.createOrder merchant payload ids :: ops) d) : NewOrder ids d := fun i hi =>
  ⟨fun e => h.unused_now (x := .intent ids.intentId) (by simp [Op.drawn]) ⟨i, hi, e⟩,
    fun e => h.unused_now (x := .order ids.token) (by simp [Op.drawn]) ⟨i, hi, e⟩⟩

theorem Ready.ownKey {payload : CreateOrderRequest} {ids : OrderIds}
    (h : Ready (.createOrder merchant payload ids :: ops) d) : OwnKey merchant payload d :=
  fun i hi e => (h.owned i hi _ List.mem_cons_self _ rfl e.symm).symm

theorem Ready.newPayment {payload : UpiInitiateRequest} {ids : InitiateIds}
    (h : Ready (.initiateUpi merchant payload ids :: ops) d) : NewPayment ids d := fun t ht =>
  ⟨fun e => h.unused_now (x := .transaction ids.transactionId) (by simp [Op.drawn]) ⟨t, ht, e⟩,
    fun e => h.unused_now (x := .payment ids.token) (by simp [Op.drawn]) ⟨t, ht, e⟩⟩

theorem Ready.fresh (h : Ready (.processBankCallback c :: ops) d) : Fresh c.ids d := by
  have hnodup : (Op.drawn (.processBankCallback c)).Nodup := (List.nodup_append.mp h.distinct).1
  simp only [Op.drawn, accountIds, entryIds, List.map_cons, List.map_nil, List.cons_append,
    List.nil_append, List.nodup_cons, List.mem_cons, List.not_mem_nil, or_false, not_or,
    Drawn.account.injEq, Drawn.entry.injEq] at hnodup
  have hunused : ∀ x, x ∈ Op.drawn (.processBankCallback c) → ¬ Used d x := fun _ => h.unused_now
  refine ⟨fun a ha e => hunused (.account c.ids.payerAccountId) ?_ ⟨a, ha, e⟩,
    fun a ha e => hunused (.account c.ids.merchantAccountId) ?_ ⟨a, ha, e⟩, hnodup.1.1,
    fun x hx e => hunused (.entry c.ids.debitEntryId) ?_ ⟨x, hx, e⟩,
    fun x hx e => hunused (.entry c.ids.creditEntryId) ?_ ⟨x, hx, e⟩, hnodup.2.2.1⟩
  all_goals simp [Op.drawn, accountIds, entryIds]

theorem serve_createOrder_eq {payload : CreateOrderRequest} {ids : OrderIds}
    (h : Ready (.createOrder merchant payload ids :: ops) d) :
    (Op.createOrder merchant payload ids).serve d =
      (ordered merchant payload ids d).map (·.map .order) id :=
  congrArg (Prod.map (Except.map Reply.order) id)
    (serve_createOrder h.reachable.consistent.keys h.newOrder h.ownKey)

theorem serve_initiateUpi_eq {payload : UpiInitiateRequest} {ids : InitiateIds}
    (h : Ready (.initiateUpi merchant payload ids :: ops) d) :
    (Op.initiateUpi merchant payload ids).serve d =
      (initiated merchant payload ids d).map (·.map .payment) id :=
  congrArg (Prod.map (Except.map Reply.payment) id) (serve_initiateUpi h.reachable.consistent.keys
    h.reachable.consistent.coupled h.newPayment)

theorem serve_getOrder_eq (hd : Reachable d) (orderId : String) (merchant : Merchant) :
    (Op.getOrder orderId merchant).serve d = ((got orderId merchant.id d).map .order, d) :=
  congrArg (Prod.map (Except.map Reply.order) id) (serve_getOrder hd.consistent.keys orderId merchant)

theorem did_createOrder {payload : CreateOrderRequest} {ids : OrderIds}
    (h : Ready (.createOrder merchant payload ids :: ops) d) :
    Did (.createOrder merchant payload ids) d
      ((Op.createOrder merchant payload ids).serve d).2 := by
  rw [serve_createOrder_eq h]
  change Did _ d (ordered merchant payload ids d).2
  unfold ordered added
  cases replayOf payload.idempotencyKey merchant.id d with
  | some i => exact .nothing _ d
  | none =>
    dsimp only
    split_ifs
    · exact .ordered merchant payload ids d
    · exact .nothing _ d
    · exact .nothing _ d

theorem did_initiateUpi {payload : UpiInitiateRequest} {ids : InitiateIds}
    (h : Ready (.initiateUpi merchant payload ids :: ops) d) :
    Did (.initiateUpi merchant payload ids) d
      ((Op.initiateUpi merchant payload ids).serve d).2 := by
  rw [serve_initiateUpi_eq h]
  change Did _ d (initiated merchant payload ids d).2
  unfold initiated started
  cases hi : orderOf payload.orderId merchant.id d with
  | none => exact .nothing _ d
  | some i =>
    dsimp only
    by_cases hfinal : i.status ∈ [PaymentStatus.success, .failed]
    · rw [if_pos hfinal]
      exact .nothing _ d
    rw [if_neg hfinal]
    cases duplicateOf i.id payload.vpa d with
    | some t => exact .nothing _ d
    | none =>
      dsimp only
      cases assertIntentTransition i.status .processing with
      | error exc => exact .nothing _ d
      | ok u =>
        dsimp only
        split_ifs
        · exact .initiated merchant payload ids d i hi
        · exact .nothing _ d

theorem did_processBankCallback (h : Ready (.processBankCallback c :: ops) d)
    (hfit : Postable c d) : Did (.processBankCallback c) d (c.serve d).2 := by
  rw [serve_eq h.reachable h.fresh hfit]
  cases hl : (book d).lookup c.pspReference with
  | none => exact .nothing _ d
  | some ti =>
    dsimp only
    split_ifs with hs
    · exact .settled c d ti.1 ti.2 (found_of_lookup hl) hs
    · exact .nothing _ d

/-- **What one operation does.** -/
theorem did (h : Ready (op :: ops) d) (hfit : op.Fits d) : Did op d (op.serve d).2 := by
  cases op with
  | createOrder merchant payload ids => exact did_createOrder h
  | initiateUpi merchant payload ids => exact did_initiateUpi h
  | getOrder orderId merchant =>
    rw [serve_getOrder_eq h.reachable]
    exact .nothing _ d
  | processBankCallback c => exact did_processBankCallback h hfit

/-! ### The ids and keys to come -/

theorem intents_settled (t : Transaction) (i : PaymentIntent) (event : BankCallbackEvent)
    (ids : CallbackIds) (d : Db) : (settled t i event ids d).intents =
      d.intents.map (withStatus i.id (targetIntent event)) := by
  cases event <;> rfl

theorem transactions_settled (t : Transaction) (i : PaymentIntent) (event : BankCallbackEvent)
    (ids : CallbackIds) (d : Db) : (settled t i event ids d).transactions =
      d.transactions.map (withState t.id (targetTxn event)) := by
  cases event <;> rfl

/-- The ids of a table's rows are old, or drawn now, in each of the tables. -/
theorem used_cases {new : List Drawn} (hx : Used e x)
    (hi : ∀ j ∈ e.intents, (∃ i ∈ d.intents, i.id = j.id ∧ i.publicId = j.publicId) ∨
      .intent j.id ∈ new ∧ ∀ token, j.publicId = newId "ord" token → .order token ∈ new)
    (ht : ∀ u ∈ e.transactions,
      (∃ t ∈ d.transactions, t.id = u.id ∧ t.publicId = u.publicId ∧
        t.pspReference = u.pspReference) ∨
      .transaction u.id ∈ new ∧ (∀ token, u.publicId = newId "txn" token → .payment token ∈ new) ∧
        ∀ token, u.pspReference = some (newId "psp" token) → .psp token ∈ new)
    (ha : ∀ a ∈ e.accounts, (∃ b ∈ d.accounts, b.id = a.id) ∨ .account a.id ∈ new)
    (he : ∀ l ∈ e.entries, l ∈ d.entries ∨ .entry l.id ∈ new) : Used d x ∨ x ∈ new := by
  cases x with
  | intent id =>
    obtain ⟨j, hj, rfl⟩ := hx
    exact (hi j hj).imp (fun ⟨i, hi, hid, _⟩ => ⟨i, hi, hid⟩) fun h => h.1
  | order token =>
    obtain ⟨j, hj, hid⟩ := hx
    exact (hi j hj).imp (fun ⟨i, hi, _, hpub⟩ => ⟨i, hi, hpub.trans hid⟩) fun h => h.2 token hid
  | transaction id =>
    obtain ⟨u, hu, rfl⟩ := hx
    exact (ht u hu).imp (fun ⟨t, ht, hid, _⟩ => ⟨t, ht, hid⟩) fun h => h.1
  | payment token =>
    obtain ⟨u, hu, hid⟩ := hx
    exact (ht u hu).imp (fun ⟨t, ht, _, hpub, _⟩ => ⟨t, ht, hpub.trans hid⟩) fun h => h.2.1 token hid
  | psp token =>
    obtain ⟨u, hu, hid⟩ := hx
    exact (ht u hu).imp (fun ⟨t, ht, _, _, hpsp⟩ => ⟨t, ht, hpsp.trans hid⟩) fun h => h.2.2 token hid
  | account id =>
    obtain ⟨a, ha', rfl⟩ := hx
    exact ha a ha'
  | entry id =>
    obtain ⟨l, hl, rfl⟩ := hx
    exact (he l hl).imp_left fun hl => ⟨l, hl, rfl⟩

/-- A new status keeps the ids of the intents. -/
theorem ids_withStatus {id : UUID} {status : PaymentStatus} {j : PaymentIntent}
    (hj : j ∈ d.intents.map (withStatus id status)) :
    ∃ i ∈ d.intents, i.id = j.id ∧ i.publicId = j.publicId := by
  obtain ⟨i, hi, rfl⟩ := List.mem_map.mp hj
  exact ⟨i, hi, withStatus_id.symm, withStatus_publicId.symm⟩

/-- A new state keeps the ids of the transactions. -/
theorem ids_withState {id : UUID} {state : TransactionState} {u : Transaction}
    (hu : u ∈ d.transactions.map (withState id state)) : ∃ t ∈ d.transactions,
      t.id = u.id ∧ t.publicId = u.publicId ∧ t.pspReference = u.pspReference := by
  obtain ⟨t, ht, rfl⟩ := List.mem_map.mp hu
  exact ⟨t, ht, withState_id.symm, by rw [withState_eq], withState_pspReference.symm⟩

/-- The ids in the database are the old ones and those that the operation has drawn. -/
theorem Did.used (h : Did op d e) (hx : Used e x) : Used d x ∨ x ∈ op.drawn := by
  cases h with
  | nothing => exact .inl hx
  | ordered merchant payload ids =>
    refine used_cases hx (fun j hj => ?_) (fun t ht => .inl ⟨t, ht, rfl, rfl, rfl⟩)
      (fun a ha => .inl ⟨a, ha, rfl⟩) fun l hl => .inl hl
    rcases List.mem_append.mp hj with hj | hj
    · exact .inl ⟨j, hj, rfl, rfl⟩
    · rw [List.mem_singleton.mp hj]
      refine .inr ⟨List.mem_cons_self, fun token hid => ?_⟩
      rw [← newId_inj hid]
      exact List.mem_cons_of_mem _ List.mem_cons_self
  | initiated merchant payload ids _ i _ =>
    refine used_cases hx (fun j hj => .inl (ids_withStatus hj)) (fun u hu => ?_)
      (fun a ha => .inl ⟨a, ha, rfl⟩) fun l hl => .inl hl
    rcases List.mem_append.mp hu with hu | hu
    · exact .inl ⟨u, hu, rfl, rfl, rfl⟩
    · rw [List.mem_singleton.mp hu]
      refine .inr ⟨List.mem_cons_self, fun token hid => ?_, fun token hid => ?_⟩
      · rw [← newId_inj hid]
        exact List.mem_cons_of_mem _ List.mem_cons_self
      · rw [← newId_inj (Option.some.inj hid)]
        exact List.mem_cons_of_mem _ (List.mem_cons_of_mem _ List.mem_cons_self)
  | settled c _ t i =>
    refine used_cases hx (fun j hj => .inl (ids_withStatus (intents_settled _ _ _ _ _ ▸ hj)))
      (fun u hu => .inl (ids_withState (transactions_settled _ _ _ _ _ ▸ hu))) (fun a ha => ?_)
      fun l hl => ?_
    · exact (account_settled ha).imp_right fun ha =>
        List.mem_append_left _ (List.mem_map_of_mem ha)
    · exact (entry_settled hl).imp_right fun hl =>
        List.mem_append_right _ (List.mem_map_of_mem hl)

/-- A new intent has the merchant and the key of the order. -/
theorem Did.intents (h : Did op d e) {j : PaymentIntent} (hj : j ∈ e.intents) :
    (∃ i ∈ d.intents, i.id = j.id ∧ i.merchantId = j.merchantId ∧
      i.idempotencyKey = j.idempotencyKey) ∨ op.body = some (j.merchantId, j.idempotencyKey) := by
  have hmap : ∀ id status, j ∈ d.intents.map (withStatus id status) → ∃ i ∈ d.intents, i.id = j.id ∧
      i.merchantId = j.merchantId ∧ i.idempotencyKey = j.idempotencyKey := by
    intro id status hj
    obtain ⟨i, hi, rfl⟩ := List.mem_map.mp hj
    exact ⟨i, hi, withStatus_id.symm, withStatus_merchantId.symm, withStatus_idempotencyKey.symm⟩
  cases h with
  | nothing => exact .inl ⟨j, hj, rfl, rfl, rfl⟩
  | ordered merchant payload ids =>
    rcases List.mem_append.mp hj with hj | hj
    · exact .inl ⟨j, hj, rfl, rfl, rfl⟩
    · rw [List.mem_singleton.mp hj]
      exact .inr rfl
  | initiated => exact .inl (hmap _ _ hj)
  | settled => exact .inl (hmap _ _ (intents_settled _ _ _ _ _ ▸ hj))

theorem Ready.tail (h : Ready (op :: ops) d) : Ready ops d where
  reachable := h.reachable
  distinct := (List.nodup_append.mp h.distinct).2.1
  unused op' hop := h.unused op' (List.mem_cons_of_mem _ hop)
  keys op' hop op'' hop' := h.keys op' (List.mem_cons_of_mem _ hop) op'' (List.mem_cons_of_mem _ hop')
  owned i hi op' hop := h.owned i hi op' (List.mem_cons_of_mem _ hop)

theorem Ready.reachable_serve (h : Ready (op :: ops) d) : Reachable (op.serve d).2 := by
  cases op with
  | createOrder merchant payload ids =>
    exact h.reachable.step ⟨.createOrder merchant payload ids, trivial, rfl⟩
  | initiateUpi merchant payload ids =>
    refine h.reachable.step ⟨.initiateUpi merchant payload ids, fun t ht e => ?_, rfl⟩
    exact h.unused_now (x := .psp ids.pspToken) (by simp [Op.drawn]) ⟨t, ht, e⟩
  | getOrder orderId merchant =>
    rw [serve_getOrder_eq h.reachable]
    exact h.reachable
  | processBankCallback c => exact reachable_after h.reachable c

/-- **The next database is ready for the others.** -/
theorem Ready.step (h : Ready (op :: ops) d) (hfit : op.Fits d) : Ready ops (op.serve d).2 := by
  have hdid := did h hfit
  refine ⟨h.reachable_serve, h.tail.distinct, fun op' hop x hx hused => ?_, h.tail.keys,
    fun j hj op' hop b hb hk => ?_⟩
  · rcases hdid.used hused with hused | hdrawn
    · exact h.tail.unused op' hop x hx hused
    · exact (List.nodup_append.mp h.distinct).2.2 x hdrawn x (List.mem_flatMap.mpr ⟨op', hop, hx⟩) rfl
  · rcases hdid.intents hj with ⟨i, hi, -, hm, hkey⟩ | hbody
    · rw [← hm]
      exact h.tail.owned i hi op' hop b hb (hk.trans hkey.symm)
    · exact h.keys op' (List.mem_cons_of_mem _ hop) op List.mem_cons_self b hb _ hbody hk

/-! ### What is a merchant's -/

/-- The transaction is for an intent of the merchant. -/
def Owner (A : UUID) (intents : List PaymentIntent) (t : Transaction) : Prop :=
  ∃ i ∈ intents, i.id = t.intentId ∧ i.merchantId = A

instance (A : UUID) (intents : List PaymentIntent) : DecidablePred (Owner A intents) := fun t =>
  inferInstanceAs (Decidable (∃ i ∈ intents, i.id = t.intentId ∧ i.merchantId = A))

def intentsOf (A : UUID) (d : Db) : List PaymentIntent := d.intents.filter (·.merchantId = A)

def transactionsOf (A : UUID) (d : Db) : List Transaction :=
  d.transactions.filter (Owner A d.intents)

/-- The operation is another merchant's, or a callback for the payment of another merchant. -/
def Foreign (A : UUID) : Op → Db → Prop
  | .createOrder merchant _ _, _ => merchant.id ≠ A
  | .initiateUpi merchant _ _, _ => merchant.id ≠ A
  | .getOrder _ merchant, _ => merchant.id ≠ A
  | .processBankCallback c, d =>
    ∃ t ∈ d.transactions, t.pspReference = some c.pspReference ∧ ¬ Owner A d.intents t

instance (A : UUID) : (op : Op) → (d : Db) → Decidable (Foreign A op d)
  | .createOrder merchant _ _, _ => inferInstanceAs (Decidable (merchant.id ≠ A))
  | .initiateUpi merchant _ _, _ => inferInstanceAs (Decidable (merchant.id ≠ A))
  | .getOrder _ merchant, _ => inferInstanceAs (Decidable (merchant.id ≠ A))
  | .processBankCallback c, d => inferInstanceAs (Decidable
      (∃ t ∈ d.transactions, t.pspReference = some c.pspReference ∧ ¬ Owner A d.intents t))

/-- The database `d'` has what is the merchant's in `d`, and of the rest no more. -/
structure Same (A : UUID) (d d' : Db) : Prop where
  merchants : d'.merchants = d.merchants
  intents : d'.intents = intentsOf A d
  transactions : d'.transactions = transactionsOf A d
  account : accountAt (settlementKey A) d' = accountAt (settlementKey A) d
  entries : entriesAt (settlementKey A) d' = entriesAt (settlementKey A) d
  balances : Below (book d').balances (book d).balances

theorem same_empty (A : UUID) (ms : List Merchant) : Same A (Db.empty ms) (Db.empty ms) :=
  ⟨rfl, rfl, rfl, rfl, rfl, fun _ x hx => ⟨x, hx, le_rfl⟩⟩

/-- The owner of the transaction of an intent is the merchant of the intent. -/
theorem owner_iff (k : Keys d) (hi : i ∈ d.intents) (hit : i.id = t.intentId) :
    Owner A d.intents t ↔ i.merchantId = A := by
  refine ⟨fun ⟨j, hj, hjt, hm⟩ => ?_, fun hm => ⟨i, hi, hit, hm⟩⟩
  rwa [eq_of_key k.intents hi hj (hit.trans hjt.symm)]

/-- A new status does not change owners. -/
theorem owner_withStatus {id : UUID} {status : PaymentStatus} {intents : List PaymentIntent} :
    Owner A (intents.map (withStatus id status)) t ↔ Owner A intents t := by
  refine ⟨fun ⟨j', hj', hjt, hm⟩ => ?_, fun ⟨j, hj, hjt, hm⟩ => ?_⟩
  · obtain ⟨j, hj, rfl⟩ := List.mem_map.mp hj'
    exact ⟨j, hj, withStatus_id.symm.trans hjt, withStatus_merchantId.symm.trans hm⟩
  · exact ⟨_, List.mem_map_of_mem hj, withStatus_id.trans hjt, withStatus_merchantId.trans hm⟩

/-- Nor does a new intent. -/
theorem owner_withIntent {payload : CreateOrderRequest} {ids : OrderIds} (k : Keys d)
    (hnew : NewOrder ids d) (ht : t ∈ d.transactions) :
    Owner A (withIntent merchant payload ids d).intents t ↔ Owner A d.intents t := by
  refine ⟨fun ⟨j, hj, hjt, hm⟩ => ?_, fun ⟨j, hj, h⟩ => ⟨j, List.mem_append_left _ hj, h⟩⟩
  rcases List.mem_append.mp hj with hj | hj
  · exact ⟨j, hj, hjt, hm⟩
  · obtain ⟨i, hi, hit⟩ := k.intent_of t ht
    rw [List.mem_singleton.mp hj] at hjt
    exact absurd (hit.trans hjt.symm) (hnew i hi).1

/-! ### Operations of others -/

/-- The status of an intent of another merchant. -/
theorem intentsOf_withStatus (k : Keys d) (hi : i ∈ d.intents) (hm : i.merchantId ≠ A)
    (status : PaymentStatus) :
    (d.intents.map (withStatus i.id status)).filter (·.merchantId = A) = intentsOf A d :=
  filter_map_fixed (fun j _ => by rw [withStatus_merchantId]) fun j hj hA =>
    withStatus_of_ne fun e => hm (by rw [← eq_of_key k.intents hj hi e]; exact hA)

/-- The intent that the callback finds is another merchant's. -/
theorem foreign_found (hd : Reachable d) (hf : Found c.pspReference t i d)
    (hop : Foreign A (.processBankCallback c) d) : i.merchantId ≠ A := by
  obtain ⟨u, hu, hpsp, hnot⟩ := hop
  have hut : u = t := eq_of_key hd.pspUnique hu hf.txn (hpsp.trans hf.psp.symm)
  rw [hut, owner_iff hd.consistent.keys hf.intent hf.intentId] at hnot
  exact hnot

theorem Did.intentsOf (h : Did op d e) (hd : Reachable d) (hop : Foreign A op d) :
    intentsOf A e = intentsOf A d := by
  have k := hd.consistent.keys
  cases h with
  | nothing => rfl
  | ordered merchant payload ids =>
    exact filter_append_of_neg hop
  | initiated merchant payload ids _ i hi =>
    obtain ⟨hi, hm⟩ := mem_of_orderOf hi
    exact intentsOf_withStatus k hi (hm ▸ hop) _
  | settled c _ t i hf =>
    unfold Isolation.intentsOf
    rw [intents_settled]
    exact intentsOf_withStatus k hf.intent (foreign_found hd hf hop) _

theorem Did.transactionsOf (h : Did op d e) (hd : Ready (op :: ops) d) (hop : Foreign A op d) :
    transactionsOf A e = transactionsOf A d := by
  have k := hd.reachable.consistent.keys
  cases h with
  | nothing => rfl
  | ordered merchant payload ids =>
    exact List.filter_congr fun t ht => decide_eq_decide.mpr (owner_withIntent k hd.newOrder ht)
  | initiated merchant payload ids _ i hi =>
    obtain ⟨hi, hm⟩ := mem_of_orderOf hi
    have hrow : ¬ Owner A (d.intents.map (withStatus i.id .processing))
        (newTransaction i payload ids) := fun ho =>
      hop (hm.symm.trans ((owner_iff k hi rfl).mp (owner_withStatus.mp ho)))
    refine (filter_append_of_neg hrow).trans ?_
    exact List.filter_congr fun t _ => decide_eq_decide.mpr owner_withStatus
  | settled c _ t i hf =>
    have hm := foreign_found hd.reachable hf hop
    unfold Isolation.transactionsOf
    rw [intents_settled, transactions_settled]
    refine filter_map_fixed (fun u _ => ?_) fun u hu ho => withState_of_ne fun e => hm ?_
    · rw [owner_withStatus]
      unfold Owner
      rw [withState_intentId]
    · rw [eq_of_key k.transactions hu hf.txn e] at ho
      exact (owner_iff k hf.intent hf.intentId).mp ho

theorem payeeKey_eq_iff : payeeKey i = settlementKey A ↔ i.merchantId = A :=
  ⟨fun e => merchantIdentifier_inj (congrArg Prod.fst e), fun e => e ▸ rfl⟩

/-- **What another merchant's operation does is not seen.** -/
theorem Same.hidden (h : Same A d d') (hd : Ready (op :: ops) d) (hfit : op.Fits d)
    (hop : Foreign A op d) : Same A (op.serve d).2 d' := by
  have hdid := did hd hfit
  have hi := hdid.intentsOf hd.reachable hop
  have ht := hdid.transactionsOf hd hop
  have hc := hd.reachable.consistent
  have hrest : (op.serve d).2.merchants = d.merchants ∧
      accountAt (settlementKey A) (op.serve d).2 = accountAt (settlementKey A) d ∧
      entriesAt (settlementKey A) (op.serve d).2 = entriesAt (settlementKey A) d ∧
      Below (book d').balances (book (op.serve d).2).balances := by
    generalize (op.serve d).2 = e at hdid
    cases hdid with
    | nothing => exact ⟨rfl, rfl, rfl, h.balances⟩
    | ordered => exact ⟨rfl, rfl, rfl, h.balances⟩
    | initiated => exact ⟨rfl, rfl, rfl, h.balances⟩
    | settled c _ t i hf hs =>
      cases hev : c.event with
      | paymentFailed => exact ⟨rfl, rfl, rfl, h.balances⟩
      | paymentSuccess =>
        have hpayee : payeeKey i ≠ settlementKey A := fun e =>
          foreign_found hd.reachable hf hop (payeeKey_eq_iff.mp e)
        have hpayer := payerKey_ne_settlementKey A hc hf.txn
        refine ⟨rfl, ?_, ?_, ?_⟩
        · rw [accountAt_settled hc hf.txn hd.fresh, if_neg hpayee.symm, if_neg hpayer.symm]
        · rw [entriesAt_settled hc hf.txn hd.fresh, if_neg hpayer, if_neg hpayee, List.append_nil,
            List.append_nil]
        · rw [balances_settled hc hf.txn hd.fresh (hfit t i hf hs hev)]
          have hn := (hc.posted.amount_pos i hf.intent).le
          exact (h.balances.le_deposit _ hn).le_deposit _ hn
  obtain ⟨hm, ha, he, hb⟩ := hrest
  exact ⟨h.merchants.trans hm.symm, h.intents.trans hi.symm, h.transactions.trans ht.symm,
    h.account.trans ha.symm, h.entries.trans he.symm, hb⟩

/-! ### Operations of the merchant -/

theorem Same.replayOf (h : Same A d d') (key : String) : replayOf key A d' = replayOf key A d := by
  unfold Requests.replayOf
  rw [h.intents]
  exact find_filter fun i _ hc => hc.2

theorem Same.orderOf (h : Same A d d') (publicId : String) :
    orderOf publicId A d' = orderOf publicId A d := by
  unfold Requests.orderOf
  rw [h.intents]
  exact find_filter fun i _ hc => hc.2

theorem Same.duplicateOf (h : Same A d d') (hi : i ∈ d.intents) (hm : i.merchantId = A)
    (vpa : String) : duplicateOf i.id vpa d' = duplicateOf i.id vpa d := by
  unfold Requests.duplicateOf
  rw [h.transactions]
  exact find_filter fun t _ hc => ⟨i, hi, hc.1.symm, hm⟩

theorem Same.found {psp : String} (h : Same A d d') (hf : Found psp t i d) (hm : i.merchantId = A) :
    Found psp t i d' where
  txn := by
    rw [h.transactions]
    exact List.mem_filter.mpr ⟨hf.txn, decide_eq_true ⟨i, hf.intent, hf.intentId, hm⟩⟩
  psp := hf.psp
  intent := by
    rw [h.intents]
    exact List.mem_filter.mpr ⟨hf.intent, decide_eq_true hm⟩
  intentId := hf.intentId

/-- The intent that the callback finds is the merchant's. -/
theorem own_found (hd : Reachable d) (hf : Found c.pspReference t i d)
    (hop : ¬ Foreign A (.processBankCallback c) d) : i.merchantId = A := by
  by_contra hm
  refine hop ⟨t, hf.txn, hf.psp, fun ho => hm ?_⟩
  exact (owner_iff hd.consistent.keys hf.intent hf.intentId).mp ho

/-- A callback that is not for the payment of another finds the same. -/
theorem Same.lookup (h : Same A d d') (hd : Reachable d) (hd' : Reachable d')
    (hop : ¬ Foreign A (.processBankCallback c) d) :
    (book d').lookup c.pspReference = (book d).lookup c.pspReference := by
  cases hl : (book d).lookup c.pspReference with
  | some ti =>
    have hf : Found c.pspReference ti.1 ti.2 d := found_of_lookup hl
    exact lookup_of_found hd' (h.found hf (own_found hd hf hop))
  | none =>
    cases hl' : (book d').lookup c.pspReference with
    | none => rfl
    | some ti =>
      have hf : Found c.pspReference ti.1 ti.2 d' := found_of_lookup hl'
      have ht : ti.1 ∈ d.transactions := (List.mem_filter.mp (h.transactions ▸ hf.txn)).1
      obtain ⟨i, hf⟩ := exists_found hd ht hf.psp
      cases hl.symm.trans (lookup_of_found hd hf)

theorem Same.withIntent {payload : CreateOrderRequest} {ids : OrderIds} (h : Same A d d')
    (k : Keys d) (hnew : NewOrder ids d) (hm : merchant.id = A) :
    Same A (withIntent merchant payload ids d) (withIntent merchant payload ids d') where
  merchants := h.merchants
  intents := by
    have hrows : (d.intents ++ [orderRow merchant payload ids]).filter (·.merchantId = A) =
        intentsOf A d ++ [orderRow merchant payload ids] := filter_append_of_pos hm
    exact (congrArg (· ++ [orderRow merchant payload ids]) h.intents).trans hrows.symm
  transactions := h.transactions.trans
    (List.filter_congr fun t ht => decide_eq_decide.mpr (owner_withIntent k hnew ht).symm)
  account := h.account
  entries := h.entries
  balances := h.balances

theorem Same.withTransaction {payload : UpiInitiateRequest} {ids : InitiateIds} (h : Same A d d')
    (hi : i ∈ d.intents) (hm : i.merchantId = A) :
    Same A (withTransaction i payload ids d) (withTransaction i payload ids d') where
  merchants := h.merchants
  intents := by
    refine Eq.trans ?_ (filter_map_class fun j _ => by rw [withStatus_merchantId]).symm
    exact congrArg (List.map _) h.intents
  transactions := by
    have hrow : Owner A (d.intents.map (withStatus i.id .processing))
        (newTransaction i payload ids) := owner_withStatus.mpr ⟨i, hi, rfl, hm⟩
    refine Eq.trans ?_ (filter_append_of_pos hrow).symm
    refine congrArg (· ++ [newTransaction i payload ids]) (h.transactions.trans ?_)
    exact List.filter_congr fun t _ => decide_eq_decide.mpr owner_withStatus.symm
  account := h.account
  entries := h.entries
  balances := h.balances

theorem Same.settled (h : Same A d d') (hd : Ready (.processBankCallback c :: ops) d)
    (hd' : Ready (.processBankCallback c :: ops) d') (hf : Found c.pspReference t i d)
    (hm : i.merchantId = A) (hr : c.event = .paymentSuccess → InRange t i d)
    (hr' : c.event = .paymentSuccess → InRange t i d') :
    Same A (settled t i c.event c.ids d) (settled t i c.event c.ids d') := by
  have hc := hd.reachable.consistent
  have hc' := hd'.reachable.consistent
  have hf' := h.found hf hm
  have hkey : payeeKey i = settlementKey A := payeeKey_eq_iff.mpr hm
  have haccount :
      accountOf (payeeRow i c.ids) d'.accounts = accountOf (payeeRow i c.ids) d.accounts := by
    have := h.account
    rw [← hkey] at this
    exact congrArg (Option.getD · (payeeRow i c.ids)) this
  have hintents : (Callback.settled t i c.event c.ids d').intents =
      intentsOf A (Callback.settled t i c.event c.ids d) := by
    unfold intentsOf
    rw [intents_settled, intents_settled, h.intents]
    exact (filter_map_class fun j _ => by rw [withStatus_merchantId]).symm
  have htransactions : (Callback.settled t i c.event c.ids d').transactions =
      transactionsOf A (Callback.settled t i c.event c.ids d) := by
    unfold transactionsOf
    rw [transactions_settled, transactions_settled, intents_settled, h.transactions]
    refine (filter_map_class fun u _ => ?_).symm
    rw [owner_withStatus]
    unfold Owner
    rw [withState_intentId]
  have hbalances : Below (book (Callback.settled t i c.event c.ids d')).balances
      (book (Callback.settled t i c.event c.ids d)).balances := by
    rw [book_settled hc hf.txn fun he => ⟨hd.fresh, hr he⟩,
      book_settled hc' hf'.txn fun he => ⟨hd'.fresh, hr' he⟩]
    exact h.balances.settle (sound_book hd.reachable) hf.intent
  refine ⟨?_, hintents, htransactions, ?_, ?_, hbalances⟩
  all_goals cases hev : c.event
  · exact h.merchants
  · exact h.merchants
  · rw [accountAt_settled hc hf.txn hd.fresh, accountAt_settled hc' hf'.txn hd'.fresh,
      if_pos hkey.symm, if_pos hkey.symm, haccount]
  · exact h.account
  · rw [entriesAt_settled hc hf.txn hd.fresh, entriesAt_settled hc' hf'.txn hd'.fresh, h.entries,
      if_neg (payerKey_ne_settlementKey A hc hf.txn),
      if_neg (payerKey_ne_settlementKey A hc hf.txn), if_pos hkey, if_pos hkey]
    unfold creditOf
    rw [haccount]
  · exact h.entries

/-- What fits the database fits where the balances are less. -/
theorem Same.postable (h : Same A d d') (hd : Ready (.processBankCallback c :: ops) d)
    (hd' : Reachable d') (hfit : Postable c d) (hop : ¬ Foreign A (.processBankCallback c) d) :
    Postable c d' := by
  refine postable_of_fits hd' ?_
  have hbelow : Below ((book d').serve c).2.balances ((book d).serve c).2.balances := by
    rw [serve_snd, serve_snd, h.lookup hd.reachable hd' hop]
    unfold Book.applied
    cases hl : (book d).lookup c.pspReference with
    | none => exact h.balances
    | some ti =>
      have hf : Found c.pspReference ti.1 ti.2 d := found_of_lookup hl
      dsimp only
      split_ifs
      · exact h.balances.settle (sound_book hd.reachable) hf.intent
      · exact h.balances
  intro key x hx
  obtain ⟨y, hy, hxy⟩ := hbelow key x hx
  rw [← (serve_book hd.reachable hd.fresh hfit).2] at hy
  exact hxy.trans_lt (fits_book _ key y hy)

/-- The merchant creates an order. -/
theorem Same.seen_createOrder (h : Same A d d') {payload : CreateOrderRequest} {ids : OrderIds}
    (hd : Ready (.createOrder merchant payload ids :: ops) d)
    (hd' : Ready (.createOrder merchant payload ids :: ops) d') (hm : merchant.id = A) :
    ((Op.createOrder merchant payload ids).serve d).1 =
        ((Op.createOrder merchant payload ids).serve d').1 ∧
      Same A ((Op.createOrder merchant payload ids).serve d).2
        ((Op.createOrder merchant payload ids).serve d').2 := by
  rw [serve_createOrder_eq hd, serve_createOrder_eq hd']
  unfold ordered added
  rw [hm, h.replayOf, h.merchants]
  cases Requests.replayOf payload.idempotencyKey A d with
  | some i => exact ⟨rfl, h⟩
  | none =>
    dsimp only
    split_ifs
    · exact ⟨rfl, h.withIntent hd.reachable.consistent.keys hd.newOrder hm⟩
    · exact ⟨rfl, h⟩
    · exact ⟨rfl, h⟩

/-- The merchant starts a payment. -/
theorem Same.seen_initiateUpi (h : Same A d d') {payload : UpiInitiateRequest} {ids : InitiateIds}
    (hd : Ready (.initiateUpi merchant payload ids :: ops) d)
    (hd' : Ready (.initiateUpi merchant payload ids :: ops) d') (hm : merchant.id = A) :
    ((Op.initiateUpi merchant payload ids).serve d).1 =
        ((Op.initiateUpi merchant payload ids).serve d').1 ∧
      Same A ((Op.initiateUpi merchant payload ids).serve d).2
        ((Op.initiateUpi merchant payload ids).serve d').2 := by
  rw [serve_initiateUpi_eq hd, serve_initiateUpi_eq hd']
  unfold initiated started
  rw [hm, h.orderOf]
  cases hi : Requests.orderOf payload.orderId A d with
  | none => exact ⟨rfl, h⟩
  | some i =>
    obtain ⟨hi, him⟩ := mem_of_orderOf hi
    dsimp only
    rw [h.duplicateOf hi him]
    by_cases hfinal : i.status ∈ [PaymentStatus.success, .failed]
    · rw [if_pos hfinal, if_pos hfinal]
      exact ⟨rfl, h⟩
    rw [if_neg hfinal, if_neg hfinal]
    cases Requests.duplicateOf i.id payload.vpa d with
    | some t => exact ⟨rfl, h⟩
    | none =>
      dsimp only
      cases assertIntentTransition i.status .processing with
      | error exc => exact ⟨rfl, h⟩
      | ok u =>
        dsimp only
        split_ifs
        · exact ⟨rfl, h.withTransaction hi him⟩
        · exact ⟨rfl, h⟩

/-- A callback comes for a payment of the merchant, or for none. -/
theorem Same.seen_processBankCallback (h : Same A d d')
    (hd : Ready (.processBankCallback c :: ops) d) (hd' : Ready (.processBankCallback c :: ops) d')
    (hfit : Postable c d) (hfit' : Postable c d') (hop : ¬ Foreign A (.processBankCallback c) d) :
    (c.serve d).1 = (c.serve d').1 ∧ Same A (c.serve d).2 (c.serve d').2 := by
  rw [serve_eq hd.reachable hd.fresh hfit, serve_eq hd'.reachable hd'.fresh hfit',
    h.lookup hd.reachable hd'.reachable hop]
  cases hl : (book d).lookup c.pspReference with
  | none => exact ⟨rfl, h⟩
  | some ti =>
    have hf : Found c.pspReference ti.1 ti.2 d := found_of_lookup hl
    have hm := own_found hd.reachable hf hop
    dsimp only
    split_ifs with hs
    · exact ⟨rfl, h.settled hd hd' hf hm (hfit _ _ hf hs) (hfit' _ _ (h.found hf hm) hs)⟩
    · exact ⟨rfl, h⟩

/-- **An operation of the merchant does the same.** -/
theorem Same.seen (h : Same A d d') (hd : Ready (op :: ops) d) (hd' : Ready (op :: ops) d')
    (hfit : op.Fits d) (hop : ¬ Foreign A op d) :
    (op.serve d).1 = (op.serve d').1 ∧ Same A (op.serve d).2 (op.serve d').2 ∧ op.Fits d' := by
  cases op with
  | createOrder merchant payload ids =>
    obtain ⟨hanswer, hsame⟩ := h.seen_createOrder hd hd' (not_not.mp hop)
    exact ⟨hanswer, hsame, trivial⟩
  | initiateUpi merchant payload ids =>
    obtain ⟨hanswer, hsame⟩ := h.seen_initiateUpi hd hd' (not_not.mp hop)
    exact ⟨hanswer, hsame, trivial⟩
  | getOrder orderId merchant =>
    have hm : merchant.id = A := not_not.mp hop
    rw [serve_getOrder_eq hd.reachable, serve_getOrder_eq hd'.reachable]
    unfold got
    rw [hm, h.orderOf]
    exact ⟨rfl, h, trivial⟩
  | processBankCallback c =>
    have hfit' := h.postable hd hd'.reachable hfit hop
    obtain ⟨hanswer, hsame⟩ := h.seen_processBankCallback hd hd' hfit hfit' hop
    exact ⟨congrArg (Except.map Reply.callback) hanswer, hsame, hfit'⟩

/-! ### Two runs -/

/-- The full run, and the one without the operations of others. -/
structure Related (A : UUID) (ops : List Op) (d d' : Db) : Prop where
  ready : Ready ops d
  ready' : Ready ops d'
  fits : Along Op.serve Op.Fits ops d
  same : Same A d d'

/-- **A merchant is oblivious of the others.** -/
theorem oblivious (A : UUID) : Oblivious Op.serve (Foreign A) (Related A) where
  hidden _ _ _ _ h hop := ⟨h.ready.step h.fits.1, h.ready'.tail, h.fits.2,
    h.same.hidden h.ready h.fits.1 hop⟩
  seen _ _ _ _ h hop := by
    obtain ⟨hanswer, hsame, hfit⟩ := h.same.seen h.ready h.ready' h.fits.1 hop
    exact ⟨hanswer, h.ready.step h.fits.1, h.ready'.step hfit, h.fits.2, hsame⟩

theorem ready_empty (ms : List Merchant) (hids : (ops.flatMap Op.drawn).Nodup)
    (hkeys : OwnKeys ops) : Ready ops (Db.empty ms) where
  reachable := reachable_empty ms
  distinct := hids
  unused _ _ x _ hx := by
    cases x <;> obtain ⟨_, h, -⟩ := hx <;> cases h
  keys := hkeys
  owned _ hi := by cases hi

/-- What is the merchant's is the same in both. -/
theorem Same.views (h : Same A d d') :
    intentsOf A d' = intentsOf A d ∧ transactionsOf A d' = transactionsOf A d := by
  refine ⟨?_, ?_⟩
  · unfold intentsOf
    rw [h.intents]
    exact List.filter_eq_self.mpr fun i hi => (List.mem_filter.mp hi).2
  · unfold transactionsOf
    rw [h.intents, h.transactions]
    refine List.filter_eq_self.mpr fun t ht => decide_eq_true ?_
    obtain ⟨i, hi, hit, hm⟩ := of_decide_eq_true (List.mem_filter.mp ht).2
    exact ⟨i, List.mem_filter.mpr ⟨hi, decide_eq_true hm⟩, hit, hm⟩

end PaymentGateway.Runs.Isolation
