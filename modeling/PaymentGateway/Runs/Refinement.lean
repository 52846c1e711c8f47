import PaymentGateway.Results.Balances
import PaymentGateway.Specs.Storefront

/-! # The database refines the shop

One operation after another, a reachable database is answered as the shop that it stands for, and
stands for the shop after it. -/

namespace PaymentGateway.Runs.Refinement

open PaymentGateway.Core.Ids PaymentGateway.Models PaymentGateway.Schemas
open PaymentGateway.Lib.DecimalArith PaymentGateway.Lib.Tables PaymentGateway.Lib.Calls
open PaymentGateway.Db.Statements PaymentGateway.Services.Order PaymentGateway.Services.Payment
open PaymentGateway.Services.Webhook PaymentGateway.Services.StateMachine
open PaymentGateway.State.Changes PaymentGateway.State.Invariant PaymentGateway.Runs.Serial
open PaymentGateway.Runs.Isolation PaymentGateway.Specs.Callback PaymentGateway.Specs.Books
open PaymentGateway.Specs.Requests PaymentGateway.Specs.Storefront PaymentGateway.Outlines.Webhook
open PaymentGateway.State.Payments PaymentGateway.Results.Balances PaymentGateway.Specs

variable {d d' : Db} {i j : PaymentIntent} {t : Transaction} {merchant : Merchant}

/-! ### The stage of an order -/

theorem transactionOf_eq (c : Coupled d) (ht : t ∈ d.transactions) (hit : t.intentId = i.id) :
    transactionOf d i = some t := by
  have hfind : d.transactions.find? (·.intentId = t.intentId) = some t := find_key c.one ht
  rw [hit] at hfind
  exact hfind

theorem mem_of_transactionOf (h : transactionOf d i = some t) :
    t ∈ d.transactions ∧ t.intentId = i.id :=
  ⟨List.mem_of_find?_eq_some h, of_decide_eq_true (List.find?_some h :)⟩

/-- The stage says what the status does, and what the state of the transaction does. -/
inductive Staged (d : Db) (i : PaymentIntent) : Prop
  | created (hs : i.status = .created) (ht : transactionOf d i = none)
  | processing (t : Transaction) (hs : i.status = .processing) (ht : transactionOf d i = some t)
      (hstate : t.state = .pending)
  | ended (t : Transaction) (event : BankCallbackEvent) (hs : i.status = targetIntent event)
      (ht : transactionOf d i = some t) (hstate : t.state = targetTxn event)

theorem staged (c : Coupled d) (hi : i ∈ d.intents) : Staged d i := by
  cases ht : transactionOf d i with
  | none =>
    refine .created ((c.created_iff i hi).mpr fun t ht' he => ?_) ht
    rw [transactionOf_eq c ht' he] at ht
    cases ht
  | some t =>
    obtain ⟨hmem, hid⟩ := mem_of_transactionOf ht
    rcases c.pair t hmem i hi hid.symm with ⟨hs, hstate⟩ | ⟨hs, hstate⟩ | ⟨hs, hstate⟩
    · exact .processing t hs ht hstate
    · exact .ended t .paymentSuccess hs ht hstate
    · exact .ended t .paymentFailed hs ht hstate

theorem stageOf_pending (h : t.state = .pending) : stageOf (some t) = .processing (paymentOf t) := by
  unfold stageOf
  dsimp only
  rw [h]

theorem stageOf_target {event : BankCallbackEvent} (h : t.state = targetTxn event) :
    stageOf (some t) = .ended event (paymentOf t) := by
  unfold stageOf
  dsimp only
  cases event <;> rw [h] <;> rfl

theorem status_asOrder (c : Coupled d) (hi : i ∈ d.intents) : (asOrder d i).status = i.status := by
  unfold asOrder Order.status
  cases staged c hi with
  | created hs ht => rw [ht, hs]; rfl
  | processing t hs ht hstate => rw [ht, hs, stageOf_pending hstate]
  | ended t event hs ht hstate => rw [ht, hs, stageOf_target hstate]

theorem response_asOrder (c : Coupled d) (hi : i ∈ d.intents) :
    (asOrder d i).response = orderResponse i := by
  unfold Order.response orderResponse
  rw [status_asOrder c hi]
  rfl

/-- The orders are found as the intents are. -/
theorem find_orders {q : Order → Prop} [DecidablePred q] {p : PaymentIntent → Prop}
    [DecidablePred p] (h : ∀ i, q (asOrder d i) ↔ p i) :
    (shopOf d).orders.find? (fun o => q o) = (d.intents.find? fun i => p i).map (asOrder d) := by
  change (d.intents.map (asOrder d)).find? _ = _
  rw [List.find?_map]
  have hsame : ((fun o => decide (q o)) ∘ asOrder d) = fun i => decide (p i) :=
    funext fun i => decide_eq_decide.mpr (h i)
  rw [hsame]

/-- A new status for one intent, and a new stage for one order. -/
theorem shopOf_advance (k : Keys d) (hi : i ∈ d.intents) {status : PaymentStatus} {stage : Stage}
    (hmerchants : d'.merchants = d.merchants)
    (hintents : d'.intents = d.intents.map (withStatus i.id status))
    (hself : stageOf (transactionOf d' i) = stage)
    (hother : ∀ j ∈ d.intents, j.id ≠ i.id → transactionOf d' j = transactionOf d j) :
    shopOf d' = (shopOf d).advance i.id stage := by
  have hrow : ∀ j ∈ d.intents, asOrder d' (withStatus i.id status j) =
      if (asOrder d j).id = i.id then { asOrder d j with stage } else asOrder d j := by
    intro j hj
    by_cases hid : j.id = i.id
    · obtain rfl := eq_of_key k.intents hj hi hid
      have hself' : (asOrder d j).id = j.id := rfl
      rw [withStatus_self, if_pos hself', ← hself]
      rfl
    · have hid' : ¬ (asOrder d j).id = i.id := hid
      rw [withStatus_of_ne hid, if_neg hid']
      unfold asOrder
      rw [hother j hj hid]
  unfold shopOf Shop.advance
  rw [hmerchants, hintents, List.map_map, List.map_map]
  exact congrArg _ (List.map_congr_left hrow)

/-! ### The operations of a merchant -/

section Order

variable {payload : CreateOrderRequest} {ids : OrderIds}

/-- No transaction is of an intent that is new. -/
theorem transactionOf_new (k : Keys d) (hnew : ∀ i ∈ d.intents, i.id ≠ j.id) :
    transactionOf d j = none := by
  refine List.find?_eq_none.mpr fun t ht he => ?_
  obtain ⟨i, hi, hit⟩ := k.intent_of t ht
  exact hnew i hi (hit.trans (of_decide_eq_true he))

theorem shopOf_withIntent (k : Keys d) (hnew : NewOrder ids d) :
    shopOf (withIntent merchant payload ids d) = { shopOf d with
      orders := (shopOf d).orders ++ [⟨ids.intentId, newId "ord" ids.token, merchant.id,
        amountOf payload, payload.currency, payload.idempotencyKey, payload.description,
        .created⟩] } := by
  have hnone : transactionOf d (orderRow merchant payload ids) = none :=
    transactionOf_new k fun i hi => (hnew i hi).1
  have hrow : asOrder d (orderRow merchant payload ids) = ⟨ids.intentId, newId "ord" ids.token,
      merchant.id, amountOf payload, payload.currency, payload.idempotencyKey, payload.description,
      .created⟩ := by
    unfold asOrder
    rw [hnone]
    rfl
  unfold shopOf
  rw [← hrow]
  exact congrArg _ List.map_append

/-- With new ids, only the key can be in the way. -/
theorem unclaimed_iff (hnew : NewOrder ids d) : Unclaimed payload ids d ↔
    ∀ o ∈ (shopOf d).orders, o.idempotencyKey ≠ payload.idempotencyKey := by
  refine ⟨fun h o ho => ?_, fun h i hi => ⟨(hnew i hi).1, (hnew i hi).2, ?_⟩⟩
  · obtain ⟨i, hi, rfl⟩ := List.mem_map.mp ho
    exact (h i hi).2.2
  · exact h (asOrder d i) (List.mem_map_of_mem hi)

/-- **`create_order`** does to the shop what it should. -/
theorem create_refines (merchant : Merchant) (payload : CreateOrderRequest) (k : Keys d)
    (c : Coupled d) (hnew : NewOrder ids d) :
    (database.serve (createOrder merchant payload ids) d).1 =
        ((shopOf d).create merchant payload ids).1 ∧
      shopOf (database.serve (createOrder merchant payload ids) d).2 =
        ((shopOf d).create merchant payload ids).2 := by
  have hfind : (shopOf d).orders.find? (fun o => o.idempotencyKey = payload.idempotencyKey ∧
      o.merchantId = merchant.id) =
      (replayOf payload.idempotencyKey merchant.id d).map (asOrder d) :=
    find_orders fun i => Iff.rfl
  have hmerchant : merchant.id ∈ (shopOf d).merchants ↔ ∃ m ∈ d.merchants, m.id = merchant.id :=
    List.mem_map
  rw [Requests.serve_createOrder_eq k]
  unfold Shop.create
  rw [hfind]
  cases hr : replayOf payload.idempotencyKey merchant.id d with
  | some i =>
    have hi : i ∈ d.intents := List.mem_of_find?_eq_some hr
    exact ⟨congrArg Except.ok (response_asOrder c hi).symm, rfl⟩
  | none =>
    unfold attempted
    dsimp only [Option.map_none]
    simp only [hmerchant, unclaimed_iff hnew]
    split_ifs
    · exact ⟨rfl, shopOf_withIntent k hnew⟩
    · exact ⟨rfl, rfl⟩
    · exact ⟨rfl, rfl⟩

end Order

/-- **`get_order`** reads it from the shop. -/
theorem get_refines (c : Coupled d) (orderId : String) (merchant : Merchant) :
    got orderId merchant.id d = (shopOf d).get orderId merchant := by
  have hfind : (shopOf d).orders.find? (fun o => o.publicId = orderId ∧
      o.merchantId = merchant.id) = (orderOf orderId merchant.id d).map (asOrder d) :=
    find_orders fun i => Iff.rfl
  unfold got Shop.get
  rw [hfind]
  cases ho : orderOf orderId merchant.id d with
  | none => rfl
  | some i => exact congrArg Except.ok (response_asOrder c (mem_of_orderOf ho).1).symm

/-! ### The payment of an order -/

section Payment

variable {payload : UpiInitiateRequest} {ids : InitiateIds}

/-- An initiation repeats the payment of the order, if that is from the same vpa. -/
theorem duplicateOf_eq (c : Coupled d) (vpa : String) : duplicateOf i.id vpa d =
    (transactionOf d i).filter fun t => t.vpa = vpa ∧ t.paymentMethod = .upi := by
  unfold duplicateOf
  cases ht : transactionOf d i with
  | none =>
    refine List.find?_eq_none.mpr fun t hmem he => ?_
    have hid : t.intentId = i.id := (of_decide_eq_true he).1
    rw [transactionOf_eq c hmem hid] at ht
    cases ht
  | some t =>
    obtain ⟨hmem, hid⟩ := mem_of_transactionOf ht
    by_cases hc : t.vpa = vpa ∧ t.paymentMethod = .upi
    · rw [Option.filter_some, if_pos (by simpa using hc)]
      exact find_unique c.one hmem ⟨hid, hc⟩ fun u _ hu => hu.1.trans hid.symm
    · rw [Option.filter_some, if_neg (by simpa using hc)]
      refine List.find?_eq_none.mpr fun u hu he => hc ?_
      obtain ⟨huid, hvpa⟩ := of_decide_eq_true he
      rw [eq_of_key c.one hmem hu (hid.trans huid.symm)]
      exact hvpa

theorem shopOf_withTransaction (k : Keys d) (hi : i ∈ d.intents) (hnone : transactionOf d i = none) :
    shopOf (withTransaction i payload ids d) =
      (shopOf d).advance i.id (.processing (newPayment payload ids)) := by
  refine shopOf_advance k hi rfl rfl ?_ fun j hj hid => ?_
  · have hnew : transactionOf (withTransaction i payload ids d) i =
        some (newTransaction i payload ids) := by
      change (d.transactions ++ [newTransaction i payload ids]).find? _ = _
      rw [List.find?_append, show d.transactions.find? _ = none from hnone]
      simp [newTransaction]
    rw [hnew]
    rfl
  · change (d.transactions ++ [newTransaction i payload ids]).find? _ = d.transactions.find? _
    rw [List.find?_append]
    simp [newTransaction, Ne.symm hid]

/-- **`initiate_upi`** does to the shop what it should. -/
theorem initiate_refines (merchant : Merchant) (payload : UpiInitiateRequest) (ids : InitiateIds)
    (k : Keys d) (c : Coupled d) :
    (initiated merchant payload ids d).1 = ((shopOf d).initiate merchant payload ids).1 ∧
      shopOf (initiated merchant payload ids d).2 =
        ((shopOf d).initiate merchant payload ids).2 := by
  have hfind : (shopOf d).orders.find? (fun o => o.publicId = payload.orderId ∧
      o.merchantId = merchant.id) = (orderOf payload.orderId merchant.id d).map (asOrder d) :=
    find_orders fun i => Iff.rfl
  unfold initiated Shop.initiate
  rw [hfind]
  cases ho : orderOf payload.orderId merchant.id d with
  | none => exact ⟨rfl, rfl⟩
  | some i =>
    have hi := (mem_of_orderOf ho).1
    have hstage : (asOrder d i).stage = stageOf (transactionOf d i) := rfl
    dsimp only [Option.map_some]
    rw [duplicateOf_eq c, hstage]
    cases staged c hi with
    | created hs ht =>
      rw [ht, hs, if_neg (by decide)]
      dsimp only [Option.filter_none, stageOf]
      unfold started
      rw [hs, show assertIntentTransition .created .processing = .ok () from rfl]
      dsimp only
      split_ifs
      · exact ⟨rfl, shopOf_withTransaction k hi ht⟩
      · exact ⟨rfl, rfl⟩
    | processing t hs ht hstate =>
      rw [ht, hs, if_neg (by decide), stageOf_pending hstate]
      dsimp only [paymentOf]
      by_cases hc : t.vpa = payload.vpa ∧ t.paymentMethod = .upi
      · rw [Option.filter_some, if_pos (by simpa using hc), if_pos hc]
        exact ⟨rfl, rfl⟩
      · rw [Option.filter_some, if_neg (by simpa using hc), if_neg hc]
        unfold started
        rw [hs]
        exact ⟨rfl, rfl⟩
    | ended t event hs ht hstate =>
      have hfinal : i.status ∈ [PaymentStatus.success, .failed] := by
        rw [hs]
        cases event <;> decide
      rw [ht, if_pos hfinal, stageOf_target hstate, hs]
      exact ⟨rfl, rfl⟩

end Payment

/-! ### What the ledger has -/

section Balance

variable {holder : Holder} {a : LedgerAccount} {vpa : String} {m : UUID}

/-- The orders that are paid are the intents that succeeded. -/
theorem pays_asOrder (c : Coupled d) (hi : i ∈ d.intents) :
    (asOrder d i).stage.Pays holder i.merchantId ↔ i.status = .success ∧
      ∃ t, transactionOf d i = some t ∧ (holder = .payer t.vpa ∨ holder = .merchant i.merchantId) := by
  change (stageOf (transactionOf d i)).Pays holder i.merchantId ↔ _
  cases staged c hi with
  | created hs ht => simp [ht, stageOf, Stage.Pays]
  | processing t hs ht hstate => simp [ht, hs, stageOf_pending hstate, Stage.Pays]
  | ended t event hs ht hstate =>
    cases event <;> simp [ht, hs, stageOf_target hstate, Stage.Pays, targetIntent, paymentOf]

theorem balance_shopOf {p : PaymentIntent → Prop} [DecidablePred p]
    (h : ∀ i ∈ d.intents, (asOrder d i).stage.Pays holder i.merchantId ↔ i.status = .success ∧ p i) :
    (shopOf d).balance holder = paid p d := by
  unfold Shop.balance paid
  change (((d.intents.map (asOrder d)).filter _).map _).sum = _
  rw [List.filter_map, List.map_map]
  have hsame : d.intents.filter ((fun o => decide (o.stage.Pays holder o.merchantId)) ∘ asOrder d) =
      d.intents.filter fun i => i.status = .success ∧ p i :=
    List.filter_congr fun i hi => decide_eq_decide.mpr (h i hi)
  rw [hsame]
  rfl

theorem balance_payer (c : Coupled d) : (shopOf d).balance (.payer vpa) = paidFrom vpa d := by
  refine balance_shopOf fun i hi => (pays_asOrder c hi).trans (and_congr_right fun _ => ?_)
  refine ⟨fun ⟨t, ht, hp⟩ => ?_, fun ⟨t, ht, hti, hv⟩ =>
    ⟨t, transactionOf_eq c ht hti, .inl (congrArg Holder.payer hv.symm)⟩⟩
  obtain ⟨hmem, hid⟩ := mem_of_transactionOf ht
  rcases hp with hp | hp
  · exact ⟨t, hmem, hid, (Holder.payer.inj hp).symm⟩
  · cases hp

theorem balance_merchant (c : Coupled d) : (shopOf d).balance (.merchant m) = paidTo m d := by
  refine balance_shopOf fun i hi => (pays_asOrder c hi).trans (and_congr_right fun hs => ?_)
  refine ⟨fun ⟨t, _, hp⟩ => ?_, fun hm => ?_⟩
  · rcases hp with hp | hp
    · cases hp
    · exact (Holder.merchant.inj hp).symm
  · cases staged c hi with
    | created hs' => cases hs.symm.trans hs'
    | processing t hs' => cases hs.symm.trans hs'
    | ended t event _ ht => exact ⟨t, ht, .inr (congrArg Holder.merchant hm.symm)⟩

/-- The accounts of a holder are alike in what they stand for. -/
theorem owed_of_owns (c : Coupled d) (h : holder.Owns a) :
    owed a d = (shopOf d).balance holder := by
  cases holder with
  | payer vpa => rw [owed_payer h.1, h.2, balance_payer c]
  | merchant m => rw [owed_payee h.1 h.2, balance_merchant c]

/-- **The ledger has what the shop says.** -/
theorem balanceOf_eq (hd : Reachable d) (holder : Holder) :
    balanceOf holder d = (shopOf d).balance holder := by
  have hf := funded hd
  have hc := hd.consistent.coupled
  unfold balanceOf
  cases hfind : d.accounts.find? fun a => holder.Owns a with
  | some a =>
    have howns : holder.Owns a := of_decide_eq_true (List.find?_some hfind :)
    exact (hf.balance a (List.mem_of_find?_eq_some hfind)).trans (owed_of_owns hc howns)
  | none =>
    refine Eq.trans (hf.none holder.opened fun b hb htype hident => ?_).symm
      (owed_of_owns hc holder.owns_opened)
    exact List.find?_eq_none.mp hfind b hb (decide_eq_true (Holder.owns_iff.mpr ⟨htype, hident⟩))

/-- The accounts have room where the balances stay in range. -/
theorem hasRoom_iff (hd : Reachable d) (ids : CallbackIds) (ht : t ∈ d.transactions)
    (hi : i ∈ d.intents) :
    (shopOf d).HasRoom (paymentOf t) (asOrder d i) ↔ InRange t i d := by
  have hc := hd.consistent
  have hvpa : (paymentOf t).vpa = t.vpa := rfl
  have hmerchant : (asOrder d i).merchantId = i.merchantId := rfl
  rw [inRange_iff ids hc (funded hd) ht hi]
  unfold Shop.HasRoom
  rw [balance_payer hc.coupled, balance_merchant hc.coupled, hvpa, hmerchant]
  rfl

end Balance

/-! ### The callbacks of the bank -/

section Callback

variable {c : BankCallback} {psp : String} {event : BankCallbackEvent} {amount : Decimal}
  {ids : CallbackIds}

theorem payment_stageOf (t : Transaction) : (stageOf (some t)).payment? = some (paymentOf t) := by
  unfold stageOf
  dsimp only
  cases t.state <;> rfl

/-- The bank speaks of the payment of the order. -/
theorem names_asOrder : (asOrder d i).stage.Names psp ↔
    ∃ t, transactionOf d i = some t ∧ t.pspReference = some psp := by
  change (stageOf (transactionOf d i)).Names psp ↔ _
  unfold Stage.Names
  cases ht : transactionOf d i with
  | none => simp [stageOf, Stage.payment?]
  | some t => simp [payment_stageOf, paymentOf]

/-- The order that the bank speaks of. -/
theorem find_named (hd : Reachable d) (h : Found psp t i d) :
    (shopOf d).orders.find? (fun o => o.stage.Names psp) = some (asOrder d i) := by
  have hkeys : ((shopOf d).orders.map (·.id)).Nodup := by
    have hids : (shopOf d).orders.map (·.id) = d.intents.map (·.id) := List.map_map
    rw [hids]
    exact hd.consistent.keys.intents
  refine find_unique hkeys (List.mem_map_of_mem h.intent) (names_asOrder.mpr
    ⟨t, transactionOf_eq hd.consistent.coupled h.txn h.intentId.symm, h.psp⟩) fun o ho hn => ?_
  obtain ⟨j, hj, rfl⟩ := List.mem_map.mp ho
  obtain ⟨u, hu, hupsp⟩ := names_asOrder.mp hn
  obtain ⟨humem, huid⟩ := mem_of_transactionOf hu
  obtain rfl := eq_of_key hd.pspUnique h.txn humem (h.psp.trans hupsp.symm)
  exact huid.symm.trans h.intentId.symm

theorem find_unnamed (h : (book d).lookup psp = none) (hd : Reachable d) :
    (shopOf d).orders.find? (fun o => o.stage.Names psp) = none := by
  refine List.find?_eq_none.mpr fun o ho hn => ?_
  obtain ⟨i, hi, rfl⟩ := List.mem_map.mp ho
  obtain ⟨t, ht, hpsp⟩ := names_asOrder.mp (of_decide_eq_true hn)
  obtain ⟨j, hf⟩ := exists_found hd (mem_of_transactionOf ht).1 hpsp
  rw [lookup_of_found hd hf] at h
  cases h

theorem shopOf_settled (hd : Consistent d) (h : Found psp t i d) :
    shopOf (settled t i event ids d) =
      (shopOf d).advance i.id (.ended event (paymentOf t)) := by
  have htransactions := transactions_settled t i event ids d
  have hone := hd.coupled.one
  refine shopOf_advance hd.keys h.intent (by cases event <;> rfl) (intents_settled t i event ids d)
    ?_ fun j hj hid => ?_
  · have hfind : transactionOf (settled t i event ids d) i =
        some { t with state := targetTxn event } := by
      have hupdated : (d.transactions.map (withState t.id (targetTxn event))).find?
          (·.intentId = t.intentId) = some (withState t.id (targetTxn event) t) :=
        find_updated (fun u => withState_intentId) hone h.txn
      unfold transactionOf
      rw [htransactions, h.intentId, hupdated, withState_self]
    rw [hfind, stageOf_target rfl]
    rfl
  · unfold transactionOf
    rw [htransactions]
    refine find_map (fun u => withState_intentId) fun u hu huj => withState_of_ne fun e => hid ?_
    rw [eq_of_key hd.keys.transactions hu h.txn e] at huj
    exact huj.symm.trans h.intentId.symm

/-- What a callback of the right amount does. -/
theorem conclude_refines (hd : Reachable d) (hids : Fresh ids d) (h : Found psp t i d)
    (ha : amountDiffers i amount = .ok false) :
    (database.serve (processBankCallback event psp amount ids) d).1 =
        ((shopOf d).conclude event (asOrder d i)).1 ∧
      shopOf (database.serve (processBankCallback event psp amount ids) d).2 =
        ((shopOf d).conclude event (asOrder d i)).2 := by
  have hc := hd.consistent
  have hstage : (asOrder d i).stage = stageOf (some t) :=
    congrArg stageOf (transactionOf_eq hc.coupled h.txn h.intentId.symm)
  have hamount : HasAmount i amount := amountDiffers_iff.mp ha
  have hvpa : (paymentOf t).vpa = t.vpa := rfl
  unfold Shop.conclude
  rw [hstage]
  by_cases hpending : t.state = .pending
  · have hv : verdict t i event amount = .applied :=
      verdict_applied ha hpending (h.processing hc hpending)
    rw [stageOf_pending hpending]
    dsimp only
    have hroom := hasRoom_iff hd ids h.txn h.intent
    rw [hvpa]
    by_cases hover : event = .paymentSuccess ∧ t.vpa.length ≤ 128 ∧ ¬ InRange t i d
    · obtain ⟨rfl, hlen, hover⟩ := hover
      rw [serve_overflow hd h hids hover ha hpending hlen, if_pos ⟨rfl, .inr (mt hroom.mp hover)⟩]
      exact ⟨rfl, rfl⟩
    · rw [serve_reachable hd h fun _ he hlen =>
        ⟨hids, not_not.mp fun hr => hover ⟨he, hlen, hr⟩⟩]
      unfold outcome
      rw [hv]
      dsimp only
      by_cases hlong : event = .paymentSuccess ∧ 128 < t.vpa.length
      · rw [if_pos hlong, if_pos ⟨hlong.1, .inl hlong.2⟩]
        exact ⟨rfl, rfl⟩
      · have hfits : ¬ (event = .paymentSuccess ∧ (128 < t.vpa.length ∨
            ¬ (shopOf d).HasRoom (paymentOf t) (asOrder d i))) := fun hs =>
          hs.2.elim (fun hl => hlong ⟨hs.1, hl⟩) fun hr => hover
            ⟨hs.1, Nat.not_lt.mp fun hl => hlong ⟨hs.1, hl⟩, mt hroom.mpr hr⟩
        rw [if_neg hlong, if_neg hfits]
        exact ⟨rfl, shopOf_settled hc h⟩
  · obtain ⟨first, hfirst⟩ := h.finished hc hpending
    rw [stageOf_target hfirst]
    dsimp only
    by_cases he : first = event
    · subst he
      have hv := verdict_replayed hamount hfirst
      rw [serve_reachable hd h (fun happ => by cases happ.symm.trans hv), if_pos rfl]
      unfold outcome replayedResult
      rw [hv, hfirst]
      exact ⟨rfl, rfl⟩
    · have hv := verdict_final hamount hfirst (Ne.symm he)
      rw [serve_reachable hd h (fun happ => by cases happ.symm.trans hv), if_neg he]
      unfold outcome
      rw [hv]
      exact ⟨rfl, rfl⟩

/-- **`process_bank_callback`** does to the shop what it should. -/
theorem callback_refines (hd : Reachable d) (hids : Fresh c.ids d) :
    (c.serve d).1 = ((shopOf d).callback c).1 ∧
      shopOf (c.serve d).2 = ((shopOf d).callback c).2 := by
  unfold Shop.callback BankCallback.serve
  cases hl : (book d).lookup c.pspReference with
  | none =>
    rw [find_unnamed hl hd, serve_unknown fun t ht hpsp => ?_]
    · exact ⟨rfl, rfl⟩
    · obtain ⟨i, hf⟩ := exists_found hd ht hpsp
      cases hl.symm.trans (lookup_of_found hd hf)
  | some ti =>
    obtain ⟨t, i⟩ := ti
    have h : Found c.pspReference t i d := found_of_lookup hl
    have hamount : (asOrder d i).amount = i.amount := rfl
    rw [find_named hd h]
    dsimp only
    rw [hamount]
    -- the amounts are compared before anything else
    cases hne : Decimal.ne i.amount.toDecimal c.amount with
    | error e =>
      have hv : verdict t i c.event c.amount = .refused .invalidOperation := by
        unfold verdict amountDiffers
        rw [hne]
        rfl
      rw [serve_reachable hd h fun happ => by cases happ.symm.trans hv]
      unfold outcome
      rw [hv]
      exact ⟨rfl, rfl⟩
    | ok differs =>
      have ha : amountDiffers i c.amount = .ok differs := by
        unfold amountDiffers
        rw [hne]
        rfl
      cases differs with
      | true =>
        have hv : verdict t i c.event c.amount =
            .refused (.amountMismatch c.amount i.amount.toDecimal) := by
          unfold verdict
          rw [ha]
        rw [serve_reachable hd h fun happ => by cases happ.symm.trans hv]
        unfold outcome
        rw [hv]
        exact ⟨rfl, rfl⟩
      | false => exact conclude_refines hd hids h ha

end Callback

/-! ### Runs -/

section Run

variable {op : Op} {ops : List Op}

/-- The ids that the operations draw are all different, and new. -/
structure Drawable (ops : List Op) (d : Db) : Prop where
  reachable : Reachable d
  distinct : (ops.flatMap Op.drawn).Nodup
  unused : ∀ op ∈ ops, ∀ x ∈ op.drawn, ¬ Used d x

theorem drawable_empty (ms : List Merchant) (h : (ops.flatMap Op.drawn).Nodup) :
    Drawable ops (Db.empty ms) where
  reachable := reachable_empty ms
  distinct := h
  unused _ _ x _ hx := by
    cases x <;> obtain ⟨_, h, -⟩ := hx <;> cases h

/-- Only an order creation looks at the keys. -/
theorem Drawable.ready (h : Drawable (op :: ops) d) (hbody : op.body = none) : Ready [op] d where
  reachable := h.reachable
  distinct := by
    rw [List.flatMap_singleton]
    exact (List.nodup_append.mp h.distinct).1
  unused op' hop := h.unused op' (List.mem_singleton.mp hop ▸ List.mem_cons_self)
  keys op' hop _ _ b hb := by
    rw [List.mem_singleton.mp hop, hbody] at hb
    cases hb
  owned i _ op' hop b hb := by
    rw [List.mem_singleton.mp hop, hbody] at hb
    cases hb

theorem Drawable.newOrder {payload : CreateOrderRequest} {ids : OrderIds}
    (h : Drawable (.createOrder merchant payload ids :: ops) d) : NewOrder ids d := fun i hi =>
  ⟨fun e => h.unused _ List.mem_cons_self (.intent ids.intentId) (by simp [Op.drawn]) ⟨i, hi, e⟩,
    fun e => h.unused _ List.mem_cons_self (.order ids.token) (by simp [Op.drawn]) ⟨i, hi, e⟩⟩

/-- **An operation does to the shop what it should**, and is answered as the shop answers. -/
theorem serve_refines (h : Drawable (op :: ops) d) :
    (op.serve d).1 = (Shop.serve op (shopOf d)).1 ∧
      shopOf (op.serve d).2 = (Shop.serve op (shopOf d)).2 := by
  have hc := h.reachable.consistent
  cases op with
  | createOrder merchant payload ids =>
    obtain ⟨hanswer, hshop⟩ := create_refines merchant payload hc.keys hc.coupled h.newOrder
    exact ⟨congrArg (Except.map Reply.order) hanswer, hshop⟩
  | initiateUpi merchant payload ids =>
    obtain ⟨hanswer, hshop⟩ := initiate_refines merchant payload ids hc.keys hc.coupled
    rw [serve_initiateUpi_eq (h.ready rfl)]
    exact ⟨congrArg (Except.map Reply.payment) hanswer, hshop⟩
  | getOrder orderId merchant =>
    rw [serve_getOrder_eq h.reachable, get_refines hc.coupled]
    exact ⟨rfl, rfl⟩
  | processBankCallback c =>
    obtain ⟨hanswer, hshop⟩ := callback_refines h.reachable (h.ready rfl).fresh
    exact ⟨congrArg (Except.map Reply.callback) hanswer, hshop⟩

/-- Only a pending payment takes a callback, of its amount. -/
theorem of_applied {event : BankCallbackEvent} {amount : Decimal} {psp : String}
    (hd : Consistent d) (h : Found psp t i d) (hv : verdict t i event amount = .applied) :
    amountDiffers i amount = .ok false ∧ t.state = .pending := by
  have hamount : HasAmount i amount := by
    by_contra hne
    by_cases hs : amount = .snan
    · rw [hs, verdict_snan] at hv
      cases hv
    · cases (verdict_differs hs hne).symm.trans hv
  refine ⟨amountDiffers_iff.mpr hamount, not_not.mp fun hpending => ?_⟩
  obtain ⟨first, hfirst⟩ := h.finished hd hpending
  by_cases he : event = first
  · cases (verdict_replayed hamount (he ▸ hfirst)).symm.trans hv
  · cases (verdict_final hamount hfirst he).symm.trans hv

/-- What an operation may do, whatever key it uses and however large the balances are. -/
theorem did_any (h : Drawable (op :: ops) d) : Did op d (op.serve d).2 := by
  have hc := h.reachable.consistent
  cases op with
  | createOrder merchant payload ids =>
    change Did _ d (database.serve (createOrder merchant payload ids) d).2
    rw [Requests.serve_createOrder_eq hc.keys]
    cases replayOf payload.idempotencyKey merchant.id d with
    | some i => exact .nothing _ d
    | none =>
      unfold attempted
      dsimp only
      split_ifs
      · exact .ordered merchant payload ids d
      · exact .nothing _ d
      · exact .nothing _ d
  | initiateUpi merchant payload ids => exact did_initiateUpi (h.ready rfl)
  | getOrder orderId merchant =>
    rw [serve_getOrder_eq h.reachable]
    exact .nothing _ d
  | processBankCallback c =>
    have hready := h.ready rfl
    by_cases hfit : Postable c d
    · exact did_processBankCallback hready hfit
    · -- a balance would leave the range, and the callback is refused
      unfold Postable at hfit
      push Not at hfit
      obtain ⟨t, i, hf, hs, he, hover⟩ := hfit
      obtain ⟨ha, ht⟩ := of_applied hc hf hs.1
      change Did _ d (database.serve (processBankCallback c.event c.pspReference c.amount c.ids) d).2
      rw [he, serve_overflow h.reachable hf hready.fresh hover ha ht (hs.2 he)]
      exact .nothing _ d

/-- **The next database is ready for the others.** -/
theorem Drawable.step (h : Drawable (op :: ops) d) : Drawable ops (op.serve d).2 where
  reachable := by
    cases op with
    | createOrder merchant payload ids =>
      exact h.reachable.step ⟨.createOrder merchant payload ids, trivial, rfl⟩
    | initiateUpi merchant payload ids => exact (h.ready rfl).reachable_serve
    | getOrder orderId merchant => exact (h.ready rfl).reachable_serve
    | processBankCallback c => exact (h.ready rfl).reachable_serve
  distinct := (List.nodup_append.mp h.distinct).2.1
  unused op' hop x hx hused := by
    rcases (did_any h).used hused with hused | hdrawn
    · exact h.unused op' (List.mem_cons_of_mem _ hop) x hx hused
    · exact (List.nodup_append.mp h.distinct).2.2 x hdrawn x (List.mem_flatMap.mpr ⟨op', hop, hx⟩) rfl

/-- **The database refines the shop.** -/
theorem refines : Refines Op.serve Shop.serve shopOf Drawable where
  kept _ _ _ h := h.step
  answer _ _ _ h := (serve_refines h).1
  state _ _ _ h := (serve_refines h).2

end Run

end PaymentGateway.Runs.Refinement
