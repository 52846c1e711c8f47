import PaymentGateway.Runs.Isolation
import PaymentGateway.Runs.Orders

/-! # Orders and their idempotency keys

`create_order` looks for the key among the merchant's own intents, and answers with the intent it
finds without comparing it to the request; the unique index that decides an insert is over the
intents of all merchants. So an answer is about the request as long as the merchant has not used the
key for something else, and what other merchants do does not matter as long as none of them has used
the key. Of concurrent calls under one key the index admits one; the others are refused if they had
looked for the key before, since a refusal does not look again. -/

namespace PaymentGateway.Results.Orders

open PaymentGateway.Core.Ids PaymentGateway.Models PaymentGateway.Schemas
open PaymentGateway.Lib.Sessions PaymentGateway.Lib.DecimalArith PaymentGateway.Lib.Tables
open PaymentGateway.Db.Statements PaymentGateway.Services.Order
open PaymentGateway.State.Invariant PaymentGateway.Runs.Serial PaymentGateway.Specs.Requests
open PaymentGateway.Runs.Orders
open PaymentGateway.Runs.Isolation (intentsOf)

variable {d d' : Db} {merchant : Merchant} {payload : CreateOrderRequest} {ids ids' : OrderIds}
  {i : PaymentIntent} {res : Except Exc CreateOrderResponse}

/-! ### What an answer is about -/

/-- The intent has the amount, the currency and the description of the request. -/
def Matches (payload : CreateOrderRequest) (i : PaymentIntent) : Prop :=
  i.amount.toDecimal.value? = payload.amount.value? ∧ i.currency = payload.currency ∧
    i.description = payload.description

instance : DecidablePred (Matches payload) := fun _ => inferInstanceAs (Decidable (_ ∧ _))

/-- `create_order` answers for what was asked, and refuses a key that was used for something else. -/
structure AboutRequest (merchant : Merchant) (payload : CreateOrderRequest) (ids : OrderIds)
    (d : Db) : Prop where
  answered : ∀ r, (database.serve (createOrder merchant payload ids) d).1 = .ok r →
    ∃ i ∈ (database.serve (createOrder merchant payload ids) d).2.intents,
      i.merchantId = merchant.id ∧ r = orderResponse i ∧ Matches payload i
  refused : ∀ i ∈ d.intents, i.idempotencyKey = payload.idempotencyKey →
    i.merchantId = merchant.id → ¬ Matches payload i →
      database.serve (createOrder merchant payload ids) d = (.error .orderIdempotencyReuse, d)

/-- The merchant has used the key for what the request asks, if at all. -/
def SameUse (merchant : Merchant) (payload : CreateOrderRequest) (d : Db) : Prop :=
  ∀ i ∈ d.intents, i.idempotencyKey = payload.idempotencyKey → i.merchantId = merchant.id →
    Matches payload i

theorem value_amountOf (payload : CreateOrderRequest) :
    (amountOf payload).toDecimal.value? = payload.amount.value? := by
  obtain ⟨u, hu, -, -⟩ := payload.amount_valid
  have hv : payload.amount.value? = some ((u : ℤ) * 10 ^ (-(4 : ℕ) : ℤ) : ℚ) := by
    rw [hu]
    simp [Decimal.value?, signed]
  have hunits := (Numeric.ofDecimal_eq_some hv).mp (ofDecimal_amountOf payload)
  rw [Numeric.value_toDecimal, hunits, hv]

theorem matches_orderRow : Matches payload (orderRow merchant payload ids) :=
  ⟨value_amountOf payload, rfl, rfl⟩

/-- The intent of the key is the only one that can be replayed. -/
theorem replayOf_eq (k : Keys d) (hi : i ∈ d.intents)
    (hkey : i.idempotencyKey = payload.idempotencyKey) (hm : i.merchantId = merchant.id) :
    replayOf payload.idempotencyKey merchant.id d = some i := by
  have hrows := rows_replayOf k payload.idempotencyKey merchant.id
  rw [filter_eq_singleton k.idempotencyKeys hi ⟨hkey, hm⟩ fun j _ hj => hj.1.trans hkey.symm]
    at hrows
  exact (Option.toList_eq_singleton_iff.mp hrows.symm)

theorem mem_of_replayOf {key : String} {merchantId : UUID}
    (h : replayOf key merchantId d = some i) :
    i ∈ d.intents ∧ i.idempotencyKey = key ∧ i.merchantId = merchantId :=
  ⟨List.mem_of_find?_eq_some h, by simpa using List.find?_some h⟩

/-- A key that the merchant has used is answered with its intent. -/
theorem serve_replay (k : Keys d) (h : replayOf payload.idempotencyKey merchant.id d = some i) :
    database.serve (createOrder merchant payload ids) d = (.ok (orderResponse i), d) := by
  rw [serve_createOrder_eq k, h]

/-- An order that is created is the one that was asked for. -/
theorem about_attempted {r : CreateOrderResponse}
    (h : (attempted merchant payload ids d).1 = .ok r) :
    ∃ i ∈ (attempted merchant payload ids d).2.intents,
      i.merchantId = merchant.id ∧ r = orderResponse i ∧ Matches payload i := by
  unfold attempted at h ⊢
  split_ifs at h ⊢
  · cases h
    exact ⟨orderRow merchant payload ids, List.mem_append_right _ (List.mem_singleton_self _), rfl,
      rfl, matches_orderRow⟩

/-- **An order answer is about the order asked for** just where the merchant has not used the key for
something else. -/
theorem aboutRequest_iff (hd : Reachable d) :
    AboutRequest merchant payload ids d ↔ SameUse merchant payload d := by
  have k := hd.consistent.keys
  constructor
  · intro h i hi hkey hm
    by_contra hdiffers
    have hrefused := h.refused i hi hkey hm hdiffers
    rw [serve_replay k (replayOf_eq k hi hkey hm)] at hrefused
    cases congrArg Prod.fst hrefused
  · intro h
    refine ⟨fun r hr => ?_, fun i hi hkey hm hdiffers => absurd (h i hi hkey hm) hdiffers⟩
    cases hreplay : replayOf payload.idempotencyKey merchant.id d with
    | some i =>
      obtain ⟨hi, hkey, hm⟩ := mem_of_replayOf hreplay
      rw [serve_replay k hreplay] at hr ⊢
      cases hr
      exact ⟨i, hi, hm, rfl, h i hi hkey hm⟩
    | none =>
      rw [serve_createOrder_eq k, hreplay] at hr ⊢
      exact about_attempted hr

/-- The order of 100 rupees is there, and is asked for again. -/
theorem aboutRequest_again :
    (∃ i ∈ ((Sample.ordering Sample.rupees).after (Db.empty [Sample.shop])).intents,
      i.idempotencyKey = Sample.rupees.idempotencyKey ∧ i.merchantId = Sample.shop.id) ∧
    AboutRequest Sample.shop Sample.rupees ⟨Sample.uuid 8, "other"⟩
      ((Sample.ordering Sample.rupees).after (Db.empty [Sample.shop])) := by
  have hfresh : AllFresh [Sample.ordering Sample.rupees] (Db.empty [Sample.shop]) := by decide
  have hd : Reachable ((Sample.ordering Sample.rupees).after (Db.empty [Sample.shop])) :=
    reachable_serveAll (reachable_empty _) hfresh
  have hsame : SameUse Sample.shop Sample.rupees
      ((Sample.ordering Sample.rupees).after (Db.empty [Sample.shop])) := by
    unfold SameUse
    decide +kernel
  exact ⟨by decide +kernel, (aboutRequest_iff hd).mpr hsame⟩

/-- An order of 100 dollars under the key of an order of 100 rupees is answered with the rupees. -/
theorem not_aboutRequest_dollars :
    ¬ AboutRequest Sample.shop Sample.dollars ⟨Sample.uuid 8, "other"⟩
      ((Sample.ordering Sample.rupees).after (Db.empty [Sample.shop])) := by
  intro h
  obtain ⟨i, -, -, hr, -, hcurrency, -⟩ := h.answered
    ⟨newId "ord" "token", "order-0001", ⟨1000000, by decide⟩, "INR", .created⟩ (by decide +kernel)
  have hinr : "INR" = i.currency := congrArg CreateOrderResponse.currency hr
  exact absurd (hinr.trans hcurrency) (by decide)

/-! ### Whose keys matter -/

/-- The response, without the id of an order that is new. -/
def unnamed (ids : OrderIds) (r : CreateOrderResponse) : CreateOrderResponse :=
  if r.orderId = newId "ord" ids.token then { r with orderId := "" } else r

/-- The intent, without the ids if it is new. -/
def nameless (ids : OrderIds) (i : PaymentIntent) : PaymentIntent :=
  if i.id = ids.intentId then { i with id := ⟨0, by norm_num⟩, publicId := "" } else i

/-- The request ends in `d` as in `d'`, up to the ids that are drawn, and the merchant has the same
intents after it; in neither is the key refused. -/
structure Scoped (merchant : Merchant) (payload : CreateOrderRequest) (ids ids' : OrderIds)
    (d d' : Db) : Prop where
  same : (database.serve (createOrder merchant payload ids) d).1.map (unnamed ids) =
    (database.serve (createOrder merchant payload ids') d').1.map (unnamed ids')
  stored : (intentsOf merchant.id (database.serve (createOrder merchant payload ids) d).2).map
      (nameless ids) =
    (intentsOf merchant.id (database.serve (createOrder merchant payload ids') d').2).map
      (nameless ids')
  accepted : (database.serve (createOrder merchant payload ids) d).1 ≠ .error .orderIdempotencyReuse
  accepted' : (database.serve (createOrder merchant payload ids') d').1 ≠
    .error .orderIdempotencyReuse

/-- The ids are new, and fit their column. -/
structure Drawn (ids : OrderIds) (d : Db) : Prop where
  new : NewOrder ids d
  fits : (newId "ord" ids.token).length ≤ 64

theorem replayOf_intentsOf (key : String) (A : UUID) (d : Db) :
    replayOf key A d = (intentsOf A d).find? fun i => i.idempotencyKey = key ∧ i.merchantId = A :=
  (find_filter fun _ _ h => h.2).symm

/-- A key of another merchant is refused. -/
theorem serve_taken (k : Keys d) (hfits : (newId "ord" ids.token).length ≤ 64)
    (h : ¬ OwnKey merchant payload d) :
    (database.serve (createOrder merchant payload ids) d).1 = .error .orderIdempotencyReuse := by
  unfold OwnKey at h
  push Not at h
  obtain ⟨i, hi, hkey, hne⟩ := h
  have hnone : replayOf payload.idempotencyKey merchant.id d = none := by
    refine List.find?_eq_none.mpr fun j hj hc => hne ?_
    obtain ⟨hjkey, hm⟩ := of_decide_eq_true hc
    rw [← hm, eq_of_key k.idempotencyKeys hi hj (hkey.trans hjkey.symm)]
  have hclaimed : ¬ ((∃ m ∈ d.merchants, m.id = merchant.id) ∧ Unclaimed payload ids d) :=
    fun hc => (hc.2 i hi).2.2 hkey
  rw [serve_createOrder_eq k, hnone]
  unfold attempted
  rw [if_pos hfits, if_neg hclaimed]

theorem unnamed_old (h : NewOrder ids d) (hi : i ∈ d.intents) :
    unnamed ids (orderResponse i) = orderResponse i := if_neg (h i hi).2

theorem nameless_old (h : NewOrder ids d) (A : UUID) :
    (intentsOf A d).map (nameless ids) = intentsOf A d :=
  (List.map_congr_left fun i hi => if_neg (h i (List.mem_filter.mp hi).1).1).trans (List.map_id _)

/-- The response to a request, seen without new ids. -/
def answerTo (payload : CreateOrderRequest) : Option PaymentIntent → CreateOrderResponse
  | some i => orderResponse i
  | none => ⟨"", payload.idempotencyKey, amountOf payload, payload.currency, .created⟩

/-- The new intent, seen without its ids. -/
def rowsFor (merchant : Merchant) (payload : CreateOrderRequest) :
    Option PaymentIntent → List PaymentIntent
  | some _ => []
  | none => [⟨⟨0, by norm_num⟩, "", merchant.id, amountOf payload, payload.currency, .created,
      payload.idempotencyKey, payload.description⟩]

/-- **What the merchant sees** of its request is determined by its own intents, if no other merchant
has used the key. -/
theorem serve_seen (k : Keys d) (hown : OwnKey merchant payload d) (hids : Drawn ids d)
    (hm : ∃ m ∈ d.merchants, m.id = merchant.id) :
    (database.serve (createOrder merchant payload ids) d).1.map (unnamed ids) =
        .ok (answerTo payload (replayOf payload.idempotencyKey merchant.id d)) ∧
      (intentsOf merchant.id (database.serve (createOrder merchant payload ids) d).2).map
          (nameless ids) =
        intentsOf merchant.id d ++
          rowsFor merchant payload (replayOf payload.idempotencyKey merchant.id d) := by
  rw [serve_createOrder k hids.new hown]
  unfold ordered
  cases hreplay : replayOf payload.idempotencyKey merchant.id d with
  | some i =>
    refine ⟨congrArg Except.ok (unnamed_old hids.new (mem_of_replayOf hreplay).1), ?_⟩
    rw [nameless_old hids.new, rowsFor, List.append_nil]
  | none =>
    unfold added
    rw [if_pos hids.fits, if_pos hm]
    refine ⟨congrArg Except.ok (if_pos rfl), ?_⟩
    have hrows : intentsOf merchant.id (withIntent merchant payload ids d) =
        intentsOf merchant.id d ++ [orderRow merchant payload ids] := filter_append_of_pos rfl
    rw [hrows, List.map_append, nameless_old hids.new]
    exact congrArg (intentsOf merchant.id d ++ [·]) (if_pos rfl)

/-- **Keys are scoped per merchant** just where no other merchant has used the key. -/
theorem scoped_iff (hd : Reachable d) (hd' : Reachable d')
    (hagree : intentsOf merchant.id d = intentsOf merchant.id d')
    (hm : ∃ m ∈ d.merchants, m.id = merchant.id) (hm' : ∃ m ∈ d'.merchants, m.id = merchant.id)
    (hids : Drawn ids d) (hids' : Drawn ids' d') : Scoped merchant payload ids ids' d d' ↔
      OwnKey merchant payload d ∧ OwnKey merchant payload d' := by
  have k := hd.consistent.keys
  have k' := hd'.consistent.keys
  constructor
  · intro h
    refine ⟨?_, ?_⟩
    · by_contra hown
      exact h.accepted (serve_taken k hids.fits hown)
    · by_contra hown
      exact h.accepted' (serve_taken k' hids'.fits hown)
  · rintro ⟨hown, hown'⟩
    obtain ⟨hr, hrows⟩ := serve_seen k hown hids hm
    obtain ⟨hr', hrows'⟩ := serve_seen k' hown' hids' hm'
    have hreplay : replayOf payload.idempotencyKey merchant.id d =
        replayOf payload.idempotencyKey merchant.id d' := by
      rw [replayOf_intentsOf, replayOf_intentsOf, hagree]
    refine ⟨?_, ?_, fun e => ?_, fun e => ?_⟩
    · rw [hr, hr', hreplay]
    · rw [hrows, hrows', hreplay, hagree]
    · rw [e] at hr
      cases hr
    · rw [e] at hr'
      cases hr'

namespace Sample

open PaymentGateway.Runs.Serial.Sample

def cafe : Merchant := ⟨uuid 21, "Cafe", "cafe-key-hash", "cafe-secret-hash", true, none⟩

/-- The cafe has used the key of the shop's next order. -/
def keyTaken : Db :=
  serveAll [.createOrder cafe rupees ⟨uuid 22, "cafe"⟩] (Db.empty [shop, cafe])

theorem keyTaken_reachable : Reachable keyTaken :=
  reachable_serveAll (reachable_empty _) (by decide)

theorem key_valid : 8 ≤ "order-0002".length ∧ "order-0002".length ≤ 128 := by decide

/-- The cafe has used another key. -/
def keyFree : Db :=
  serveAll [.createOrder cafe { rupees with
    idempotencyKey := "order-0002"
    idempotencyKey_valid := key_valid } ⟨uuid 22, "cafe"⟩] (Db.empty [shop, cafe])

theorem keyFree_reachable : Reachable keyFree :=
  reachable_serveAll (reachable_empty _) (by decide)

end Sample

/-- The cafe's order is under another key. -/
theorem scoped_shop :
    Scoped Runs.Serial.Sample.shop Runs.Serial.Sample.rupees ⟨Runs.Serial.Sample.uuid 2, "token"⟩
      ⟨Runs.Serial.Sample.uuid 3, "other"⟩ (Db.empty [Runs.Serial.Sample.shop]) Sample.keyFree := by
  have hids : Drawn ⟨Runs.Serial.Sample.uuid 2, "token"⟩ (Db.empty [Runs.Serial.Sample.shop]) :=
    ⟨fun _ hi => (by cases hi), by decide⟩
  have hids' : Drawn ⟨Runs.Serial.Sample.uuid 3, "other"⟩ Sample.keyFree := by
    refine ⟨?_, by decide⟩
    unfold NewOrder
    decide +kernel
  have hown : OwnKey Runs.Serial.Sample.shop Runs.Serial.Sample.rupees Sample.keyFree := by
    unfold OwnKey
    decide +kernel
  exact (scoped_iff (reachable_empty _) Sample.keyFree_reachable (by decide +kernel)
    ⟨_, List.mem_singleton_self _, rfl⟩ (by decide +kernel) hids hids').mpr
    ⟨fun _ hi => (by cases hi), hown⟩

/-- The shop's first order is refused, since the cafe has used its key. -/
theorem not_scoped_keyTaken :
    Reachable Sample.keyTaken ∧
    intentsOf Runs.Serial.Sample.shop.id (Db.empty [Runs.Serial.Sample.shop, Sample.cafe]) =
      intentsOf Runs.Serial.Sample.shop.id Sample.keyTaken ∧
    ¬ Scoped Runs.Serial.Sample.shop Runs.Serial.Sample.rupees
      ⟨Runs.Serial.Sample.uuid 2, "token"⟩ ⟨Runs.Serial.Sample.uuid 2, "token"⟩
      (Db.empty [Runs.Serial.Sample.shop, Sample.cafe]) Sample.keyTaken :=
  ⟨Sample.keyTaken_reachable, by decide +kernel, fun h => h.accepted' (by decide +kernel)⟩

/-! ### Concurrent calls under one key -/

section Concurrent

variable {ι : Type} {draws : ι → OrderIds} {c : Config sql Db Session ι CreateOrderResponse}

/-- Every call that has ended has returned the one intent of the key. -/
def SameOrder (payload : CreateOrderRequest) (c : Config sql Db Session ι CreateOrderResponse) :
    Prop :=
  ∀ i r, (c.procs i).prog.result? = some r →
    ∃ x, c.shared.intents.filter (·.idempotencyKey = payload.idempotencyKey) = [x] ∧
      r = .ok (orderResponse x)

/-- **Identical concurrent calls get one order** in every run in which none of them looks for the
key while another, which has found no intent of it, has not committed its own yet. -/
theorem sameOrder_run [DecidableEq ι] (k : Keys d)
    (hready : ∀ i, Ready merchant payload (draws i) d)
    (hr : database.Run InTurn (pool merchant payload draws d) c) : SameOrder payload c := by
  have hstart : Inv merchant payload draws d (pool merchant payload draws d) := inv_pool
  have hinv := hstart.run k hready hr
  intro i r hi
  obtain ⟨x, hx, rfl⟩ := hinv.answered hi
  refine ⟨x, ?_, rfl⟩
  have hown : OwnKey merchant payload c.shared := hinv.stored.ownKey (hready i).own
  have hrows := hinv.stored.rows k
  rw [hx] at hrows
  rw [← Option.toList_some, ← hrows]
  refine List.filter_congr fun j hj => decide_eq_decide.mpr ⟨fun e => ⟨e, hown j hj e⟩, And.left⟩

namespace Sample

/-- Two calls for the shop's order of 100 rupees. -/
def twins : Config sql Db Session Two CreateOrderResponse :=
  pool Runs.Serial.Sample.shop Runs.Serial.Sample.rupees
    (fun
      | .first => ⟨Runs.Serial.Sample.uuid 2, "token"⟩
      | .second => ⟨Runs.Serial.Sample.uuid 3, "other"⟩)
    (Db.empty [Runs.Serial.Sample.shop])

/-- The second looks for the key when the first has committed. -/
def inTurn : Config sql Db Session Two CreateOrderResponse :=
  database.fireAll [.first, .first, .first, .second, .first] twins

/-- Both look for the key, then both commit. -/
def atOnce : Config sql Db Session Two CreateOrderResponse :=
  database.fireAll [.first, .second, .first, .second, .first, .second, .second, .first] twins

end Sample

/-- Two calls in turn. -/
theorem sameOrder_inTurn :
    SameOrder Runs.Serial.Sample.rupees Sample.inTurn ∧ ∀ i, (Sample.inTurn.procs i).prog.Done := by
  have hrun : database.Run InTurn Sample.twins Sample.inTurn :=
    Machine.run_fireAll (by decide +kernel)
  refine ⟨sameOrder_run (reachable_empty _).consistent.keys (fun i => ?_) hrun,
    by decide +kernel⟩
  cases i <;> exact ⟨⟨_, List.mem_singleton_self _, rfl⟩, fun _ hj => (by cases hj),
    fun _ hj => (by cases hj), by decide⟩

/-- Two calls at once: the second is refused. -/
theorem not_sameOrder_atOnce :
    database.Run (fun _ _ => True) Sample.twins Sample.atOnce ∧
      ¬ SameOrder Runs.Serial.Sample.rupees Sample.atOnce := by
  have hrefused : (Sample.atOnce.procs .second).prog.result? =
      some (.error .orderIdempotencyReuse) := by decide +kernel
  refine ⟨Machine.run_fireAll (by decide +kernel), fun h => ?_⟩
  obtain ⟨x, -, hx⟩ := h .second _ hrefused
  cases hx

end Concurrent

end PaymentGateway.Results.Orders
