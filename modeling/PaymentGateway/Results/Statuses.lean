import PaymentGateway.Api.Payments
import PaymentGateway.Api.Webhooks
import PaymentGateway.Specs.Requests
import PaymentGateway.State.Outbox

/-! # Exceptions and their statuses

Each router answers some of the exceptions of its service with an `HTTPException`. None answers an
`InvalidStateTransition`, which a second vpa for an order in process and a callback against the
outcome of a payment raise; and a rejected callback is logged before it is answered, with a keyword
that is the name of the first parameter of the logger. -/

namespace PaymentGateway.Results.Statuses

open PaymentGateway.Core.Ids PaymentGateway.Models PaymentGateway.Schemas
open PaymentGateway.Lib.Program PaymentGateway.Lib.Sessions PaymentGateway.Lib.DecimalArith
open PaymentGateway.Lib.Tables PaymentGateway.Db.Statements PaymentGateway.Db.Flush
open PaymentGateway.Services.StateMachine PaymentGateway.Services.Order
open PaymentGateway.Services.Payment PaymentGateway.Services.Webhook
open PaymentGateway.Api.Deps PaymentGateway.Api.Orders PaymentGateway.Api.Payments
open PaymentGateway.Api.Webhooks PaymentGateway.State.Invariant PaymentGateway.State.Outbox
open PaymentGateway.Outlines.Rules PaymentGateway.Outlines.Webhook PaymentGateway.Runs.Serial
open PaymentGateway.Specs.Callback PaymentGateway.Specs.Requests

/-- An error of the database, or of the broker. -/
def Storage : Exc → Prop
  | .integrityError => True
  | .dataError => True
  | .staleDataError => True
  | .invalidRequestError => True
  | .operationalError => True
  | _ => False

/-- An `HTTPException` with a 4xx status. -/
def ClientError : Exc → Prop
  | .httpException status _ => 400 ≤ status ∧ status < 500
  | .httpChallenge status _ _ => 400 ≤ status ∧ status < 500
  | .httpFrom status _ => 400 ≤ status ∧ status < 500
  | _ => False

/-- A 2xx response, an `HTTPException` with a 4xx status, or an error of the storage. -/
def Handled {α : Type} : Except Exc α → Prop
  | .ok _ => True
  | .error exc => ClientError exc ∨ Storage exc

/-- A request that is authenticated as the merchant, or a request of the bank with what step 1 reads
from it. -/
inductive Request
  | createOrder (merchant : Merchant) (credentials : Credentials) (payload : CreateOrderRequest)
      (ids : OrderIds)
  | initiateUpi (merchant : Merchant) (credentials : Credentials) (payload : UpiInitiateRequest)
      (ids : InitiateIds)
  | bankCallback (request : BankRequest) (callback : Callback)

namespace Request

variable (security : Security) (signing : Signing)

/-- How the endpoint ends. -/
def outcome (d : Db) : Request → Except Exc Unit
  | .createOrder _ credentials payload ids =>
    (database.serve (createOrderEndpoint security credentials payload ids) d).1.map fun _ => ()
  | .initiateUpi _ credentials payload ids =>
    (database.serve (initiateUpiPayment security credentials payload ids) d).1.map fun _ => ()
  | .bankCallback request _ =>
    (database.serve (Api.Webhooks.bankCallback signing request) d).1.map fun _ => ()

/-- The merchant is authenticated; the callback is what step 1 has read, its amount is a number, and
the broker takes the task or is out of reach. -/
def Admissible (d : Db) : Request → Prop
  | .createOrder merchant credentials _ _ =>
    (database.serve (getCurrentMerchant security credentials) d).1 = .ok merchant
  | .initiateUpi merchant credentials _ _ =>
    (database.serve (getCurrentMerchant security credentials) d).1 = .ok merchant
  | .bankCallback request callback => request.verified = .ok callback ∧
    (∃ negative coefficient exponent, callback.amount = .finite negative coefficient exponent) ∧
    ∀ exc, request.broker = .error exc → exc = .operationalError

/-- The order is in process, with no transaction of the vpa; or the callback names the amount of a
payment but not its outcome, or is rejected while rejections cannot be logged. -/
def Escapes (d : Db) : Request → Prop
  | .createOrder _ _ _ _ => False
  | .initiateUpi merchant _ payload _ => ∃ i ∈ d.intents, i.publicId = payload.orderId ∧
    i.merchantId = merchant.id ∧ i.status = .processing ∧
    ∀ t ∈ d.transactions, ¬ (t.intentId = i.id ∧ t.vpa = payload.vpa ∧ t.paymentMethod = .upi)
  | .bankCallback _ callback =>
    (∃ t i, Found callback.pspReference t i d ∧ HasAmount i callback.amount ∧
      t.state ≠ .pending ∧ t.state ≠ targetTxn callback.event) ∨
    (signing.rejectionLogged ≠ .ok () ∧
      ¬ ∃ t i, Found callback.pspReference t i d ∧ HasAmount i callback.amount)

end Request

variable {α : Type} {security : Security} {signing : Signing} {d : Db} {t : Transaction}
  {i : PaymentIntent} {merchant : Merchant} {credentials : Credentials}

/-! ### What statements and services raise -/

theorem exec_error (s : Stmt) (d : Db) (l : Session) (e : Exc) (h : (exec s d l).1 = .error e) :
    Storage e := by
  cases s with
  | insertAccount id accountType identifier merchantId =>
    rcases insertAccount_error h with rfl | rfl <;> trivial
  | commit =>
    simp only [exec] at h
    cases hf : l.flush d with
    | ok d' => rw [hf] at h; cases h
    | error e' =>
      rw [hf] at h
      cases h
      rcases flush_error hf with rfl | rfl | rfl <;> trivial
  | refreshIntent id => simp only [exec] at h; split at h <;> cases h; trivial
  | refreshTransaction id => simp only [exec] at h; split at h <;> cases h; trivial
  | refreshDelivery id => simp only [exec] at h; split at h <;> cases h; trivial
  | _ => cases h

/-- An error of the storage, or of a lookup. -/
def Fails (e : Exc) : Prop := Storage e ∨ LookupError e

theorem raises_execute {E : Exc → Prop} (h : ∀ e, Storage e → E e) {s : Stmt} :
    (execute s).Raises Storage E :=
  Prog.raises_exec (σ := sql) h

theorem storage_fails (e : Exc) (h : Storage e) : Fails e := .inl h

theorem raises_ensureAccountLocked {accountType : AccountType} {identifier : String}
    {merchantId : Option UUID} {id : UUID} :
    (ensureAccountLocked accountType identifier merchantId id).Raises Storage Fails := by
  unfold ensureAccountLocked
  refine (raises_execute storage_fails).bind fun _ => ?_
  refine (raises_execute storage_fails).bind fun rows => ?_
  match rows with
  | [] => exact .inr (.inr rfl)
  | [_] => trivial
  | _ :: _ :: _ => exact .inr (.inl rfl)

/-- With the amount of the intent, both balances can be computed. -/
theorem raises_postLedger {amount : Decimal} {ids : CallbackIds}
    (ha : amountDiffers i amount = .ok false) :
    (postLedger t i amount ids).Raises Storage Fails := by
  have hadd : ∀ a : LedgerAccount, (Prog.ofExcept (addBalance a amount) : Sql Decimal).Raises
      Storage Fails := fun a => Prog.raises_ofExcept fun e he => by
    obtain ⟨r, hr, -⟩ := addBalance_ok a ha
    rw [hr] at he
    cases he
  unfold postLedger
  refine raises_ensureAccountLocked.bind fun payer => ?_
  refine raises_ensureAccountLocked.bind fun payee => ?_
  refine (hadd payer).bind fun _ => (raises_execute storage_fails).bind fun _ => ?_
  refine (hadd payee).bind fun _ => (raises_execute storage_fails).bind fun _ => ?_
  exact (raises_execute storage_fails).bind fun _ => raises_execute storage_fails

theorem raises_afterGuards {event : BankCallbackEvent} {amount : Decimal} {ids : CallbackIds}
    (ha : amountDiffers i amount = .ok false) :
    (afterGuards t i event amount ids).Raises Storage Fails := by
  have hledger : (if event = .paymentSuccess then postLedger t i amount ids else pure ()).Raises
      Storage Fails := by
    split_ifs
    · exact raises_postLedger ha
    · trivial
  exact hledger.bind fun _ => (raises_execute storage_fails).bind fun _ => trivial

theorem raises_inform {request : BankRequest} {callback : Callback} {result : CallbackResult}
    {found : Option Merchant} (hb : ∀ exc, request.broker = .error exc → exc = .operationalError) :
    (inform signing request callback result found).Raises Storage Storage := by
  unfold inform
  cases found with
  | none => trivial
  | some m =>
    dsimp only
    cases m.webhookUrl with
    | none => trivial
    | some url =>
      dsimp only
      split_ifs
      · refine (raises_execute fun _ => id).bind fun _ => ?_
        refine (raises_execute fun _ => id).bind fun _ => ?_
        refine (raises_execute fun _ => id).bind fun _ => ?_
        refine (raises_execute fun _ => id).bind fun _ => ?_
        refine (Prog.raises_ofExcept fun e he => ?_).bind fun _ => trivial
        rw [hb e he]
        trivial
      · trivial

/-! ### The callback -/

section Callback

variable {event : BankCallbackEvent} {psp : String} {amount : Decimal} {ids : CallbackIds} {d' : Db}

/-- A reference has at most one merchant. -/
theorem merchantsOf_one (hd : Consistent d) (hu : PspUnique d) (hm : (d.merchants.map (·.id)).Nodup)
    (psp : String) : (merchantsOf psp d).length ≤ 1 := by
  have hsame : ∀ t ∈ d.transactions, ∀ u ∈ d.transactions, t.pspReference = some psp →
      u.pspReference = some psp → t = u := fun t ht u hu' hpt hpu =>
    eq_of_key hu ht hu' (hpt.trans hpu.symm)
  refine length_flatMap_le_one hm (fun m _ => ?_) fun m _ n _ hne hne' => ?_
  · refine length_flatMap_le_one (hd.keys.intents.sublist (List.filter_sublist.map _))
      (fun i _ => ?_) fun i _ j _ hne hne' => ?_
    · rw [List.length_map]
      exact length_filter_le_one hu fun t _ u _ ht hu' => ht.2.trans hu'.2.symm
    · obtain ⟨x, hx⟩ := List.exists_mem_of_ne_nil _ hne
      obtain ⟨y, hy⟩ := List.exists_mem_of_ne_nil _ hne'
      simp only [List.mem_map, List.mem_filter, decide_eq_true_eq] at hx hy
      obtain ⟨t, ⟨ht, hti, htp⟩, -⟩ := hx
      obtain ⟨u, ⟨hu', hui, hup⟩, -⟩ := hy
      rw [← hti, ← hui, hsame t ht u hu' htp hup]
  · have hmem : ∀ m : Merchant, (d.intents.filter (·.merchantId = m.id)).flatMap (fun i =>
        (d.transactions.filter fun t => t.intentId = i.id ∧ t.pspReference = some psp).map
          fun _ => m) ≠ [] → ∃ t ∈ d.transactions, ∃ i ∈ d.intents, i.merchantId = m.id ∧
        t.intentId = i.id ∧ t.pspReference = some psp := by
      intro m hne
      obtain ⟨x, hx⟩ := List.exists_mem_of_ne_nil _ hne
      simp only [List.mem_flatMap, List.mem_map, List.mem_filter, decide_eq_true_eq] at hx
      obtain ⟨i, ⟨hi, him⟩, t, ⟨ht, hti, htp⟩, -⟩ := hx
      exact ⟨t, ht, i, hi, him, hti, htp⟩
    obtain ⟨t, ht, i, hi, him, hti, htp⟩ := hmem m hne
    obtain ⟨u, hu', j, hj, hjn, huj, hup⟩ := hmem n hne'
    obtain rfl := hsame t ht u hu' htp hup
    obtain rfl := eq_of_key hd.keys.intents hi hj (hti.symm.trans huj)
    exact him.symm.trans hjn

/-- Step 3 raises errors of the storage only. -/
theorem notify_error {request : BankRequest} {callback : Callback} {result : CallbackResult}
    {l : Session} (hd : Consistent d) (hu : PspUnique d) (hm : (d.merchants.map (·.id)).Nodup)
    (hb : ∀ exc, request.broker = .error exc → exc = .operationalError) {e : Exc}
    (he : (database.run (notify signing request callback result) d l).1 = .error e) :
    Storage e := by
  unfold notify at he
  have hrows : database.run (execute (.selectMerchantByPsp callback.pspReference)) d l =
      (.ok (merchantsOf callback.pspReference d), d, l) := by
    rw [run_execute]
    rfl
  rw [Machine.run_bind_ok _ hrows] at he
  have hone := merchantsOf_one hd hu hm callback.pspReference
  have hinform : ∀ found, (inform signing request callback result found).Raises Storage Storage :=
    fun _ => raises_inform hb
  match hms : merchantsOf callback.pspReference d with
  | [] =>
    rw [hms] at he
    exact database.run_raises exec_error (hinform none) he
  | [m] =>
    rw [hms] at he
    exact database.run_raises exec_error (hinform (some m)) he
  | _ :: _ :: _ =>
    rw [hms] at hone
    simp at hone

/-- A callback with the amount of its payment, which does not contradict its outcome, raises errors
of the storage only. -/
theorem found_error (hd : Reachable d) (h : Found psp t i d) (ha : HasAmount i amount)
    (ht : t.state = .pending ∨ t.state = targetTxn event) {e : Exc}
    (he : (database.serve (processBankCallback event psp amount ids) d).1 = .error e) :
    Fails e := by
  rcases ht with ht | ht
  · have hamount := amountDiffers_iff.mpr ha
    have hassert : assertTransitions t i event = .ok () := by
      unfold assertTransitions
      rw [ht, h.processing hd.consistent ht]
      cases event <;> rfl
    obtain ⟨l, hl, -, -⟩ := run_settle_eq (d := d) amount ids hassert
    unfold Machine.serve at he
    rw [show database.closed = Session.closed from rfl, run_lookup hd.consistent hd.pspUnique h]
      at he
    unfold afterLookup at he
    rw [hamount, Machine.run_bind_ok _ (run_value false d _), if_neg Bool.false_ne_true, ht,
      if_neg (by simp), if_neg (by simp), hl] at he
    exact database.run_raises exec_error (raises_afterGuards hamount) he
  · rw [serve_replayed hd h (verdict_replayed ha ht)] at he
    cases he

theorem merchants_after (c : Call) (hd : Consistent d) : (c.after d).merchants = d.merchants := by
  rcases c.after_cases hd with h | h
  · rw [h]
  · cases c with
    | createOrder merchant payload ids => obtain ⟨i, h⟩ := h; rw [h.db]
    | initiateUpi merchant payload ids => obtain ⟨t, i, -, h⟩ := h; rw [h.db]
    | processBankCallback event psp amount ids =>
      cases h with
      | failed _ _ _ h => rw [h.db]
      | succeeded _ _ _ h => rw [h.db]

theorem rejection_handled {exc : Exc}
    (hlog : ∀ raised, signing.rejectionLogged = .error raised → raised = .typeError) :
    Handled (.error (rejection signing exc) : Except Exc α) ↔ signing.rejectionLogged = .ok () := by
  unfold rejection
  cases hl : signing.rejectionLogged with
  | ok u => exact ⟨fun _ => rfl, fun _ => .inl ⟨by decide, by decide⟩⟩
  | error raised =>
    rw [hlog raised hl]
    exact ⟨fun h => (h.elim id id).elim, fun h => by cases h⟩

theorem webhookException_storage {e : Exc} (h : Storage e) : webhookException signing e = e := by
  cases e <;> first | rfl | exact h.elim

section Endpoint

variable {request : BankRequest} {callback : Callback} {e : Exc} {result : CallbackResult}
  {l : Session}

theorem run_processed (hv : request.verified = .ok callback) :
    database.run (bankCallback signing request) d .closed =
      database.run ((processBankCallback callback.event callback.pspReference callback.amount
        request.ids).tryCatch (fun exc => .raise (webhookException signing exc)) >>=
          notify signing request callback) d .closed := by
  unfold bankCallback
  rw [hv]
  rfl

/-- What the endpoint does with an exception of the service. -/
theorem serve_raised (hv : request.verified = .ok callback)
    (h : (database.serve (processBankCallback callback.event callback.pspReference callback.amount
      request.ids) d).1 = .error e) :
    (database.serve (bankCallback signing request) d).1 = .error (webhookException signing e) := by
  unfold Machine.serve at h ⊢
  rw [show database.closed = Session.closed from rfl] at h ⊢
  rw [run_processed hv]
  have hrun := database.run_tryCatch_throw (processBankCallback callback.event
    callback.pspReference callback.amount request.ids) (webhookException signing) d .closed
  dsimp only at h
  rw [h] at hrun
  rw [Machine.run_bind_error _ hrun]

/-- What it does with a result. -/
theorem serve_processed (hv : request.verified = .ok callback)
    (h : (database.serve (processBankCallback callback.event callback.pspReference callback.amount
      request.ids) d).1 = .ok result) :
    ∃ l, (database.serve (bankCallback signing request) d).1 =
      (database.run (notify signing request callback result) (database.serve (processBankCallback
        callback.event callback.pspReference callback.amount request.ids) d).2 l).1 := by
  unfold Machine.serve at h ⊢
  rw [show database.closed = Session.closed from rfl] at h ⊢
  rw [run_processed hv]
  have hrun := database.run_tryCatch_throw (processBankCallback callback.event
    callback.pspReference callback.amount request.ids) (webhookException signing) d .closed
  dsimp only at h
  rw [h] at hrun
  rw [Machine.run_bind_ok _ hrun]
  exact ⟨_, rfl⟩

/-- The answer to a callback that settles a payment, or repeats what settled it. -/
theorem handled_found (hd : Reachable d) (hm : (d.merchants.map (·.id)).Nodup)
    (hv : request.verified = .ok callback)
    (hb : ∀ exc, request.broker = .error exc → exc = .operationalError)
    (h : Found callback.pspReference t i d) (ha : HasAmount i callback.amount)
    (ht : t.state = .pending ∨ t.state = targetTxn callback.event) :
    Handled (database.serve (bankCallback signing request) d).1 := by
  generalize hc : Call.processBankCallback callback.event callback.pspReference callback.amount
    request.ids = c
  have hserve : c.serve d = (database.serve (processBankCallback callback.event
      callback.pspReference callback.amount request.ids) d).map (·.map .callback) id := by
    rw [← hc]
    rfl
  cases hres : (database.serve (processBankCallback callback.event callback.pspReference
      callback.amount request.ids) d).1 with
  | error e =>
    have hl : ¬ LookupError e := by
      refine Call.no_lookupError (c := c) hd.consistent hd.pspUnique ?_
      rw [hserve, Prod.map_fst, hres]
      rfl
    have hst : Storage e := (found_error hd h ha ht hres).resolve_right hl
    rw [serve_raised hv hres, webhookException_storage hst]
    exact .inr hst
  | ok result =>
    obtain ⟨l, hl⟩ : ∃ l, (database.serve (bankCallback signing request) d).1 =
        (database.run (notify signing request callback result) (database.serve (processBankCallback
          callback.event callback.pspReference callback.amount request.ids) d).2 l).1 :=
      serve_processed hv hres
    have hafter : (database.serve (processBankCallback callback.event callback.pspReference
        callback.amount request.ids) d).2 = c.after d := by
      rw [Call.after, hserve]
      rfl
    rw [hl, hafter]
    have hfresh : c.Fresh d := by rw [← hc]; trivial
    cases hn : (database.run (notify signing request callback result) (c.after d) l).1 with
    | ok ack => trivial
    | error e =>
      exact .inr (notify_error (consistent_after hd.consistent)
        (pspUnique_after hd.consistent hd.pspUnique hfresh)
        (by rw [merchants_after c hd.consistent]; exact hm) hb hn)

/-- A callback for which there is no payment of its amount. -/
theorem handled_missing (hd : Reachable d)
    (hlog : ∀ raised, signing.rejectionLogged = .error raised → raised = .typeError)
    (hv : request.verified = .ok callback) (hs : callback.amount ≠ .snan)
    (hno : ¬ ∃ t i, Found callback.pspReference t i d ∧ HasAmount i callback.amount) :
    Handled (database.serve (bankCallback signing request) d).1 ↔
      signing.rejectionLogged = .ok () := by
  by_cases hknown : ∃ t ∈ d.transactions, t.pspReference = some callback.pspReference
  · obtain ⟨t, ht, hpsp⟩ := hknown
    obtain ⟨i, hi, hid⟩ := hd.consistent.keys.intent_of t ht
    have hfound : Found callback.pspReference t i d := ⟨ht, hpsp, hi, hid⟩
    have hdiffers : verdict t i callback.event callback.amount =
        .refused (.amountMismatch callback.amount i.amount.toDecimal) :=
      verdict_differs hs fun ha => hno ⟨t, i, hfound, ha⟩
    rw [serve_raised hv (congrArg Prod.fst (serve_refused hd hfound hdiffers))]
    exact rejection_handled hlog
  · rw [serve_raised hv (congrArg Prod.fst (serve_unknown fun t ht hpsp => hknown ⟨t, ht, hpsp⟩))]
    exact rejection_handled hlog

end Endpoint

end Callback

/-! ### Every request -/

theorem handled_map {f : α → Unit} {r : Except Exc α} : Handled (r.map f) ↔ Handled r := by
  cases r <;> exact Iff.rfl

/-- Every exception of an order creation has a status. -/
theorem handled_createOrder {payload : CreateOrderRequest} {ids : OrderIds} (hd : Reachable d)
    (h : (database.serve (getCurrentMerchant security credentials) d).1 = .ok merchant) :
    Handled (database.serve (createOrderEndpoint security credentials payload ids) d).1 := by
  unfold createOrderEndpoint
  obtain ⟨l, hl, hrun⟩ := run_authenticated (f := fun merchant =>
    (createOrder merchant payload ids).tryCatch fun exc => .raise (orderException exc)) h
  have hcreate := congrArg Prod.fst
    (@run_createOrder d l merchant payload ids hd.consistent.keys hl)
  change Handled (database.run (getCurrentMerchant security credentials >>= fun merchant =>
    (createOrder merchant payload ids).tryCatch fun exc => .raise (orderException exc)) d .closed).1
  rw [hrun, Machine.run_tryCatch_throw]
  dsimp only at hcreate ⊢
  rw [hcreate]
  cases replayOf payload.idempotencyKey merchant.id d with
  | some i => trivial
  | none =>
    dsimp only
    unfold attempted
    split_ifs
    · trivial
    · exact .inl ⟨by decide, by decide⟩
    · exact .inr trivial

/-- The exceptions of an initiation have a status, but for one. -/
theorem handled_initiateUpi {payload : UpiInitiateRequest} {ids : InitiateIds} (hd : Reachable d)
    (h : (database.serve (getCurrentMerchant security credentials) d).1 = .ok merchant) :
    Handled (database.serve (initiateUpiPayment security credentials payload ids) d).1 ↔
      ¬ ∃ i ∈ d.intents, i.publicId = payload.orderId ∧ i.merchantId = merchant.id ∧
        i.status = .processing ∧ ∀ t ∈ d.transactions,
          ¬ (t.intentId = i.id ∧ t.vpa = payload.vpa ∧ t.paymentMethod = .upi) := by
  obtain ⟨l, hl, hrun⟩ := run_authenticated (f := fun merchant =>
    (initiateUpi merchant payload ids).tryCatch fun exc => .raise (paymentException exc)) h
  have hinitiate := congrArg Prod.fst
    (@run_initiateUpi d l merchant payload ids hd.consistent.keys hd.consistent.coupled hl)
  change Handled (database.run (getCurrentMerchant security credentials >>= fun merchant =>
    (initiateUpi merchant payload ids).tryCatch fun exc => .raise (paymentException exc))
      d .closed).1 ↔ _
  rw [hrun, Machine.run_tryCatch_throw]
  dsimp only at hinitiate ⊢
  rw [hinitiate]
  unfold initiating
  cases horder : orderOf payload.orderId merchant.id d with
  | none =>
    refine ⟨fun _ ⟨i, hi, hp, hmi, _⟩ => ?_, fun _ => .inl ⟨by decide, by decide⟩⟩
    exact List.find?_eq_none.mp horder i hi (decide_eq_true ⟨hp, hmi⟩)
  | some i =>
    obtain ⟨hi, hmi⟩ := mem_of_orderOf horder
    have hp : i.publicId = payload.orderId ∧ i.merchantId = merchant.id := by
      simpa using List.find?_some horder
    have hsame : ∀ j ∈ d.intents, j.publicId = payload.orderId → j = i := fun j hj hpj =>
      eq_of_key hd.consistent.keys.publicIds hj hi (hpj.trans hp.1.symm)
    dsimp only
    split_ifs with hfinal
    · refine ⟨fun _ ⟨j, hj, hpj, _, hprocessing, _⟩ => ?_,
        fun _ => .inl ⟨by decide, by decide⟩⟩
      rw [hsame j hj hpj] at hprocessing
      rw [hprocessing] at hfinal
      exact absurd hfinal (by decide)
    · cases hdup : duplicateOf i.id payload.vpa d with
      | some t =>
        refine ⟨fun _ ⟨j, hj, hpj, _, _, hnone⟩ => ?_, fun _ => trivial⟩
        rw [hsame j hj hpj] at hnone
        have ht : t.intentId = i.id ∧ t.vpa = payload.vpa ∧ t.paymentMethod = .upi := by
          simpa using List.find?_some hdup
        exact hnone t (List.mem_of_find?_eq_some hdup) ht
      | none =>
        have hnone : ∀ t ∈ d.transactions,
            ¬ (t.intentId = i.id ∧ t.vpa = payload.vpa ∧ t.paymentMethod = .upi) :=
          fun t ht hc => List.find?_eq_none.mp hdup t ht (decide_eq_true hc)
        dsimp only
        unfold begun
        cases hstatus : i.status with
        | processing =>
          refine ⟨fun h => (h.elim id id).elim, fun hno => ?_⟩
          exact absurd ⟨i, hi, hp.1, hp.2, hstatus, hnone⟩ hno
        | created =>
          refine ⟨fun _ ⟨j, hj, hpj, _, hprocessing, _⟩ => ?_, fun _ => ?_⟩
          · rw [hsame j hj hpj, hstatus] at hprocessing
            cases hprocessing
          · change Handled (Except.mapError _ (if _ then if _ then _ else _ else _ :
              Except Exc UpiInitiateResponse × Db).1)
            split_ifs
            · trivial
            · exact .inr trivial
            · exact .inr trivial
        | success => exact absurd (by rw [hstatus]; decide) hfinal
        | failed => exact absurd (by rw [hstatus]; decide) hfinal

/-- The answer to a callback. -/
theorem handled_bankCallback {request : BankRequest} {callback : Callback} (hd : Reachable d)
    (hm : (d.merchants.map (·.id)).Nodup)
    (hlog : ∀ raised, signing.rejectionLogged = .error raised → raised = .typeError)
    (hr : (Request.bankCallback request callback).Admissible security d) :
    Handled (database.serve (bankCallback signing request) d).1 ↔
      ¬ (Request.bankCallback request callback).Escapes signing d := by
  obtain ⟨hv, ⟨negative, coefficient, exponent, hamount⟩, hb⟩ := hr
  have hs : callback.amount ≠ .snan := by rw [hamount]; simp
  unfold Request.Escapes
  by_cases hfound : ∃ t i, Found callback.pspReference t i d ∧ HasAmount i callback.amount
  · obtain ⟨t, i, h, ha⟩ := hfound
    -- the reference has one transaction
    have hsame : ∀ u j, Found callback.pspReference u j d → u = t := fun u j hu =>
      eq_of_key hd.pspUnique hu.txn h.txn (hu.psp.trans h.psp.symm)
    by_cases ht : t.state = .pending ∨ t.state = targetTxn callback.event
    · refine ⟨fun _ hesc => ?_, fun _ => handled_found hd hm hv hb h ha ht⟩
      rcases hesc with ⟨u, j, hu, -, hpending, htarget⟩ | ⟨-, hno⟩
      · rw [hsame u j hu] at hpending htarget
        exact ht.elim hpending htarget
      · exact hno ⟨t, i, h, ha⟩
    · obtain ⟨hpending, htarget⟩ := not_or.mp ht
      obtain ⟨first, hfirst⟩ := h.finished hd.consistent hpending
      have hfinal := verdict_final ha hfirst fun e : callback.event = first => htarget (e ▸ hfirst)
      rw [serve_raised hv (congrArg Prod.fst (serve_refused hd h hfinal))]
      exact ⟨fun hh => (hh.elim id id).elim, fun hno =>
        absurd (.inl ⟨t, i, h, ha, hpending, htarget⟩) hno⟩
  · rw [handled_missing hd hlog hv hs hfound]
    refine ⟨fun hl hesc => ?_, fun hno => ?_⟩
    · rcases hesc with ⟨u, j, hu, ha, -⟩ | ⟨hne, -⟩
      · exact hfound ⟨u, j, hu, ha⟩
      · exact hne hl
    · by_contra hne
      exact hno (.inr ⟨hne, hfound⟩)

/-- **Statuses.** In every state that service calls reach, a request ends with a response, a 4xx or
an error of the storage just where it is not one of those whose exception escapes. The id of a
merchant is its primary key. -/
theorem handled_iff {r : Request} (hd : Reachable d) (hm : (d.merchants.map (·.id)).Nodup)
    (hlog : ∀ raised, signing.rejectionLogged = .error raised → raised = .typeError)
    (hr : r.Admissible security d) :
    Handled (r.outcome security signing d) ↔ ¬ r.Escapes signing d := by
  cases r with
  | createOrder merchant credentials payload ids =>
    exact handled_map.trans ⟨fun _ => id, fun _ => handled_createOrder hd hr⟩
  | initiateUpi merchant credentials payload ids =>
    exact handled_map.trans (handled_initiateUpi hd hr)
  | bankCallback request callback =>
    exact handled_map.trans (handled_bankCallback hd hm hlog hr)

namespace Sample

open PaymentGateway.Runs.Serial.Sample PaymentGateway.Specs.Callback.Sample

def cryptography : Security where
  decodeAccessToken := fun _ => .error "Invalid or expired token"
  deriveKey := fun key => key ++ "-hash"

/-- The logger is structlog's. -/
def libraries : Signing := ⟨"merchant-secret", fun _ _ => "signature", .error .typeError⟩

/-- The payment of alice is in process. -/
def processing : Db := waiting alicePays

theorem reachable_processing : Reachable processing :=
  reachable_serveAll (reachable_empty [shop]) (by decide)

theorem authenticated : (database.serve (getCurrentMerchant cryptography
    ⟨none, some "api-key"⟩) processing).1 = .ok shop := by decide +kernel

/-- The shop asks bob for the same order. -/
def secondVpa : Request :=
  .initiateUpi shop ⟨none, some "api-key"⟩ bobPays ⟨uuid 8, "other", "other"⟩

/-- The shop asks alice again. -/
def sameVpa : Request :=
  .initiateUpi shop ⟨none, some "api-key"⟩ alicePays ⟨uuid 8, "other", "other"⟩

end Sample

/-- The same vpa again. -/
theorem handled_sameVpa :
    Handled (Sample.sameVpa.outcome Sample.cryptography Sample.libraries Sample.processing) := by
  have hlog : ∀ raised, Sample.libraries.rejectionLogged = .error raised → raised = .typeError := by
    rintro raised ⟨⟩
    rfl
  have hr : Sample.sameVpa.Admissible Sample.cryptography Sample.processing := Sample.authenticated
  refine (handled_iff Sample.reachable_processing (by decide +kernel) hlog hr).mpr ?_
  rintro ⟨i, hi, -, -, -, hnone⟩
  have hintents : Sample.processing.intents = [Specs.Callback.Sample.intent] := by decide +kernel
  rw [hintents, List.mem_singleton] at hi
  subst hi
  exact hnone (Specs.Callback.Sample.transaction "alice@bank") (by decide +kernel)
    ⟨rfl, rfl, rfl⟩

/-- A second vpa for an order in process. -/
theorem not_handled_secondVpa : Reachable Sample.processing ∧
    Sample.secondVpa.Admissible Sample.cryptography Sample.processing ∧
    Sample.secondVpa.outcome Sample.cryptography Sample.libraries Sample.processing =
      .error (.invalidStateTransition
        "Illegal payment intent transition PROCESSING -> PROCESSING") ∧
    ¬ Handled (Sample.secondVpa.outcome Sample.cryptography Sample.libraries
      Sample.processing) := by
  have hout : Sample.secondVpa.outcome Sample.cryptography Sample.libraries Sample.processing =
      .error (.invalidStateTransition
        "Illegal payment intent transition PROCESSING -> PROCESSING") := by decide +kernel
  refine ⟨Sample.reachable_processing, Sample.authenticated, hout, ?_⟩
  rw [hout]
  exact fun h => (h.elim id id).elim

end PaymentGateway.Results.Statuses
