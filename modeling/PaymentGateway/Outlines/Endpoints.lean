import PaymentGateway.Api.Orders
import PaymentGateway.Outlines.Order
import PaymentGateway.Outlines.Requests
import PaymentGateway.Outlines.Webhook
import PaymentGateway.Runs.Deliveries
import PaymentGateway.State.Histories

/-! # The outlines of the endpoints

An endpoint relies on more than its service does: transactions that have their final state stay as
they are (`steady`). So what `bank_callback` tells the merchant is still true when it commits the
delivery. Each outline says what the endpoint may commit, and for whom, and of what it answers. -/

namespace PaymentGateway.Outlines.Endpoints

open PaymentGateway.Core.Ids PaymentGateway.Models PaymentGateway.Schemas
open PaymentGateway.Lib.Program PaymentGateway.Lib.Sessions PaymentGateway.Lib.Interference
open PaymentGateway.Db.Statements PaymentGateway.Db.Locking PaymentGateway.Db.Flush
open PaymentGateway.Services.Order PaymentGateway.Services.Payment PaymentGateway.Services.Webhook
open PaymentGateway.Api.Deps PaymentGateway.Api.Orders PaymentGateway.Api.Payments
open PaymentGateway.Api.Webhooks PaymentGateway.State.Changes PaymentGateway.State.Invariant
open PaymentGateway.State.Outbox PaymentGateway.State.Histories PaymentGateway.Outlines.Rules
open PaymentGateway.Outlines.Order PaymentGateway.Outlines.Payment PaymentGateway.Outlines.Requests
open PaymentGateway.Outlines.Webhook PaymentGateway.Runs.Shapes PaymentGateway.Runs.Notifications
open PaymentGateway.Runs.Deliveries

/-- The contract of a service, with what is final left alone by the others. -/
def steady (J : Db → Prop) (effect : Db → Db → Prop) : Contract database where
  assume _ d l := Own d l ∧ J d
  rely l d d' := Frame l.locks d d' ∧ Final d d'
  guar d d' := d' = d ∨ effect d d'
  refl _ d := ⟨.refl d, .refl d⟩
  trans h h' := ⟨h.1.trans h'.1, h.2.trans h'.2⟩

variable {α : Type} {J : Db → Prop} {effect : Db → Db → Prop} {d d' : Db} {l : Session}
  {Q : Except Exc α → Session → Db → Prop} {p : Sql α}

/-- The outline of a service is one of the endpoint. -/
theorem steady_of (h : Outline (contract J (fun _ _ _ => True) effect) Q p l d) :
    Outline (steady J effect) Q p l d :=
  h.adapt (fun _ _ _ ha => ⟨ha.1, ha.2, trivial⟩) (fun _ _ _ hr => hr.1) fun _ _ hg => hg

/-! ### Orders and payments -/

section Requests

variable {A : Stmt → Db → Session → Prop} {security : Security} {credentials : Credentials}

/-- The response shows an order of the merchant for which `c` holds. -/
def Shows (m : Merchant) (c : PaymentIntent → Prop) (res : CreateOrderResponse) (d : Db) : Prop :=
  ∃ i ∈ d.intents, i.merchantId = m.id ∧ c i ∧
    ∃ status, res = ⟨i.publicId, i.idempotencyKey, i.amount, i.currency, status⟩

theorem Shows.frame {m : Merchant} {c : PaymentIntent → Prop} {res : CreateOrderResponse}
    {keep : List RowId} (h : Shows m c res d) (hc : ∀ i status, c i → c { i with status := status })
    (hf : Frame keep d d') : Shows m c res d' := by
  obtain ⟨i, hi, hmerchant, hci, status, rfl⟩ := h
  obtain ⟨j, hj, hij, -⟩ := hf.intents.exists_mem hi
  exact ⟨j, hj, by rw [hij, ← hmerchant], hij ▸ hc i _ hci, status, by rw [hij]⟩

/-- `POST /orders` -/
theorem outline_createOrderEndpoint {payload : CreateOrderRequest} {ids : OrderIds}
    {R : Except Exc CreateOrderResponse → Session → Db → Prop} (hJ : ∀ d, J d → Keys d)
    (heff : ∀ m d₀ d d', J d₀ → Authenticates security credentials m d₀.merchants →
      Creates m payload ids d d' → effect d d')
    (hok : ∀ m d₀ res l d, J d₀ → Authenticates security credentials m d₀.merchants →
      Shows m (·.idempotencyKey = payload.idempotencyKey) res d → R (.ok res) l d)
    (herr : ∀ e l d, R (.error e) l d) :
    Outline (contract J A effect) R (createOrderEndpoint security credentials payload ids)
      .closed d := by
  unfold createOrderEndpoint
  refine outline_getCurrentMerchant clean_closed (fun m l d d₀ hl hj₀ hm => ?_) herr
  refine Outline.tryCatch (P := R) ?_ (fun _ _ _ h => h) fun e l d _ => herr _ l d
  exact outline_order hJ hl.known hl.inserted hl.pending (fun d d' h => heff m d₀ d d' hj₀ hm h)
    (fun i status l d _ hi hmerchant hkey =>
      hok m d₀ _ l d hj₀ hm ⟨i, hi, hmerchant, hkey, status, rfl⟩) fun e l d _ => herr e l d

/-- `GET /orders/{order_id}` -/
theorem outline_getOrder {orderId : String}
    {R : Except Exc CreateOrderResponse → Session → Db → Prop} (hJ : ∀ d, J d → Keys d)
    (hok : ∀ m d₀ res l d, J d₀ → Authenticates security credentials m d₀.merchants →
      Shows m (·.publicId = orderId) res d → R (.ok res) l d)
    (herr : ∀ e l d, R (.error e) l d) :
    Outline (contract J A effect) R
      (getCurrentMerchant security credentials >>= getOrder orderId) .closed d := by
  refine outline_getCurrentMerchant clean_closed (fun m l d d₀ hl hj₀ hm => ?_) herr
  unfold getOrder
  refine outline_execute (Known l) (by simp) (fun _ _ hf h => h.frame hf) hl.known ?_
    fun _ _ he => by cases he
  intro d rows hknown _ hj _ hrows
  cases hrows
  refine outline_scalarOneOrNone (fun _ => herr _ _ _) (fun x hx => ?_) fun _ => herr _ _ _
  obtain ⟨i, hi, hxi⟩ := hknown.objects (hJ d hj) (fun r hr => (List.mem_filter.mp hr).1)
    (hx ▸ List.mem_singleton_self x)
  obtain ⟨himem, hc⟩ := List.mem_filter.mp hi
  obtain ⟨hpublic, hmerchant⟩ := of_decide_eq_true hc
  have hstatus : i = { x with status := i.status } := hxi.1
  refine hok m d₀ _ _ d hj₀ hm ⟨i, himem, hmerchant, hpublic, x.status, ?_⟩
  rw [hstatus]

/-- `POST /payments/upi/initiate` -/
theorem outline_beginPayment {payload : UpiInitiateRequest} {ids : InitiateIds}
    {R : Except Exc UpiInitiateResponse → Session → Db → Prop} (hJ : ∀ d, J d → Keys d)
    (heff : ∀ m d₀ i d d', J d₀ → Authenticates security credentials m d₀.merchants →
      i.merchantId = m.id → i.publicId = payload.orderId →
      Begun (newTransaction i payload ids) i d d' → effect d d')
    (hok : ∀ m d₀ res l d, J d₀ → Authenticates security credentials m d₀.merchants →
      Answers m payload res d → R (.ok res) l d)
    (herr : ∀ e l d, R (.error e) l d) :
    Outline (contract J A effect) R (initiateUpiPayment security credentials payload ids)
      .closed d := by
  unfold initiateUpiPayment
  refine outline_getCurrentMerchant clean_closed (fun m l d d₀ hl hj₀ hm => ?_) herr
  refine Outline.tryCatch (P := R) ?_ (fun _ _ _ h => h) fun e l d _ => herr _ l d
  exact outline_initiation hJ (.inr fun l d => herr _ l d) hl.inserted hl.pending
    (fun i d d' hmerchant horder hb _ => heff m d₀ i d d' hj₀ hm hmerchant horder hb)
    (fun res l d _ h => hok m d₀ res l d hj₀ hm (h hl.known)) fun e l d _ => herr e l d

end Requests

/-! ### Notifications -/

section Callbacks

variable {signing : Signing} {request : BankRequest} {callback : Callback} {res : CallbackResult}
  {w : WebhookDelivery}

/-- What the others may do meanwhile keeps what has been settled. -/
theorem keeps_of_steady {keep : List RowId} (h : Frame keep d d' ∧ Final d d') : Keeps d d' := by
  refine ⟨h.2, fun i hi => ?_⟩
  obtain ⟨j, hj, hij, -⟩ := h.1.intents.exists_mem hi
  exact ⟨j, hj, by rw [hij], by rw [hij], by rw [hij]⟩

theorem reported_keeps (h : Keeps d d')
    (hr : Reported callback.event callback.pspReference res d) :
    Reported callback.event callback.pspReference res d' := by
  obtain ⟨t, ht, i, hi, hit, hpsp, hstate, hres⟩ := hr
  obtain ⟨j, hj, hid, hpublic, -⟩ := h.intents i hi
  refine ⟨t, h.settled t ht (hstate ▸ targetTxn_ne_pending), j, hj, hid.trans hit, hpsp, hstate, ?_⟩
  rw [settledResult, hpublic]
  exact hres

/-- An answer that is no replay tells of the payment that it has settled. -/
theorem tells_of_reported (h : Reported callback.event callback.pspReference res d)
    (hr : res.replay = false) : Tells callback res d := by
  obtain ⟨t, ht, i, hi, hit, hpsp, hstate, rfl | rfl⟩ := h
  · cases hr
  · exact ⟨t, ht, i, hi, hit, hpsp, hstate, rfl⟩

/-- The delivery goes to the url of its merchant, and is signed. -/
def Addressed (signing : Signing) (w : WebhookDelivery) (ms : List Merchant) : Prop :=
  (∃ m ∈ ms, m.id = w.merchantId ∧ m.webhookUrl = some w.url) ∧
    w.signature = signing.signPayload (Lib.Utf8.encode w.payload) signing.merchantWebhookSecret

/-- What `bank_callback` may commit after the payment. -/
def Announces (signing : Signing) (d d' : Db) : Prop :=
  ∃ w, Addressed signing w d.merchants ∧ Written w d ∧ d' = withDelivery w d

/-- A program that does not commit. -/
theorem outline_quiet (h : p.Quiet Commits) : Outline (steady J effect) (fun _ _ _ => True) p l d := by
  induction p generalizing l d with
  | ret a => trivial
  | raise e => trivial
  | call s k ih =>
    intro d' _ _
    exact ⟨.inl (exec_db h.1), ih _ (h.2 _)⟩

/-- The commit of a delivery, which may fail. -/
theorem commit_delivery (hinserted : l.inserted = []) (hpending : l.pending = [.addDelivery w]) :
    (exec .commit d l).2.1 = d ∨ (exec .commit d l).2.1 = withDelivery w d := by
  simp only [exec]
  split
  · rename_i d' hf
    unfold Session.flush at hf
    simp only [hinserted, hpending, List.append_nil] at hf
    obtain ⟨d₁, h₁, hf⟩ := bind_ok hf
    cases hf
    exact .inr (addDelivery_ok h₁)
  · exact .inl rfl

theorem outline_enqueue (heff : ∀ d d', Announces signing d d' → effect d d')
    (hl : Idle l) (haddressed : Addressed signing w d.merchants) (hwritten : Written w d) :
    Outline (steady J effect) (fun _ _ _ => True) (enqueue signing request w) l d := by
  have hstable : ∀ l d d', (steady J effect).rely l d d' →
      (Addressed signing w d.merchants ∧ Written w d) →
      Addressed signing w d'.merchants ∧ Written w d' := fun l d d' hr h =>
    ⟨hr.1.merchants.symm ▸ h.1, (keeps_of_steady hr).written h.2⟩
  unfold enqueue
  rw [execute_bind]
  refine Outline.call _ (hstable l) ⟨haddressed, hwritten⟩ fun d h _ => ⟨.inl rfl, ?_⟩
  rw [execute_bind]
  refine Outline.call _ (hstable _) h fun d h _ => ?_
  have hquiet : ∀ r : Except Exc Unit, ((Prog.ofExcept r : Sql Unit) >>= fun _ =>
      dispatch signing request).Quiet Commits := fun r => by
    refine Prog.quiet_ofExcept.bind fun _ => ?_
    refine (quiet_execute (by simp [Commits])).bind fun _ => ?_
    exact (quiet_execute (by simp [Commits])).bind fun _ => Prog.quiet_ofExcept.bind fun _ => trivial
  refine ⟨?_, outline_quiet (hquiet _)⟩
  rcases commit_delivery (d := d) (l := ⟨l.loaded, l.locks, l.inserted, l.pending ++ [.addDelivery w]⟩)
    hl.1 (by rw [hl.2]; rfl) with hsame | hdelivered
  · exact .inl hsame
  · exact .inr (heff _ _ ⟨w, h.1, h.2, hdelivered⟩)

/-- The merchant is told of a payment that has been settled. -/
theorem outline_notify (ho : ∀ d, J d → Owned d)
    (heff : ∀ d d', Announces signing d d' → effect d d') (hl : Idle l)
    (h : Reported callback.event callback.pspReference res d) :
    Outline (steady J effect) (fun _ _ _ => True) (notify signing request callback res) l d := by
  have hstable : ∀ d d', (steady J effect).rely l d d' →
      Reported callback.event callback.pspReference res d →
      Reported callback.event callback.pspReference res d' := fun d d' hr h =>
    reported_keeps (keeps_of_steady hr) h
  unfold notify
  rw [execute_bind]
  refine Outline.call _ hstable h fun d h ⟨_, hj⟩ => ⟨.inl rfl, ?_⟩
  change Outline _ _ (scalarOneOrNone (merchantsOf callback.pspReference d) >>=
    inform signing request callback res) l d
  match hm : merchantsOf callback.pspReference d with
  | [] => trivial
  | _ :: _ :: _ => trivial
  | [m] =>
    have hmem : m ∈ merchantsOf callback.pspReference d := hm ▸ List.mem_singleton_self m
    change Outline _ _ (inform signing request callback res (some m)) l d
    unfold inform
    dsimp only
    split
    · trivial
    · rename_i url hurl
      split_ifs with hsend
      · have htells : Tells callback res d := tells_of_reported h hsend.2
        refine outline_enqueue heff hl ⟨⟨m, (mem_merchantsOf.mp hmem).1, rfl, hurl⟩, rfl⟩ ?_
        exact written_newDelivery htells fun t ht hpsp i hi hit =>
          merchant_of_single (ho d hj) hm ht hpsp hi hit
      · trivial

/-- `POST /webhooks/bank-callback` -/
theorem outline_bankCallback (hJ : ∀ d, J d → Balanced d) (ho : ∀ d, J d → Owned d)
    (hsettles : ∀ callback d d', request.verified = .ok callback →
      Settles callback.event callback.pspReference callback.amount d d' → effect d d')
    (hannounces : ∀ callback d d', request.verified = .ok callback →
      Announces signing d d' → effect d d') :
    Outline (steady J effect) (fun _ _ _ => True) (bankCallback signing request) .closed d := by
  unfold bankCallback
  cases hv : request.verified with
  | error e => trivial
  | ok callback =>
    refine Outline.bind (P := fun r l d => ∀ res, r = .ok res →
        Idle l ∧ Reported callback.event callback.pspReference res d) ?_
      (fun res l d h => ?_) fun _ _ _ _ => trivial
    · refine Outline.tryCatch (P := fun r l d => ∀ res, r = .ok res →
        Idle l ∧ Reported callback.event callback.pspReference res d) ?_ (fun _ _ _ h => h)
        fun _ _ _ _ _ he => by cases he
      refine steady_of (outline_callback hJ (fun d d' h => hsettles callback d d' hv h)
        (.inr fun _ _ _ _ he => by cases he) ?_ fun _ _ _ _ _ _ he => by cases he)
      rintro res loaded d hr - - _ he
      cases he
      exact ⟨⟨rfl, rfl⟩, hr⟩
    · obtain ⟨hl, hr⟩ := h res rfl
      exact outline_notify ho (fun d d' h => hannounces callback d d' hv h) hl hr

end Callbacks

end PaymentGateway.Outlines.Endpoints
