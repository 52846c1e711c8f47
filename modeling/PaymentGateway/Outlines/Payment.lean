import PaymentGateway.Outlines.Rules
import PaymentGateway.Services.Payment

/-! # The outline of a payment initiation

`initiate_upi` holds the row of the intent, but works with the object in the identity map. What it
commits is the initiation of a payment of a created intent, provided that an object that says so is
current when the transactions of the intent are queried (`Current`); in a fresh session it always
is. -/

namespace PaymentGateway.Outlines.Payment

open PaymentGateway.Core.Ids PaymentGateway.Models PaymentGateway.Schemas
open PaymentGateway.Lib.Program PaymentGateway.Lib.Interference PaymentGateway.Lib.Tables
open PaymentGateway.Db.Statements PaymentGateway.Db.Locking PaymentGateway.Db.Flush
open PaymentGateway.Services.StateMachine PaymentGateway.Services.Payment
open PaymentGateway.State.Changes PaymentGateway.State.Invariant PaymentGateway.Outlines.Rules

/-- What an initiation may commit. -/
def Initiates (ids : InitiateIds) (d d' : Db) : Prop :=
  ∃ t i, t.pspReference = some (newId "psp" ids.pspToken) ∧ Initiated t i d d'

theorem Initiates.change {ids : InitiateIds} {d d' : Db} (h : Initiates ids d d') :
    Change d d' := by
  obtain ⟨t, i, -, h⟩ := h
  exact .initiated h

/-- Where the transactions of an intent are queried and there is none: if the session has the intent
as created, so has the database. -/
def Current : Stmt → Db → Session → Prop
  | .selectTransactionsOf id vpa method, d, l =>
    (∀ t ∈ d.transactions, ¬ (t.intentId = id ∧ t.vpa = vpa ∧ t.paymentMethod = method)) →
      ∀ x ∈ l.loaded, x.id = id → x.status = .created →
        ∀ i ∈ d.intents, i.id = id → i.status = .created
  | _, _, _ => True

instance decidableCurrent : (s : Stmt) → (d : Db) → (l : Session) → Decidable (Current s d l)
  | .selectTransactionsOf id vpa method, d, l =>
    inferInstanceAs (Decidable
      ((∀ t ∈ d.transactions, ¬ (t.intentId = id ∧ t.vpa = vpa ∧ t.paymentMethod = method)) →
        ∀ x ∈ l.loaded, x.id = id → x.status = .created →
          ∀ i ∈ d.intents, i.id = id → i.status = .created))
  | .selectMerchantById _, _, _ => isTrue trivial
  | .selectMerchantByKeyHash _, _, _ => isTrue trivial
  | .selectinPaymentIntents _, _, _ => isTrue trivial
  | .selectIntentByKey _ _, _, _ => isTrue trivial
  | .selectIntentByPublicId _ _, _, _ => isTrue trivial
  | .selectIntentForUpdate _ _, _, _ => isTrue trivial
  | .selectIntentById _, _, _ => isTrue trivial
  | .selectTransactionByPsp _, _, _ => isTrue trivial
  | .insertAccount _ _ _ _, _, _ => isTrue trivial
  | .selectAccount _ _, _, _ => isTrue trivial
  | .selectMerchantByPsp _, _, _ => isTrue trivial
  | .stage _, _, _ => isTrue trivial
  | .commit, _, _ => isTrue trivial
  | .rollback, _, _ => isTrue trivial
  | .refreshIntent _, _, _ => isTrue trivial
  | .refreshTransaction _, _, _ => isTrue trivial
  | .refreshDelivery _, _, _ => isTrue trivial
  | .delay _ _ _ _, _, _ => isTrue trivial

variable {i : PaymentIntent} {l : Session} {d d' : Db} {merchant : Merchant}
  {payload : UpiInitiateRequest} {ids : InitiateIds} {J : Db → Prop}
  {A : Stmt → Db → Session → Prop} {effect : Db → Db → Prop}
  {R : Except Exc UpiInitiateResponse → Session → Db → Prop}

/-! ### The object of a row -/

/-- The object that a SELECT returns for a row has its id and is in the identity map. -/
theorem objects_singleton {rows : List PaymentIntent} {x : PaymentIntent}
    (h : l.objects rows = [x]) : ∃ r, rows = [r] ∧ x.id = r.id ∧ x ∈ l.load rows ∧
      (l.loaded = [] → x = r) := by
  unfold Session.objects at h
  obtain ⟨r, rfl, hx⟩ := List.map_eq_singleton_iff.mp h
  refine ⟨r, rfl, ?_⟩
  unfold Session.load
  cases hf : l.loaded.find? (·.id = r.id) with
  | none =>
    rw [hf] at hx
    obtain rfl : r = x := hx
    refine ⟨rfl, List.mem_append_right _ ?_, fun _ => rfl⟩
    have hnone := List.find?_eq_none.mp hf
    simpa using hnone
  | some y =>
    rw [hf] at hx
    obtain rfl : y = x := hx
    refine ⟨of_decide_eq_true (List.find?_some hf :), ?_, fun hl => ?_⟩
    · exact List.mem_append_left _ (List.mem_of_find?_eq_some hf)
    · rw [hl] at hf; cases hf

/-! ### The flush -/

theorem flush_begun {x : PaymentIntent} (h : l.flush d = .ok d') (hi : i ∈ d.intents)
    (hx : x.id = i.id) (hinserted : l.inserted = []) (hpending : l.pending =
      [.setIntentStatus x.id .processing, .addTransaction (newTransaction x payload ids)]) :
    Begun (newTransaction i payload ids) i d d' := by
  have hrow : newTransaction x payload ids = newTransaction i payload ids := by
    rw [newTransaction, newTransaction, hx]
  unfold Session.flush at h
  rw [hpending, hinserted, List.append_nil] at h
  obtain ⟨d₁, h₁, h⟩ := bind_ok h
  obtain ⟨d₂, h₂, h⟩ := bind_ok h
  cases h
  obtain rfl := setIntentStatus_ok h₁
  obtain ⟨hfresh, rfl⟩ := addTransaction_ok h₂
  rw [hx, hrow]
  rw [hrow] at hfresh
  exact ⟨hi, rfl, rfl, payload.vpa_valid.1, hfresh, rfl⟩

theorem flush_initiated {x : PaymentIntent} (h : l.flush d = .ok d') (hi : i ∈ d.intents)
    (hx : x.id = i.id) (hcreated : i.status = .created) (hinserted : l.inserted = [])
    (hpending : l.pending =
      [.setIntentStatus x.id .processing, .addTransaction (newTransaction x payload ids)]) :
    Initiates ids d d' :=
  ⟨_, i, rfl, (flush_begun h hi hx hinserted hpending).initiated hcreated⟩

/-! ### The program -/

/-- The transaction `t` pays an order of the merchant, as the request says. -/
structure Pays (merchant : Merchant) (payload : UpiInitiateRequest) (t : Transaction)
    (i : PaymentIntent) (d : Db) : Prop where
  txn : t ∈ d.transactions
  intent : i ∈ d.intents
  intentId : i.id = t.intentId
  merchant : i.merchantId = merchant.id
  order : i.publicId = payload.orderId
  vpa : t.vpa = payload.vpa

/-- It does so for good: at most its state and the status of the order change. -/
theorem Pays.frame {t : Transaction} (h : Pays merchant payload t i d) {keep : List RowId}
    (hf : Frame keep d d') :
    ∃ u j, u.id = t.id ∧ j.id = i.id ∧ u.publicId = t.publicId ∧ u.pspReference = t.pspReference ∧
      Pays merchant payload u j d' := by
  obtain ⟨u, hu, htu, -⟩ := hf.transactions.exists_mem h.txn
  obtain ⟨j, hj, hij, -⟩ := hf.intents.exists_mem h.intent
  refine ⟨u, j, by rw [htu], by rw [hij], by rw [htu], by rw [htu], hu, hj, ?_, ?_, ?_, ?_⟩
  · rw [hij, htu, ← h.intentId]
  · rw [hij, ← h.merchant]
  · rw [hij, ← h.order]
  · rw [htu, ← h.vpa]

/-- The answer names a payment of the request and its order. -/
def Answers (merchant : Merchant) (payload : UpiInitiateRequest) (res : UpiInitiateResponse)
    (d : Db) : Prop :=
  ∃ t i, Pays merchant payload t i d ∧ res.transactionId = t.publicId ∧
    res.orderId = i.publicId ∧ res.pspReference = t.pspReference

/-- The payment of the ids is there, for the order. -/
def Made (merchant : Merchant) (payload : UpiInitiateRequest) (id intentId : UUID) (d : Db) : Prop :=
  ∃ t i, t.id = id ∧ i.id = intentId ∧ Pays merchant payload t i d

theorem Made.frame {id intentId : UUID} (h : Made merchant payload id intentId d)
    {keep : List RowId} (hf : Frame keep d d') : Made merchant payload id intentId d' := by
  obtain ⟨t, i, ht, hi, h⟩ := h
  obtain ⟨u, j, hu, hj, -, -, h'⟩ := h.frame hf
  exact ⟨u, j, hu.trans ht, hj.trans hi, h'⟩

theorem made_of_begun (h : Begun (newTransaction i payload ids) i d d')
    (hmerchant : i.merchantId = merchant.id) (horder : i.publicId = payload.orderId) :
    Made merchant payload ids.transactionId i.id d' := by
  refine ⟨newTransaction i payload ids, withStatus i.id .processing i, rfl, by simp, ?_⟩
  rw [h.db]
  exact ⟨List.mem_append_right _ (List.mem_singleton_self _), List.mem_map_of_mem h.intent,
    by simp [newTransaction], by simp [hmerchant], by simp [horder], rfl⟩

/-! ### The program -/

/-- What `startPayment` has committed is answered. -/
theorem outline_made {intentId : UUID} (hJ : ∀ d, J d → Keys d)
    (h : Made merchant payload ids.transactionId intentId d)
    (hok : ∀ res l d, J d → Answers merchant payload res d → R (.ok res) l d)
    (herr : ∀ e l d, ¬ LookupError e → R (.error e) l d) :
    Outline (contract J A effect) R (do
      let intent ← execute (.refreshIntent intentId)
      let transaction ← execute (.refreshTransaction ids.transactionId)
      return ⟨transaction.publicId, intent.publicId, transaction.state, transaction.pspReference⟩)
      l d := by
  refine outline_execute _ (by simp) (fun _ _ hf h => h.frame hf) h ?_ fun d e he _ =>
    herr _ _ _ ?_
  · intro d j h _ hj _ hrow
    obtain ⟨hjmem, hjid⟩ := refreshIntent_ok hrow
    have hpublic : j.publicId = payload.orderId := by
      obtain ⟨t, i, -, hid, hp⟩ := h
      rw [eq_of_key (hJ d hj).intents hjmem hp.intent (hjid.trans hid.symm)]
      exact hp.order
    refine outline_execute _ (by simp) (fun _ _ hf h => h.frame hf) h ?_ fun d e he _ =>
      herr _ _ _ ?_
    · rintro d u ⟨t, i, htid, -, hp⟩ _ hj _ hrow
      obtain ⟨hu, huid⟩ := refreshTransaction_ok hrow
      obtain rfl := eq_of_key (hJ d hj).transactions hu hp.txn (huid.trans htid.symm)
      exact hok _ _ d hj ⟨u, i, hp, rfl, hpublic.trans hp.order.symm, rfl⟩
    · simp only [exec] at he
      split at he <;> cases he
      simp [LookupError]
  · simp only [exec] at he
    split at he <;> cases he
    simp [LookupError]

theorem outline_startPayment {x : PaymentIntent} (hJ : ∀ d, J d → Keys d)
    (heff : x.status = .created → ∀ d d', Begun (newTransaction i payload ids) i d d' → effect d d')
    (hi : i ∈ d.intents) (hx : x.id = i.id) (hlocked : .intent i.id ∈ l.locks)
    (horder : i.publicId = payload.orderId) (hmerchant : i.merchantId = merchant.id)
    (hinserted : l.inserted = []) (hpending : l.pending = [])
    (hok : ∀ res l d, J d → Answers merchant payload res d → R (.ok res) l d)
    (herr : ∀ e l d, ¬ LookupError e → R (.error e) l d) :
    Outline (contract J A effect) R (startPayment x payload ids) l d := by
  unfold startPayment
  have hstable : ∀ d d', Frame l.locks d d' → i ∈ d.intents → i ∈ d'.intents :=
    fun _ _ hf h => hf.mem_intents h hlocked
  refine outline_ofExcept (fun u hu => ?_) fun e he => ?_
  · have hstatus : x.status = .created := by
      have hmem := assertIntentTransition_ok hu
      cases hs : x.status <;> rw [hs] at hmem <;> simp [paymentIntentTransitions] at hmem ⊢
    refine outline_stage _ hstable hi fun d hi _ => ?_
    refine outline_ofExcept (fun u _ => ?_) fun e he => by cases he
    refine outline_stage _ hstable hi fun d hi _ => ?_
    refine outline_commit _ hstable hi ?_ fun d e h _ => herr _ _ _ (not_lookupError_flush h)
    intro d d' hi _ _ _ h
    have hpending' : l.pending ++ [.setIntentStatus x.id .processing] ++
        [.addTransaction (newTransaction x payload ids)] = [.setIntentStatus x.id .processing,
        .addTransaction (newTransaction x payload ids)] := by rw [hpending]; rfl
    have hbegun := flush_begun h hi hx hinserted hpending'
    refine ⟨.inr (heff hstatus _ _ hbegun), outline_made hJ ?_ hok herr⟩
    rw [hx]
    exact made_of_begun hbegun hmerchant horder
  · refine herr _ _ _ ?_
    unfold assertIntentTransition at he
    split_ifs at he
    cases he
    simp [LookupError]

/-- **`initiate_upi`** commits at most the beginning of a payment of the request, and answers with
one, if the session knows its intents. If the session is fresh, or the objects it works with are
current, the intent was created. -/
theorem outline_initiation (hJ : ∀ d, J d → Keys d)
    (hmany : (∀ d, J d → (d.transactions.map (·.intentId)).Nodup) ∨
      ∀ l d, R (.error .multipleResultsFound) l d)
    (hinserted : l.inserted = []) (hpending : l.pending = [])
    (heff : ∀ i d d', i.merchantId = merchant.id → i.publicId = payload.orderId →
      Begun (newTransaction i payload ids) i d d' →
      ((l.loaded = [] ∨ ∀ s d l, A s d l → Current s d l) → i.status = .created) → effect d d')
    (hok : ∀ res l' d', J d' → (Known l d → Answers merchant payload res d') → R (.ok res) l' d')
    (herr : ∀ e l d, ¬ LookupError e → R (.error e) l d) :
    Outline (contract J A effect) R (initiateUpi merchant payload ids) l d := by
  unfold initiateUpi
  refine outline_execute (fun d' => Known l d → Known l d') (by simp)
    (fun _ _ hf h hd => (h hd).frame hf) id ?_ fun _ _ he => by cases he
  intro d' rows hknown _ hj _ hrows
  cases hrows
  refine outline_scalarOneOrNone (fun _ => ?_) (fun x hx => ?_) fun hrows => ?_
  · exact herr _ _ _ (by simp [LookupError])
  · obtain ⟨i, hone, hid, hloaded, hfresh⟩ := objects_singleton hx
    have himem := List.mem_filter.mp (hone ▸ List.mem_singleton_self i)
    have hi : i ∈ d'.intents := himem.1
    obtain ⟨horder, hmerchant⟩ := of_decide_eq_true himem.2
    have hxi : Known l d → IntentKept [] x i := fun hd => by
      obtain ⟨r, hr, hxr⟩ := (hknown hd).objects (hJ d' hj)
        (fun r hr => (List.mem_filter.mp hr).1) (hx ▸ List.mem_singleton_self x)
      rw [hone, List.mem_singleton] at hr
      exact hr ▸ hxr
    have hlocked : .intent i.id ∈
        (exec (.selectIntentForUpdate payload.orderId merchant.id) d' l).2.2.locks :=
      List.mem_append_right _ (List.mem_map.mpr ⟨i, hone ▸ List.mem_singleton_self i, rfl⟩)
    have hsession :
        (exec (.selectIntentForUpdate payload.orderId merchant.id) d' l).2.2.inserted = [] ∧
        (exec (.selectIntentForUpdate payload.orderId merchant.id) d' l).2.2.pending = [] :=
      ⟨hinserted, hpending⟩
    have hloaded :
        x ∈ (exec (.selectIntentForUpdate payload.orderId merchant.id) d' l).2.2.loaded := hloaded
    generalize (exec (.selectIntentForUpdate payload.orderId merchant.id) d' l).2.2 = l₁
      at hlocked hsession hloaded ⊢
    dsimp only
    split_ifs with hfinal
    · exact herr _ _ _ (by simp [LookupError])
    · refine outline_execute (fun d => i ∈ d.intents) (by simp)
        (fun _ _ hf h => hf.mem_intents h hlocked) hi ?_ fun _ _ he => by cases he
      intro d₁ rows hi _ hj hA hrows
      cases hrows
      refine outline_scalarOneOrNone (fun hnone => ?_) (fun t ht => ?_) fun hrows => ?_
      · refine outline_startPayment hJ (fun hstatus d₂ d₃ hb => ?_) hi hid hlocked horder hmerchant
          hsession.1 hsession.2 (fun res l d hj h => hok res l d hj fun _ => h) herr
        refine heff i d₂ d₃ hmerchant horder hb ?_
        rintro (hl | hcurrent)
        · rw [← hfresh hl]; exact hstatus
        · refine hcurrent _ _ _ hA ?_ x hloaded rfl hstatus i hi hid.symm
          intro t ht ht'
          exact List.filter_eq_nil_iff.mp hnone t ht (decide_eq_true ht')
      · have htmem := List.mem_filter.mp (ht ▸ List.mem_singleton_self t)
        obtain ⟨htid, hvpa, -⟩ := of_decide_eq_true htmem.2
        refine hok _ _ _ hj fun hd => ⟨t, i,
          ⟨htmem.1, hi, hid.symm.trans htid.symm, hmerchant, horder, hvpa⟩, rfl, ?_, rfl⟩
        rw [(hxi hd).1]
      · rcases hmany with hone | hany
        · have hle := length_filter_le_one (c := fun t : Transaction => t.intentId = x.id ∧
            t.vpa = payload.vpa ∧ t.paymentMethod = .upi) (hone d₁ hj)
            fun t _ u _ ht hu => ht.1.trans hu.1.symm
          omega
        · exact hany _ _
  · have hle := length_filter_le_one (c := fun i : PaymentIntent => i.publicId = payload.orderId ∧
      i.merchantId = merchant.id) (hJ d' hj).publicIds fun x _ y _ hx hy => hx.1.trans hy.1.symm
    rw [Session.objects, List.length_map] at hrows
    omega

/-- **`initiate_upi`** commits at most the initiation of a payment, if the session is fresh or the
objects it works with are current. -/
theorem outline_initiateUpi (hJ : ∀ d, J d → Consistent d)
    (heff : ∀ d d', Initiates ids d d' → effect d d')
    (hcurrent : l.loaded = [] ∨ ∀ s d l, A s d l → Current s d l) (hinserted : l.inserted = [])
    (hpending : l.pending = []) (hok : ∀ res l d, R (.ok res) l d)
    (herr : ∀ e l d, ¬ LookupError e → R (.error e) l d) :
    Outline (contract J A effect) R (initiateUpi merchant payload ids) l d :=
  outline_initiation (fun d hd => (hJ d hd).keys) (.inl fun d hd => (hJ d hd).coupled.one) hinserted
    hpending (fun i d d' _ _ hb hcreated => heff d d' ⟨_, i, rfl, hb.initiated (hcreated hcurrent)⟩)
    (fun res l d _ _ => hok res l d) herr

end PaymentGateway.Outlines.Payment
