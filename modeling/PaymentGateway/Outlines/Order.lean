import PaymentGateway.Outlines.Rules
import PaymentGateway.Services.Order

/-! # The outline of an order creation -/

namespace PaymentGateway.Outlines.Order

open PaymentGateway.Core.Ids PaymentGateway.Models PaymentGateway.Schemas
open PaymentGateway.Lib.Program PaymentGateway.Lib.Sessions PaymentGateway.Lib.Interference
open PaymentGateway.Lib.Tables PaymentGateway.Lib.DecimalArith
open PaymentGateway.Db.Statements PaymentGateway.Db.Locking PaymentGateway.Db.Flush
open PaymentGateway.Services.Order
open PaymentGateway.State.Changes PaymentGateway.State.Invariant PaymentGateway.Outlines.Rules

/-- What an order creation may commit. -/
def Orders (d d' : Db) : Prop := ∃ i, Ordered i d d'

theorem Orders.change {d d' : Db} (h : Orders d d') : Change d d' := by
  obtain ⟨i, h⟩ := h
  exact .ordered h

variable {l : Session} {d d' : Db} {merchant : Merchant} {payload : CreateOrderRequest}
  {ids : OrderIds} {J : Db → Prop} {A : Stmt → Db → Session → Prop} {effect : Db → Db → Prop}
  {R : Except Exc CreateOrderResponse → Session → Db → Prop}

/-- The amount of a request is stored as it is, and positive. -/
theorem amount_pos {money : Money} (h : Numeric.ofDecimal 18 4 payload.amount = some money) :
    0 < money.units := by
  obtain ⟨u, hu, hpos, -⟩ := payload.amount_valid
  rw [hu] at h
  have hv : Decimal.value? (.finite false u (-4)) = some ((u : ℤ) * 10 ^ (-(4 : ℕ) : ℤ) : ℚ) := by
    simp [Decimal.value?, signed]
  rw [(Numeric.ofDecimal_eq_some hv).mp h]
  exact_mod_cast hpos

/-- What an order creation may commit: the intent is the payload's. -/
def Creates (merchant : Merchant) (payload : CreateOrderRequest) (ids : OrderIds) (d d' : Db) :
    Prop :=
  ∃ money, Numeric.ofDecimal 18 4 payload.amount = some money ∧
    Ordered ⟨ids.intentId, newId "ord" ids.token, merchant.id, money, payload.currency, .created,
      payload.idempotencyKey, payload.description⟩ d d'

theorem Creates.orders (h : Creates merchant payload ids d d') : Orders d d' := by
  obtain ⟨money, -, h⟩ := h
  exact ⟨_, h⟩

/-- The intent of a creation is there. -/
def Placed (merchant : Merchant) (payload : CreateOrderRequest) (ids : OrderIds) (d : Db) : Prop :=
  ∃ i ∈ d.intents, i.id = ids.intentId ∧ i.merchantId = merchant.id ∧
    i.idempotencyKey = payload.idempotencyKey

theorem Creates.placed (h : Creates merchant payload ids d d') : Placed merchant payload ids d' := by
  obtain ⟨money, -, h⟩ := h
  rw [h.db]
  exact ⟨_, List.mem_append_right _ (List.mem_singleton_self _), rfl, rfl, rfl⟩

theorem Placed.frame (h : Placed merchant payload ids d) {keep : List RowId}
    (hf : Frame keep d d') : Placed merchant payload ids d' := by
  obtain ⟨i, hi, hid, hmerchant, hkey⟩ := h
  obtain ⟨j, hj, hij, -⟩ := hf.intents.exists_mem hi
  exact ⟨j, hj, by rw [hij, ← hid], by rw [hij, ← hmerchant], by rw [hij, ← hkey]⟩

theorem flush_creates (h : l.flush d = .ok d') (hinserted : l.inserted = [])
    (hpending : l.pending = [newIntent merchant payload ids]) :
    Creates merchant payload ids d d' := by
  unfold Session.flush at h
  rw [hpending, hinserted, List.append_nil] at h
  obtain ⟨d₁, h₁, h⟩ := bind_ok h
  cases h
  obtain ⟨money, hm, hmerchant, hfresh, rfl⟩ := addIntent_ok h₁
  exact ⟨money, hm, rfl, amount_pos hm, hmerchant, hfresh, rfl⟩

theorem flush_ordered (h : l.flush d = .ok d') (hinserted : l.inserted = [])
    (hpending : l.pending = [newIntent merchant payload ids]) : Orders d d' :=
  (flush_creates h hinserted hpending).orders

theorem outline_commitIntent {f : Unit → Sql CreateOrderResponse}
    (heff : ∀ d d', Creates merchant payload ids d d' → effect d d') (hinserted : l.inserted = [])
    (hpending : l.pending = [newIntent merchant payload ids])
    (hf : ∀ l d, Placed merchant payload ids d → Outline (contract J A effect) R (f ()) l d)
    (herr : ∀ e l d, ¬ LookupError e → R (.error e) l d) :
    Outline (contract J A effect) R (commitIntent >>= f) l d := by
  refine Outline.call (fun _ => True) (fun _ _ _ h => h) trivial fun d _ _ => ?_
  simp only [contract, Machine.after, Machine.session, database, exec]
  cases hflush : l.flush d with
  | ok d' =>
    have hcreates := flush_creates hflush hinserted hpending
    exact ⟨.inr (heff _ _ hcreates), hf _ _ hcreates.placed⟩
  | error e =>
    refine ⟨.inl rfl, ?_⟩
    -- only an `IntegrityError` is caught
    rcases flush_error hflush with rfl | rfl | rfl
    · exact herr _ _ _ (by simp [LookupError])
    · refine outline_execute (s := .rollback) (f := fun _ => Prog.raise .orderIdempotencyReuse)
        (fun _ => True) (by simp) (fun _ _ _ h => h) trivial ?_ fun _ _ he => by cases he
      exact fun _ _ _ _ _ _ _ => herr _ _ _ (by simp [LookupError])
    · exact herr _ _ _ (by simp [LookupError])

/-- **`create_order`** commits at most the new intent, and answers with an intent of the merchant and
of the key. -/
theorem outline_order (hJ : ∀ d, J d → Keys d) (hknown : Known l d) (hinserted : l.inserted = [])
    (hpending : l.pending = []) (heff : ∀ d d', Creates merchant payload ids d d' → effect d d')
    (hok : ∀ i status l d, J d → i ∈ d.intents → i.merchantId = merchant.id →
      i.idempotencyKey = payload.idempotencyKey →
      R (.ok ⟨i.publicId, i.idempotencyKey, i.amount, i.currency, status⟩) l d)
    (herr : ∀ e l d, ¬ LookupError e → R (.error e) l d) :
    Outline (contract J A effect) R (createOrder merchant payload ids) l d := by
  unfold createOrder
  refine outline_execute (Known l) (by simp) (fun _ _ hf h => h.frame hf) hknown ?_
    fun _ _ he => by cases he
  intro d rows hknown _ hj _ hrows
  cases hrows
  have hfilter : ∀ r ∈ d.intents.filter (fun i => i.idempotencyKey = payload.idempotencyKey ∧
      i.merchantId = merchant.id), r ∈ d.intents := fun r hr => (List.mem_filter.mp hr).1
  refine outline_scalarOneOrNone (fun _ => ?_) (fun x hx => ?_) fun hmany => ?_
  · refine outline_stage (fun _ => True) (fun _ _ _ h => h) trivial fun d _ _ => ?_
    have hstaged : l.pending ++ [newIntent merchant payload ids] =
        [newIntent merchant payload ids] := by rw [hpending]; rfl
    refine outline_commitIntent heff hinserted hstaged (fun l d hplaced => ?_) herr
    refine outline_execute _ (by simp) (fun _ _ hf h => h.frame hf) hplaced ?_ ?_
    · rintro d i ⟨j, hj, hid, hmerchant, hkey⟩ _ hJd _ hi
      obtain ⟨hi, hiid⟩ := refreshIntent_ok hi
      obtain rfl := eq_of_key (hJ d hJd).intents hi hj (hiid.trans hid.symm)
      exact hok i _ _ d hJd hj hmerchant hkey
    · intro d e he _
      simp only [exec] at he
      split at he <;> cases he
      exact herr _ _ _ (by simp [LookupError])
  · obtain ⟨i, hi, hxi⟩ := hknown.objects (hJ d hj) hfilter (hx ▸ List.mem_singleton_self x)
    obtain ⟨hkey, hmerchant⟩ := of_decide_eq_true (List.mem_filter.mp hi).2
    have hstatus : i = { x with status := i.status } := hxi.1
    have hres := hok i x.status (exec (.selectIntentByKey payload.idempotencyKey merchant.id) d l).2.2
      d hj (hfilter i hi) hmerchant hkey
    rw [hstatus] at hres
    exact hres
  · have hle := length_filter_le_one (c := fun i : PaymentIntent =>
      i.idempotencyKey = payload.idempotencyKey ∧ i.merchantId = merchant.id)
      (hJ d hj).idempotencyKeys fun x _ y _ hx hy => hx.1.trans hy.1.symm
    rw [Session.objects, List.length_map] at hmany
    omega

/-- The same, in a session of its own and a consistent database. -/
theorem outline_createOrder (hJ : ∀ d, J d → Consistent d)
    (heff : ∀ d d', Orders d d' → effect d d') (hok : ∀ res l d, R (.ok res) l d)
    (herr : ∀ e l d, ¬ LookupError e → R (.error e) l d) :
    Outline (contract J A effect) R (createOrder merchant payload ids) .closed d :=
  outline_order (fun d hd => (hJ d hd).keys) known_closed rfl rfl
    (fun d d' h => heff d d' h.orders) (fun _ _ _ _ _ _ _ _ => hok _ _ _) herr

end PaymentGateway.Outlines.Order
