import PaymentGateway.Api.Payments
import PaymentGateway.Outlines.Payment

/-! # The outline of an initiation request -/

namespace PaymentGateway.Outlines.Requests

open PaymentGateway.Models PaymentGateway.Schemas PaymentGateway.Lib.Program
open PaymentGateway.Lib.Interference PaymentGateway.Db.Statements PaymentGateway.Db.Locking
open PaymentGateway.Services.Payment PaymentGateway.State.Invariant PaymentGateway.Api.Deps
open PaymentGateway.Api.Payments PaymentGateway.Outlines.Rules PaymentGateway.Outlines.Payment

variable {α : Type} {l : Session} {d : Db} {J : Db → Prop} {A : Stmt → Db → Session → Prop}
  {effect : Db → Db → Prop} {Q : Except Exc α → Session → Db → Prop} {security : Security}
  {credentials : Credentials}

/-- Nothing is locked, inserted or staged; intents may have been loaded. -/
structure Clean (l : Session) (d : Db) : Prop where
  known : Known l d
  locks : l.locks = []
  inserted : l.inserted = []
  pending : l.pending = []

theorem clean_closed : Clean .closed d := ⟨known_closed, rfl, rfl, rfl⟩

theorem Clean.frame {d' : Db} {keep : List RowId} (h : Clean l d) (hf : Frame keep d d') :
    Clean l d' :=
  ⟨h.known.frame hf, h.locks, h.inserted, h.pending⟩

/-- The credentials are the merchant's. A token that is not empty is preferred. -/
def Presents (security : Security) (credentials : Credentials) (m : Merchant) : Prop :=
  match credentials.token.filter (· ≠ ""), credentials.apiKey with
  | some token, _ => security.decodeAccessToken token = .ok (some m.id)
  | none, some apiKey => security.deriveKey apiKey = m.apiKeyHash
  | none, none => False

/-- They are those of an active one among the merchants. -/
structure Authenticates (security : Security) (credentials : Credentials) (m : Merchant)
    (ms : List Merchant) : Prop where
  merchant : m ∈ ms
  active : m.isActive = true
  presents : Presents security credentials m

/-- Loading a merchant's intents fills the identity map and does nothing else. -/
theorem outline_loadIntents {ms : List Merchant} {f : Unit → Sql α} (hl : Clean l d)
    (hok : ∀ l d, Clean l d → Outline (contract J A effect) Q (f ()) l d) :
    Outline (contract J A effect) Q (loadIntents ms >>= f) l d := by
  induction ms generalizing l d with
  | nil => exact hok l d hl
  | cons m ms ih =>
    unfold loadIntents
    rw [Prog.bind_assoc]
    refine outline_execute (Clean l) (by simp) (fun _ _ hf h => h.frame hf) hl ?_
      fun _ _ he => by cases he
    intro d _ hl _ _ _ _
    refine ih ⟨?_, hl.locks, hl.inserted, hl.pending⟩
    exact hl.known.load fun r hr => (List.mem_filter.mp hr).1

/-- Loading the merchants that a query has returned. -/
theorem outline_loaded {rows : List Merchant} {f : Option Merchant → Sql α} (hl : Clean l d)
    (hok : ∀ m l d, Clean l d → (∀ a ∈ m, a ∈ rows) → Outline (contract J A effect) Q (f m) l d)
    (herr : ∀ e l d, Q (.error e) l d) :
    Outline (contract J A effect) Q
      (loadIntents rows >>= fun _ => scalarOneOrNone rows >>= f) l d := by
  refine outline_loadIntents hl fun l d hl => outline_scalarOneOrNone (fun _ => ?_)
    (fun m hm => ?_) fun _ => herr _ _ _
  · exact hok none l d hl fun _ ha => by cases ha
  · refine hok (some m) l d hl fun a ha => ?_
    cases ha
    exact hm ▸ List.mem_singleton_self m

theorem outline_findMerchant {f : Option Merchant → Sql α} (hl : Clean l d)
    (hok : ∀ m l d, Clean l d →
      (∀ a ∈ m, ∃ d₀, J d₀ ∧ a ∈ d₀.merchants ∧ Presents security credentials a) →
      Outline (contract J A effect) Q (f m) l d)
    (herr : ∀ e l d, Q (.error e) l d) :
    Outline (contract J A effect) Q (findMerchant security credentials >>= f) l d := by
  unfold findMerchant
  unfold Presents at hok
  cases htoken : credentials.token.filter (· ≠ "") with
  | some token =>
    rw [htoken] at hok
    dsimp only at hok ⊢
    rcases hdecode : security.decodeAccessToken token with detail | _ | merchantId
    · exact herr _ _ _
    · exact herr _ _ _
    · simp only [Prog.bind_assoc]
      refine outline_execute (Clean l) (by simp) (fun _ _ hf h => h.frame hf) hl ?_
        fun _ _ he => by cases he
      intro d₀ rows hl _ hj _ hrows
      cases hrows
      refine outline_loaded ⟨hl.known, hl.locks, hl.inserted, hl.pending⟩
        (fun m l d hl hm => hok m l d hl fun a ha => ?_) herr
      obtain ⟨hmem, hid⟩ := List.mem_filter.mp (hm a ha)
      exact ⟨d₀, hj, hmem, by rw [hdecode, of_decide_eq_true hid]⟩
  | none =>
    rw [htoken] at hok
    cases hkey : credentials.apiKey with
    | none => exact hok none l d hl fun _ ha => by cases ha
    | some apiKey =>
      rw [hkey] at hok
      simp only [Prog.bind_assoc]
      refine outline_execute (Clean l) (by simp) (fun _ _ hf h => h.frame hf) hl ?_
        fun _ _ he => by cases he
      intro d₀ rows hl _ hj _ hrows
      cases hrows
      refine outline_loaded ⟨hl.known, hl.locks, hl.inserted, hl.pending⟩
        (fun m l d hl hm => hok m l d hl fun a ha => ?_) herr
      obtain ⟨hmem, hhash⟩ := List.mem_filter.mp (hm a ha)
      exact ⟨d₀, hj, hmem, (of_decide_eq_true hhash).symm⟩

/-- **`get_current_merchant`** only loads, and gives an active merchant whose credentials they are. -/
theorem outline_getCurrentMerchant {f : Merchant → Sql α} (hl : Clean l d)
    (hok : ∀ m l d d₀, Clean l d → J d₀ → Authenticates security credentials m d₀.merchants →
      Outline (contract J A effect) Q (f m) l d)
    (herr : ∀ e l d, Q (.error e) l d) :
    Outline (contract J A effect) Q (getCurrentMerchant security credentials >>= f) l d := by
  unfold getCurrentMerchant
  rw [Prog.bind_assoc]
  refine outline_findMerchant hl (fun m l d hl hm => ?_) herr
  cases m with
  | none => exact herr _ _ _
  | some m =>
    dsimp only
    split_ifs with hactive
    · obtain ⟨d₀, hj, hmem, hpresents⟩ := hm m rfl
      exact hok m l d d₀ hl hj ⟨hmem, hactive, hpresents⟩
    · exact herr _ _ _

/-- **An initiation request** commits at most the initiation of a payment, where the objects it
works with are current. -/
theorem outline_initiateUpiPayment {payload : UpiInitiateRequest} {ids : InitiateIds}
    {R : Except Exc UpiInitiateResponse → Session → Db → Prop} (hJ : ∀ d, J d → Consistent d)
    (heff : ∀ d d', Initiates ids d d' → effect d d') (hA : ∀ s d l, A s d l → Current s d l)
    (hR : ∀ r l d, R r l d) :
    Outline (contract J A effect) R (initiateUpiPayment security credentials payload ids)
      .closed d := by
  unfold initiateUpiPayment
  refine outline_getCurrentMerchant clean_closed (fun m l d _ hl _ _ => ?_) fun _ _ _ => hR _ _ _
  refine Outline.tryCatch (P := R) ?_ (fun _ _ _ _ => hR _ _ _) fun _ _ _ _ => hR _ _ _
  exact outline_initiateUpi hJ heff (.inr hA) hl.inserted hl.pending (fun _ _ _ => hR _ _ _)
    fun _ _ _ _ => hR _ _ _

end PaymentGateway.Outlines.Requests
