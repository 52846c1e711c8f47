import PaymentGateway.Outlines.Order
import PaymentGateway.Outlines.Payment
import PaymentGateway.Outlines.Webhook
import PaymentGateway.Runs.Shapes

/-! # Serial runs

The states reached from an empty database by service calls one after another, each in a session of
its own. The only assumption on the ids a call draws is that a provider reference is new
(`Call.Fresh`): all other ids have a constraint of the database.

* `Call.after_cases`: a call leaves the database as it is, or makes one change of its kind;
* `Reachable.consistent`, `Reachable.pspUnique`: the invariant of every state reached;
* `Call.no_lookupError`: no lookup of a call meets two rows, or none where there must be one. -/

namespace PaymentGateway.Runs.Serial

open PaymentGateway.Core.Ids PaymentGateway.Models PaymentGateway.Schemas
open PaymentGateway.Lib.Program PaymentGateway.Lib.Sessions PaymentGateway.Lib.Interference
open PaymentGateway.Lib.DecimalArith PaymentGateway.Lib.Tables
open PaymentGateway.Db.Statements PaymentGateway.Db.Locking
open PaymentGateway.Services.Order PaymentGateway.Services.Payment PaymentGateway.Services.Webhook
open PaymentGateway.State.Changes PaymentGateway.State.Invariant
open PaymentGateway.Outlines.Rules PaymentGateway.Outlines.Order PaymentGateway.Outlines.Payment
open PaymentGateway.Outlines.Webhook PaymentGateway.Runs.Shapes

/-- A service call, with what it draws at random. -/
inductive Call
  | createOrder (merchant : Merchant) (payload : CreateOrderRequest) (ids : OrderIds)
  | initiateUpi (merchant : Merchant) (payload : UpiInitiateRequest) (ids : InitiateIds)
  | processBankCallback (event : BankCallbackEvent) (pspReference : String) (amount : Decimal)
      (ids : CallbackIds)

inductive Reply
  | order (response : CreateOrderResponse)
  | payment (response : UpiInitiateResponse)
  | callback (result : CallbackResult)
  deriving DecidableEq

namespace Call

/-- The call served in a fresh session: how it ends, and the database after it. -/
def serve (c : Call) (d : Db) : Except Exc Reply × Db :=
  match c with
  | .createOrder merchant payload ids =>
    (database.serve (Services.Order.createOrder merchant payload ids) d).map (·.map .order) id
  | .initiateUpi merchant payload ids =>
    (database.serve (Services.Payment.initiateUpi merchant payload ids) d).map (·.map .payment) id
  | .processBankCallback event psp amount ids =>
    (database.serve (Services.Webhook.processBankCallback event psp amount ids) d).map
      (·.map .callback) id

/-- The database after the call. -/
def after (c : Call) (d : Db) : Db := (c.serve d).2

/-- The provider reference that the call draws is new. -/
def Fresh (c : Call) (d : Db) : Prop :=
  match c with
  | .initiateUpi _ _ ids => ∀ t ∈ d.transactions, t.pspReference ≠ some (newId "psp" ids.pspToken)
  | _ => True

/-- The change that a call may make. -/
def effect (c : Call) : Db → Db → Prop :=
  match c with
  | .createOrder _ _ _ => Orders
  | .initiateUpi _ _ ids => Initiates ids
  | .processBankCallback event psp amount _ => Settles event psp amount

end Call

/-- One call. -/
def Step (d d' : Db) : Prop := ∃ c : Call, c.Fresh d ∧ d' = c.after d

/-- A state that calls reach from a database with merchants only. -/
def Reachable (d : Db) : Prop := ∃ ms, Relation.ReflTransGen Step (Db.empty ms) d

variable {d d' : Db} {c : Call}

/-! ### One call -/

theorem Call.effect_change (h : c.effect d d') : Change d d' := by
  cases c with
  | createOrder merchant payload ids => exact Orders.change h
  | initiateUpi merchant payload ids => exact Initiates.change h
  | processBankCallback event psp amount ids => exact Settles.change h

section Serve

variable {α : Type} {p : Sql α} {J : Db → Prop} {effect : Db → Db → Prop}
  {R : Except Exc α → Session → Db → Prop}

theorem assumes (s : Stmt) (d : Db) (l : Session) (hown : isolation.Own d l) (hJ : J d) :
    (contract J (fun _ _ _ => True) effect).assume s d l := ⟨hown, hJ, trivial⟩

/-- A program that commits once, served alone, has at most one effect. -/
theorem serve_cases (hJ : J d) (honce : p.Once Commits)
    (h : Outline (contract J (fun _ _ _ => True) effect) R p .closed d) :
    (database.serve p d).2 = d ∨ effect d (database.serve p d).2 := by
  have := h.run_once (fun s d l hs => exec_db hs) assumes (own_of_nil rfl) hJ honce
  exact this.elim .inl id

/-- A program served alone ends in its postcondition. -/
theorem serve_result {Q : Except Exc α → Prop} (hJ : J d)
    (hguar : ∀ d d', J d → effect d d' → J d')
    (h : Outline (contract J (fun _ _ _ => True) effect) (fun r _ _ => Q r) p .closed d) :
    Q (database.serve p d).1 := by
  refine (h.run assumes (fun d d' hJ hg => ?_) (own_of_nil rfl) hJ).1
  rcases hg with rfl | hg
  · exact hJ
  · exact hguar d d' hJ hg

end Serve

/-- **What a call does**: nothing, or one change of its kind. -/
theorem Call.after_cases (hi : Consistent d) : c.after d = d ∨ c.effect d (c.after d) := by
  cases c with
  | createOrder merchant payload ids =>
    exact serve_cases (R := fun _ _ _ => True) hi (once_createOrder merchant payload ids)
      (outline_createOrder (fun _ h => h) (fun _ _ h => h) (fun _ _ _ => trivial)
        fun _ _ _ _ => trivial)
  | initiateUpi merchant payload ids =>
    exact serve_cases (R := fun _ _ _ => True) hi (once_initiateUpi merchant payload ids)
      (outline_initiateUpi (fun _ h => h) (fun _ _ h => h) (.inl rfl) rfl rfl
        (fun _ _ _ => trivial) fun _ _ _ _ => trivial)
  | processBankCallback event psp amount ids =>
    exact serve_cases (R := fun _ _ _ => True) hi
      ((oneShot_processBankCallback event psp amount ids).once commits_ends)
      (outline_processBankCallback (fun _ h => h) (fun _ _ h => h) (.inr fun _ _ _ => trivial)
        (fun _ _ _ _ _ _ => trivial) fun _ _ _ _ _ => trivial)

/-- No lookup of a call fails. -/
theorem Call.no_lookupError (hi : Consistent d) (hu : PspUnique d) {e : Exc}
    (he : (c.serve d).1 = .error e) : ¬ LookupError e := by
  have hok : ∀ {α : Type} {r : Except Exc α} {f : α → Reply},
      (∀ e, r = .error e → ¬ LookupError e) → ∀ e, r.map f = .error e → ¬ LookupError e := by
    intro α r f h e he
    cases r with
    | ok a => cases he
    | error e' => cases he; exact h _ rfl
  cases c with
  | createOrder merchant payload ids =>
    have hkeeps : ∀ d d', Consistent d → Orders d d' → Consistent d' :=
      fun _ _ hi h => hi.change h.change
    refine hok (serve_result (Q := fun r => ∀ e, r = .error e → ¬ LookupError e) hi hkeeps ?_) e he
    exact outline_createOrder (fun _ h => h) (fun _ _ h => h) (fun _ _ _ _ he => by cases he)
      fun _ _ _ h _ he => by cases he; exact h
  | initiateUpi merchant payload ids =>
    have hkeeps : ∀ d d', Consistent d → Initiates ids d d' → Consistent d' :=
      fun _ _ hi h => hi.change h.change
    refine hok (serve_result (Q := fun r => ∀ e, r = .error e → ¬ LookupError e) hi hkeeps ?_) e he
    exact outline_initiateUpi (fun _ h => h) (fun _ _ h => h) (.inl rfl) rfl rfl
      (fun _ _ _ _ he => by cases he) fun _ _ _ h _ he => by cases he; exact h
  | processBankCallback event psp amount ids =>
    have hkeeps : ∀ d d', (Consistent d ∧ PspUnique d) → Settles event psp amount d d' →
        Consistent d' ∧ PspUnique d' := fun _ _ hd h => ⟨hd.1.change h.change, h.pspUnique hd.2⟩
    refine hok (serve_result (Q := fun r => ∀ e, r = .error e → ¬ LookupError e) ⟨hi, hu⟩ hkeeps ?_)
      e he
    exact outline_processBankCallback (fun _ h => h.1) (fun _ _ h => h) (.inl fun _ h => h.2)
        (fun _ _ _ _ _ _ _ he => by cases he) fun _ _ _ h _ _ he => by cases he; exact h

/-! ### Runs of calls -/

theorem consistent_after (hi : Consistent d) : Consistent (c.after d) := by
  rcases c.after_cases hi with h | h
  · rw [h]; exact hi
  · exact hi.change (Call.effect_change h)

theorem pspUnique_after (hi : Consistent d) (hu : PspUnique d) (hf : c.Fresh d) :
    PspUnique (c.after d) := by
  rcases c.after_cases hi with h | h
  · rw [h]; exact hu
  cases c with
  | createOrder merchant payload ids => obtain ⟨i, h⟩ := h; rw [h.db]; exact hu
  | initiateUpi merchant payload ids =>
    obtain ⟨t, i, ht, h⟩ := h
    rw [h.db]
    exact nodup_append_key hu fun u hut => by rw [ht]; exact hf u hut
  | processBankCallback event psp amount ids => exact Settles.pspUnique h hu

theorem Step.keeps (h : Step d d') (hd : Consistent d ∧ PspUnique d) :
    Consistent d' ∧ PspUnique d' := by
  obtain ⟨c, hf, rfl⟩ := h
  exact ⟨consistent_after hd.1, pspUnique_after hd.1 hd.2 hf⟩

theorem Reachable.keeps (h : Reachable d) : Consistent d ∧ PspUnique d := by
  obtain ⟨ms, h⟩ := h
  induction h with
  | refl => exact ⟨consistent_empty ms, List.nodup_nil⟩
  | tail _ hs ih => exact hs.keeps ih

theorem Reachable.consistent (h : Reachable d) : Consistent d := h.keeps.1

theorem Reachable.pspUnique (h : Reachable d) : PspUnique d := h.keeps.2

theorem Reachable.step (h : Reachable d) (hs : Step d d') : Reachable d' := by
  obtain ⟨ms, h⟩ := h
  exact ⟨ms, h.tail hs⟩

/-- What every change keeps, and holds at the start, holds of every state reached. -/
theorem Reachable.change {P : Db → Prop} (h : Reachable d) (hempty : ∀ ms, P (Db.empty ms))
    (hchange : ∀ d d', P d → Change d d' → P d') : P d := by
  obtain ⟨ms, h⟩ := h
  induction h with
  | refl => exact hempty ms
  | @tail b b' hr hs ih =>
    obtain ⟨c, -, rfl⟩ := hs
    rcases Call.after_cases (c := c) (Reachable.consistent ⟨ms, hr⟩) with he | he
    · rwa [he]
    · exact hchange _ _ ih (Call.effect_change he)

theorem Reachable.deliveries (h : Reachable d) : d.deliveries = [] :=
  h.change (P := fun d => d.deliveries = []) (fun _ => rfl) fun _ _ hd hc => hc.deliveries.trans hd

theorem Reachable.owned (h : Reachable d) : Owned d :=
  h.change (fun _ _ hi => by cases hi) fun _ _ => Owned.change

/-! ### Calls in a row -/

/-- Calls served one after another. -/
def serveAll (cs : List Call) (d : Db) : Db := cs.foldl (fun d c => c.after d) d

/-- Every reference they draw is new. -/
def AllFresh : List Call → Db → Prop
  | [], _ => True
  | c :: cs, d => c.Fresh d ∧ AllFresh cs (c.after d)

instance (c : Call) (d : Db) : Decidable (c.Fresh d) :=
  match c with
  | .createOrder _ _ _ => isTrue trivial
  | .initiateUpi _ _ ids =>
    inferInstanceAs (Decidable
      (∀ t ∈ d.transactions, t.pspReference ≠ some (newId "psp" ids.pspToken)))
  | .processBankCallback _ _ _ _ => isTrue trivial

instance decidableAllFresh : (cs : List Call) → (d : Db) → Decidable (AllFresh cs d)
  | [], _ => isTrue trivial
  | c :: cs, d =>
    have := decidableAllFresh cs (c.after d)
    inferInstanceAs (Decidable (c.Fresh d ∧ AllFresh cs (c.after d)))

theorem reachable_serveAll {cs : List Call} (h : Reachable d) (hf : AllFresh cs d) :
    Reachable (serveAll cs d) := by
  induction cs generalizing d with
  | nil => exact h
  | cons c cs ih => exact ih (h.step ⟨c, hf.1, rfl⟩) hf.2

theorem reachable_empty (ms : List Merchant) : Reachable (Db.empty ms) := ⟨ms, .refl⟩

/-! ### An order that is paid -/

namespace Sample

def uuid (n : ℕ) : UUID := ⟨n % 2 ^ 128, Nat.mod_lt _ (by norm_num)⟩

def shop : Merchant :=
  ⟨uuid 1, "Shop", "api-key-hash", "secret-hash", true, some "https://shop.example/hook"⟩

/-- An order of 100. -/
def order (currency : String) (h : currency.length = 3) : CreateOrderRequest where
  amount := .finite false 1000000 (-4)
  currency := currency
  idempotencyKey := "order-0001"
  description := none
  amount_valid := ⟨1000000, rfl, by norm_num, by norm_num⟩
  currency_valid := h
  idempotencyKey_valid := by decide
  description_valid := by simp

def initiation (vpa : String) (h : '@' ∈ vpa.toList ∧ 5 ≤ vpa.length ∧ vpa.length ≤ 255) :
    UpiInitiateRequest where
  idempotencyKey := "order-0001"
  orderId := newId "ord" "token"
  vpa := vpa
  idempotencyKey_valid := by decide
  orderId_valid := by decide
  vpa_valid := h

def rupees : CreateOrderRequest := order "INR" (by decide)

def dollars : CreateOrderRequest := order "USD" (by decide)

def ordering (payload : CreateOrderRequest) : Call := .createOrder shop payload ⟨uuid 2, "token"⟩

def alicePays : UpiInitiateRequest := initiation "alice@bank" (by decide)

def bobPays : UpiInitiateRequest := initiation "bob@bank" (by decide)

def initiating : Call := .initiateUpi shop alicePays ⟨uuid 3, "token", "token"⟩

def callback (event : BankCallbackEvent) : Call :=
  .processBankCallback event (newId "psp" "token") (.finite false 100 0)
    ⟨uuid 4, uuid 5, uuid 6, uuid 7⟩

/-- An order, its initiation, and the bank's callback. -/
def payment (payload : CreateOrderRequest) (event : BankCallbackEvent) : List Call :=
  [ordering payload, initiating, callback event]

/-- The database after a payment. -/
def settled (payload : CreateOrderRequest) (event : BankCallbackEvent) : Db :=
  serveAll (payment payload event) (Db.empty [shop])

example : (settled rupees .paymentSuccess).accounts.map (·.balance.units) =
    [1000000, 1000000] := by decide

end Sample

end PaymentGateway.Runs.Serial
