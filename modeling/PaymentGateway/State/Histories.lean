import PaymentGateway.State.Outbox

/-! # The history of the database

What any request may commit, whatever the sessions of the others see (`Effect`): besides the changes
of the services there is the delivery of a notification, and a payment may begin although its order
is not new any more. Along these the database only grows (`Later`): of an order at most the status
changes, of a transaction at most the state, and that no more once it is final; entries and
deliveries are appended. What does not depend on how the two state machines are coupled is kept
(`Effect.balanced`). -/

namespace PaymentGateway.State.Histories

open PaymentGateway.Core.Ids PaymentGateway.Models PaymentGateway.Db.Statements
open PaymentGateway.Db.Locking PaymentGateway.Lib.Tables PaymentGateway.State.Changes
open PaymentGateway.State.Invariant PaymentGateway.State.Outbox

/-- A change of the committed state by a request. -/
inductive Effect (d d' : Db) : Prop
  | ordered {i} (h : Ordered i d d')
  | begun {t i} (h : Begun t i d d')
  | failed {t i} (h : Failed t i d d')
  | succeeded {t i p} (h : Succeeded t i p d d')
  | delivered {w} (h : d' = withDelivery w d)

/-- Transactions that have their final state stay as they are. -/
def Final (d d' : Db) : Prop := ∀ t ∈ d.transactions, t.state ≠ .pending → t ∈ d'.transactions

/-- `d'` is a later state of `d`. -/
structure Later (d d' : Db) : Prop where
  frame : Frame [] d d'
  final : Final d d'

variable {d d' d'' : Db} {t : Transaction} {i : PaymentIntent} {p : Posting}

theorem Final.refl (d : Db) : Final d d := fun _ h _ => h

theorem Final.trans (h : Final d d') (h' : Final d' d'') : Final d d'' :=
  fun t ht hs => h' t (h t ht hs) hs

theorem Later.refl (d : Db) : Later d d := ⟨.refl d, .refl d⟩

theorem Later.trans (h : Later d d') (h' : Later d' d'') : Later d d'' :=
  ⟨h.frame.trans h'.frame, h.final.trans h'.final⟩

/-! ### What is kept -/

theorem Balanced.ordered (b : Balanced d) (h : Ordered i d d') : Balanced d' :=
  ⟨b.keys.ordered h, b.chart.ordered h, b.posted.ordered b.keys h⟩

theorem Balanced.begun (b : Balanced d) (h : Begun t i d d') : Balanced d' :=
  ⟨b.keys.begun h, b.chart.begun h, b.posted.begun h⟩

theorem Balanced.failed (b : Balanced d) (h : Failed t i d d') : Balanced d' :=
  ⟨b.keys.failed h, b.chart.failed h, b.posted.failed b.keys h⟩

theorem Balanced.succeeded (b : Balanced d) (h : Succeeded t i p d d') : Balanced d' :=
  ⟨b.keys.succeeded h, b.chart.succeeded h, b.posted.succeeded b.keys h⟩

theorem Balanced.delivered (b : Balanced d) (w : WebhookDelivery) : Balanced (withDelivery w d) :=
  ⟨⟨b.keys.intents, b.keys.publicIds, b.keys.idempotencyKeys, b.keys.transactions, b.keys.accounts,
      b.keys.accountKeys, b.keys.intent_of, b.keys.account_of⟩,
    ⟨b.chart.currency, b.chart.kind, b.chart.vpa⟩,
    ⟨b.posted.amount_pos, b.posted.txn_of, b.posted.none, b.posted.pair, b.posted.balance,
      b.posted.total⟩⟩

/-- **Every effect keeps the ledger balanced.** -/
theorem Effect.balanced (b : Balanced d) (h : Effect d d') : Balanced d' := by
  cases h with
  | ordered h => exact Balanced.ordered b h
  | begun h => exact Balanced.begun b h
  | failed h => exact Balanced.failed b h
  | succeeded h => exact Balanced.succeeded b h
  | @delivered w h => exact h ▸ Balanced.delivered b w

/-! ### What is later -/

theorem intentKept_withStatus {id : UUID} {status : PaymentStatus} (i : PaymentIntent) :
    IntentKept [] i (withStatus id status i) :=
  ⟨withStatus_eq, fun h => by cases h⟩

theorem transactionKept_withState {id : UUID} {state : TransactionState} (t : Transaction) :
    TransactionKept [] t (withState id state t) :=
  ⟨withState_eq, fun h => by cases h⟩

theorem accountKept_withBalance {id : UUID} {balance : Money} (a : LedgerAccount) :
    AccountKept [] a (withBalance id balance a) :=
  ⟨withBalance_eq, fun h => by cases h⟩

/-- A table in which every row is changed at most so. -/
theorem grows_map {α : Type} {R : α → α → Prop} {f : α → α} (h : ∀ x, R x (f x)) (xs : List α) :
    Grows R xs (xs.map f) :=
  Changes.grows ⟨f, h, rfl⟩

theorem later_ordered (h : Ordered i d d') : Later d d' := by
  rw [h.db]
  exact ⟨⟨rfl, .append .refl _ _, .refl .refl _, .refl .refl _, List.prefix_rfl, List.prefix_rfl⟩,
    fun _ ht _ => ht⟩

theorem later_begun (h : Begun t i d d') : Later d d' := by
  rw [h.db]
  exact ⟨⟨rfl, grows_map intentKept_withStatus _, .append .refl _ _, .refl .refl _,
    List.prefix_rfl, List.prefix_rfl⟩, fun _ ht _ => List.mem_append_left _ ht⟩

/-- The transaction that is given its final state waited for it. -/
theorem mem_of_final (k : Keys d) (h : Open t i d) (state : TransactionState) :
    ∀ u ∈ d.transactions, u.state ≠ .pending →
      u ∈ d.transactions.map (withState t.id state) := by
  intro u hu hs
  have hne : u.id ≠ t.id := fun e => by
    obtain rfl := eq_of_key k.transactions hu h.txn e
    exact hs h.pending
  exact List.mem_map.mpr ⟨u, hu, withState_of_ne hne⟩

theorem later_failed (k : Keys d) (h : Failed t i d d') : Later d d' := by
  have hfinal := mem_of_final k h.toOpen .failed
  rw [h.db]
  exact ⟨⟨rfl, grows_map intentKept_withStatus _, grows_map transactionKept_withState _,
    .refl .refl _, List.prefix_rfl, List.prefix_rfl⟩, hfinal⟩

theorem grows_accounts (p : Posting) (d : Db) : Grows (AccountKept []) d.accounts (p.accounts d) :=
  (Grows.append .refl d.accounts p.opened).trans AccountKept.trans
    ((grows_map accountKept_withBalance _).trans AccountKept.trans
      (grows_map accountKept_withBalance _))

theorem later_succeeded (k : Keys d) (h : Succeeded t i p d d') : Later d d' := by
  have hfinal := mem_of_final k h.toOpen .success
  rw [h.db]
  exact ⟨⟨rfl, grows_map intentKept_withStatus _, grows_map transactionKept_withState _,
    grows_accounts p d, List.prefix_append _ _, List.prefix_rfl⟩, hfinal⟩

theorem later_delivered (w : WebhookDelivery) (d : Db) : Later d (withDelivery w d) :=
  ⟨⟨rfl, .refl .refl _, .refl .refl _, .refl .refl _, List.prefix_rfl, List.prefix_append _ _⟩,
    fun _ ht _ => ht⟩

/-- **Every effect leads to a later state.** -/
theorem Effect.later (k : Keys d) (h : Effect d d') : Later d d' := by
  cases h with
  | ordered h => exact later_ordered h
  | begun h => exact later_begun h
  | failed h => exact later_failed k h
  | succeeded h => exact later_succeeded k h
  | @delivered w h => exact h ▸ later_delivered w d

end PaymentGateway.State.Histories
