import PaymentGateway.Lib.Faults
import PaymentGateway.Outlines.Order
import PaymentGateway.Outlines.Payment
import PaymentGateway.Outlines.Webhook

/-! # The services when the store refuses statements

Whatever the database is, and whichever statements the store refuses up to the commit, a service
that raises has changed nothing, and one that has changed something has made a change of its kind
(`Clean`). Nothing is known of the database here: not that a key is unique, nor that a row that is
referred to is there. -/

namespace PaymentGateway.Outlines.Refusals

open PaymentGateway.Core.Ids PaymentGateway.Models PaymentGateway.Schemas
open PaymentGateway.Lib.Program PaymentGateway.Lib.Sessions PaymentGateway.Lib.Faults
open PaymentGateway.Lib.DecimalArith PaymentGateway.Lib.Tables
open PaymentGateway.Db.Statements PaymentGateway.Db.Locking PaymentGateway.Db.Flush
open PaymentGateway.Services.StateMachine PaymentGateway.Services.Order
open PaymentGateway.Services.Payment PaymentGateway.Services.Webhook
open PaymentGateway.State.Changes PaymentGateway.Outlines.Rules PaymentGateway.Outlines.Order
open PaymentGateway.Outlines.Payment PaymentGateway.Outlines.Webhook

/-- The statements that reach the store, and do so before the commit is through. -/
def refusable : Stmt → Bool
  | .stage _ => false
  | .refreshIntent _ => false
  | .refreshTransaction _ => false
  | .refreshDelivery _ => false
  | _ => true

/-- A commit that is refused is rolled back. -/
def refusals : Refusals sql Session where
  refusable := refusable
  abort s l :=
    match s with
    | .commit => .closed
    | _ => l

/-- The call raises and has changed nothing, or has at most the effect. -/
def Clean {α : Type} (effect : Db → Db → Prop) (d₀ : Db) (r : Except Exc α) (d : Db) : Prop :=
  (∀ e, r = .error e → d = d₀) ∧ (d = d₀ ∨ effect d₀ d)

variable {α β : Type} {d d' : Db} {l : Session} {effect : Db → Db → Prop}
  {Q : Except Exc α → Db → Session → Prop}

theorem clean_same (r : Except Exc α) : Clean effect d r d := ⟨fun _ _ => rfl, .inl rfl⟩

theorem clean_effect {a : α} (h : effect d d') : Clean effect d (.ok a) d' :=
  ⟨fun _ he => (by cases he), .inr h⟩

/-! ### The rules -/

/-- A statement other than `commit`: whether it is refused or raises, nothing is changed. -/
theorem ends_execute {s : Stmt} {f : s.Resp → Sql α} (hs : s ≠ .commit)
    (herr : ∀ e l, Q (.error e) d l)
    (hok : ∀ a, (exec s d l).1 = .ok a → Ends database refusals Q (f a) d (exec s d l).2.2) :
    Ends database refusals Q (execute s >>= f) d l := by
  have hd : database.after s d l = d := exec_db hs
  refine ends_exec_bind (fun a ha => ?_) (fun e _ => ?_) fun _ e => herr e _
  · rw [hd]; exact hok a ha
  · rw [hd]; exact herr e _

theorem ends_stage {w : Write} {f : Unit → Sql α} (herr : ∀ e l, Q (.error e) d l)
    (hok : Ends database refusals Q (f ()) d ⟨l.assign w, l.locks, l.inserted, l.pending ++ [w]⟩) :
    Ends database refusals Q (execute (.stage w) >>= f) d l :=
  ends_execute (by simp) herr fun _ _ => hok

theorem ends_commit {f : Unit → Sql α} (herr : ∀ e l, Q (.error e) d l)
    (hok : ∀ d', l.flush d = .ok d' →
      Ends database refusals Q (f ()) d' ⟨l.loaded, [], [], []⟩) :
    Ends database refusals Q (execute .commit >>= f) d l := by
  cases hf : l.flush d with
  | ok d' =>
    have hexec : database.exec .commit d l = (.ok (), d', ⟨l.loaded, [], [], []⟩) := by
      simp only [database, exec, hf]
    refine ends_exec_bind (fun a _ => ?_) (fun e he => ?_) fun _ e => herr e _
    · simp only [Machine.after, Machine.session, hexec]; exact hok d' hf
    · rw [hexec] at he; cases he
  | error e =>
    have hexec : database.exec .commit d l = (.error e, d, .closed) := by
      simp only [database, exec, hf]
    refine ends_exec_bind (fun a ha => ?_) (fun e _ => ?_) fun _ e => herr e _
    · rw [hexec] at ha; cases ha
    · simp only [Machine.after, hexec]; exact herr e _

/-- A refresh after the commit is not refused; it reads the row. -/
theorem ends_refreshIntent {id : UUID} {f : PaymentIntent → Sql α}
    (hrow : ∃ i ∈ d.intents, i.id = id)
    (hok : ∀ i l, Ends database refusals Q (f i) d l) :
    Ends database refusals Q (execute (.refreshIntent id) >>= f) d l := by
  obtain ⟨i, hi, hid⟩ := hrow
  cases hf : d.intents.find? (·.id = id) with
  | none => exact absurd (decide_eq_true hid) (List.find?_eq_none.mp hf i hi)
  | some j =>
    have hexec : database.exec (.refreshIntent id) d l =
        (.ok j, d, { l with loaded := l.reload j }) := by simp only [database, exec, hf]
    refine ends_exec_bind (fun a _ => ?_) (fun e he => ?_) fun h => (by cases h)
    · simp only [Machine.after, Machine.session, hexec]; exact hok a _
    · rw [hexec] at he; cases he

theorem ends_refreshTransaction {id : UUID} {f : Transaction → Sql α}
    (hrow : ∃ t ∈ d.transactions, t.id = id)
    (hok : ∀ t l, Ends database refusals Q (f t) d l) :
    Ends database refusals Q (execute (.refreshTransaction id) >>= f) d l := by
  obtain ⟨t, ht, hid⟩ := hrow
  cases hf : d.transactions.find? (·.id = id) with
  | none => exact absurd (decide_eq_true hid) (List.find?_eq_none.mp hf t ht)
  | some u =>
    have hexec : database.exec (.refreshTransaction id) d l = (.ok u, d, l) := by
      simp only [database, exec, hf]
    refine ends_exec_bind (fun a _ => ?_) (fun e he => ?_) fun h => (by cases h)
    · simp only [Machine.after, Machine.session, hexec]; exact hok a _
    · rw [hexec] at he; cases he

theorem ends_value {r : Except Exc β} {f : β → Sql α} (herr : ∀ e l, Q (.error e) d l)
    (hok : ∀ b, r = .ok b → Ends database refusals Q (f b) d l) :
    Ends database refusals Q (Prog.ofExcept r >>= f) d l := by
  cases r with
  | ok b => exact hok b rfl
  | error e => exact herr e l

theorem ends_scalarOneOrNone {rows : List β} {f : Option β → Sql α}
    (herr : ∀ e l, Q (.error e) d l)
    (hnone : rows = [] → Ends database refusals Q (f none) d l)
    (hone : ∀ a, rows = [a] → Ends database refusals Q (f (some a)) d l) :
    Ends database refusals Q (scalarOneOrNone rows >>= f) d l := by
  match rows, hnone, hone with
  | [], hnone, _ => exact hnone rfl
  | [a], _, hone => exact hone a rfl
  | _ :: _ :: _, _, _ => exact herr _ _

theorem ends_scalarOne {rows : List β} {f : β → Sql α} (herr : ∀ e l, Q (.error e) d l)
    (hone : ∀ a, rows = [a] → Ends database refusals Q (f a) d l) :
    Ends database refusals Q (scalarOne rows >>= f) d l := by
  match rows, hone with
  | [], _ => exact herr _ _
  | [a], hone => exact hone a rfl
  | _ :: _ :: _, _ => exact herr _ _

/-! ### Order creation -/

section Order

variable {merchant : Merchant} {payload : CreateOrderRequest} {ids : OrderIds}
  {R : Except Exc CreateOrderResponse → Db → Session → Prop}

/-- An exception of the commit of an order, caught or not, is raised on. -/
theorem ends_caught {f : Unit → Sql CreateOrderResponse} (herr : ∀ e l, R (.error e) d l) (e : Exc)
    (l : Session) : Ends database refusals R
      ((match e with
        | .integrityError => do
          execute .rollback
          throw .orderIdempotencyReuse
        | exc => throw exc : Sql Unit) >>= f) d l := by
  cases e with
  | integrityError =>
    exact ends_execute (s := .rollback) (f := fun _ => Prog.raise .orderIdempotencyReuse)
      (by simp) herr fun _ _ => herr _ _
  | _ => exact herr _ _

theorem ends_commitIntent {f : Unit → Sql CreateOrderResponse} (herr : ∀ e l, R (.error e) d l)
    (hok : ∀ d', l.flush d = .ok d' →
      Ends database refusals R (f ()) d' ⟨l.loaded, [], [], []⟩) :
    Ends database refusals R (commitIntent >>= f) d l := by
  refine ⟨?_, fun _ e => ends_caught herr e _⟩
  simp only [Machine.after, Machine.session, database, exec]
  cases hf : l.flush d with
  | ok d' => exact hok d' hf
  | error e => exact ends_caught herr e _

theorem row_ordered (h : l.flush d = .ok d') (hinserted : l.inserted = [])
    (hpending : l.pending = [newIntent merchant payload ids]) :
    ∃ i ∈ d'.intents, i.id = ids.intentId := by
  unfold Session.flush at h
  rw [hpending, hinserted, List.append_nil] at h
  obtain ⟨d₁, h₁, h⟩ := bind_ok h
  cases h
  obtain ⟨money, -, -, -, rfl⟩ := addIntent_ok h₁
  exact ⟨_, List.mem_append_right _ (List.mem_singleton_self _), rfl⟩

/-- **`create_order`** -/
theorem clean_createOrder : Ends database refusals (fun r d' _ => Clean Orders d r d')
    (createOrder merchant payload ids) d .closed := by
  have herr : ∀ (e : Exc) (l : Session), Clean (α := CreateOrderResponse) Orders d (.error e) d :=
    fun e _ => clean_same _
  unfold createOrder
  refine ends_execute (by simp) herr fun rows _ => ?_
  refine ends_scalarOneOrNone herr (fun _ => ?_) fun existing _ => clean_same _
  refine ends_stage herr (ends_commitIntent herr fun d' hf => ?_)
  exact ends_refreshIntent (row_ordered hf rfl rfl) fun _ _ =>
    clean_effect (flush_ordered hf rfl rfl)

end Order

/-! ### Payment initiation -/

section Payment

variable {merchant : Merchant} {payload : UpiInitiateRequest} {ids : InitiateIds}

theorem rows_initiated {x : PaymentIntent} (h : l.flush d = .ok d') (hx : x ∈ d.intents)
    (hinserted : l.inserted = []) (hpending : l.pending =
      [.setIntentStatus x.id .processing, .addTransaction (newTransaction x payload ids)]) :
    (∃ i ∈ d'.intents, i.id = x.id) ∧ ∃ t ∈ d'.transactions, t.id = ids.transactionId := by
  unfold Session.flush at h
  rw [hpending, hinserted, List.append_nil] at h
  obtain ⟨d₁, h₁, h⟩ := bind_ok h
  obtain ⟨d₂, h₂, h⟩ := bind_ok h
  cases h
  obtain rfl := setIntentStatus_ok h₁
  obtain ⟨-, rfl⟩ := addTransaction_ok h₂
  exact ⟨⟨_, List.mem_map_of_mem hx, withStatus_id⟩,
    ⟨_, List.mem_append_right _ (List.mem_singleton_self _), rfl⟩⟩

/-- **`initiate_upi`** -/
theorem clean_initiateUpi : Ends database refusals (fun r d' _ => Clean (Initiates ids) d r d')
    (initiateUpi merchant payload ids) d .closed := by
  have herr : ∀ (e : Exc) (l : Session),
      Clean (α := UpiInitiateResponse) (Initiates ids) d (.error e) d := fun e _ => clean_same _
  unfold initiateUpi
  refine ends_execute (by simp) herr fun rows hrows => ?_
  cases hrows
  refine ends_scalarOneOrNone herr (fun _ => clean_same _) fun x hx => ?_
  obtain ⟨i, hone, -, -, hloaded⟩ := objects_singleton hx
  obtain rfl := hloaded rfl
  have hi : x ∈ d.intents := (List.mem_filter.mp (hone ▸ List.mem_singleton_self x)).1
  dsimp only
  split_ifs
  · exact clean_same _
  refine ends_execute (by simp) herr fun rows _ => ?_
  refine ends_scalarOneOrNone herr (fun _ => ?_) fun _ _ => clean_same _
  unfold startPayment
  refine ends_value herr fun u hu => ?_
  have hstatus : x.status = .created := by
    have hmem := assertIntentTransition_ok hu
    cases hs : x.status <;> rw [hs] at hmem <;> simp [paymentIntentTransitions] at hmem ⊢
  refine ends_stage herr (ends_value herr fun _ _ => ends_stage herr (ends_commit herr ?_))
  intro d' hf
  have hflush : Initiates ids d d' := flush_initiated hf hi rfl hstatus rfl rfl
  obtain ⟨hintent, htxn⟩ := rows_initiated hf hi rfl rfl
  exact ends_refreshIntent hintent fun _ _ => ends_refreshTransaction htxn fun _ _ =>
    clean_effect hflush

end Payment

/-! ### The bank callback -/

section Callback

variable {t : Transaction} {i : PaymentIntent} {as : List LedgerAccount}
  {event : BankCallbackEvent} {psp : String} {amount : Decimal} {ids : CallbackIds}

theorem ends_ensureAccountLocked {accountType : AccountType} {identifier : String}
    {merchantId : Option UUID} {id : UUID} {f : LedgerAccount → Sql α}
    (hrow : OpenedFor t i (newAccount id accountType identifier
      (if accountType = .merchantSettlement then merchantId else none)))
    (hw : Working t i as l d) (hown : Own d l) (herr : ∀ e l, Q (.error e) d l)
    (hok : ∀ a l', Working t i (a :: as) l' d → Own d l' → l'.pending = l.pending →
      a.accountType = accountType → a.identifier = identifier →
      Ends database refusals Q (f a) d l') :
    Ends database refusals Q (ensureAccountLocked accountType identifier merchantId id >>= f) d l := by
  unfold ensureAccountLocked
  simp only [Prog.bind_assoc]
  refine ends_execute (by simp) herr fun _ hins => ?_
  have hw₁ := hw.opens hrow hins
  have hown₁ : Own d (insertAccount (newAccount id accountType identifier
      (if accountType = .merchantSettlement then merchantId else none)) d l).2.2 := by
    have := own_exec (s := .insertAccount id accountType identifier
      (if accountType = .merchantSettlement then merchantId else none)) hown
    rwa [exec_db (by simp)] at this
  have hpending₁ : (insertAccount (newAccount id accountType identifier
      (if accountType = .merchantSettlement then merchantId else none)) d l).2.2.pending =
      l.pending := by
    rcases (insertAccount_ok hins).2 with e | e <;> rw [e]
  simp only [exec]
  generalize (insertAccount (newAccount id accountType identifier
    (if accountType = .merchantSettlement then merchantId else none)) d l).2.2 = l₁ at *
  refine ends_execute (by simp) herr fun rows hrows => ?_
  cases hrows
  refine ends_scalarOne herr fun a ha => ?_
  obtain ⟨hw₂, htype, hident⟩ := hw₁.selects ha
  exact hok a _ hw₂ hown₁ hpending₁ htype hident

theorem ends_postLedger {f : Unit → Sql α} (hw : Working t i [] l d) (hown : Own d l)
    (herr : ∀ e l, Q (.error e) d l)
    (hok : ∀ payer payee payerBalance payeeBalance l', Working t i [payee, payer] l' d →
      Own d l' → IsPayer t payer → IsPayee i payee → addBalance payer amount = .ok payerBalance →
      addBalance payee amount = .ok payeeBalance →
      l'.pending = l.pending ++ postings t amount ids payer payee payerBalance payeeBalance →
      Ends database refusals Q (f ()) d l') :
    Ends database refusals Q (postLedger t i amount ids >>= f) d l := by
  unfold postLedger
  simp only [Prog.bind_assoc]
  refine ends_ensureAccountLocked (.inl ⟨⟨rfl, rfl⟩, rfl⟩) hw hown herr ?_
  intro payer l₁ hw₁ hown₁ hpending₁ htype hident
  have hpayer : IsPayer t payer := ⟨htype, hident⟩
  refine ends_ensureAccountLocked (.inr ⟨⟨rfl, rfl⟩, rfl⟩) hw₁ hown₁ herr ?_
  intro payee l₂ hw₂ hown₂ hpending₂ htype hident
  have hpayee : IsPayee i payee := ⟨htype, hident⟩
  refine ends_value herr fun payerBalance hpb => ends_stage herr ?_
  refine ends_value herr fun payeeBalance hqb => ends_stage herr (ends_stage herr ?_)
  refine ends_stage herr (hok payer payee payerBalance payeeBalance _
    ((((hw₂.stage _).stage _).stage _).stage _) hown₂ hpayer hpayee hpb hqb ?_)
  simp [postings, hpending₁, hpending₂]

theorem clean_settle (hw : Working t i [] l d) (hpsp : t.pspReference = some psp)
    (hamount : amountDiffers i amount = .ok false) (hinserted : l.inserted = [])
    (hpending : l.pending = []) :
    Ends database refusals (fun r d' _ => Clean (Settles event psp amount) d r d')
      (settle t i event amount ids) d l := by
  have herr : ∀ (e : Exc) (l : Session),
      Clean (α := CallbackResult) (Settles event psp amount) d (.error e) d :=
    fun e _ => clean_same _
  unfold settle
  cases hs : assertTransitions t i event with
  | error exc => exact ends_execute (by simp) herr fun _ _ => clean_same _
  | ok u =>
    refine ends_stage herr (ends_stage herr ?_)
    have hw₂ := (hw.stage (.setTransactionState t.id (targetTxn event))).stage
      (.setIntentStatus i.id (targetIntent event))
    cases event with
    | paymentFailed =>
      refine ends_commit herr fun d' hf => clean_effect (.failed rfl hpsp hamount ?_)
      exact flush_failed hw₂ hs hinserted (by simp [hpending]; exact ⟨rfl, rfl⟩) hf
    | paymentSuccess =>
      refine ends_postLedger hw₂ (own_of_nil hinserted) herr ?_
      intro payer payee pb qb l' hw' hown' hpayer hpayee hpb hqb hpending'
      refine ends_commit herr fun d' hf => ?_
      obtain ⟨p, hsucceeded⟩ := flush_succeeded hown' hw' hs hamount hpayer hpayee hpb hqb
        (by rw [hpending', hpending]; rfl) hf
      exact clean_effect (.succeeded rfl hpsp hamount hsucceeded)

/-- **`process_bank_callback`** -/
theorem clean_processBankCallback :
    Ends database refusals (fun r d' _ => Clean (Settles event psp amount) d r d')
      (processBankCallback event psp amount ids) d .closed := by
  have herr : ∀ (e : Exc) (l : Session),
      Clean (α := CallbackResult) (Settles event psp amount) d (.error e) d :=
    fun e _ => clean_same _
  unfold processBankCallback
  refine ends_execute (by simp) herr fun rows hrows => ?_
  cases hrows
  refine ends_scalarOneOrNone herr (fun _ => clean_same _) fun t ht => ?_
  have htxn := List.mem_filter.mp (ht ▸ List.mem_singleton_self t)
  have hpsp : t.pspReference = some psp := of_decide_eq_true htxn.2
  have hlocked : .transaction t.id ∈ (exec (.selectTransactionByPsp psp) d .closed).2.2.locks :=
    List.mem_append_right _ (List.mem_map.mpr ⟨t, ht ▸ List.mem_singleton_self t, rfl⟩)
  refine ends_execute (by simp) herr fun rows hrows => ?_
  cases hrows
  rw [objects_nil rfl]
  refine ends_scalarOne herr fun i hi => ?_
  have hintent := List.mem_filter.mp (hi ▸ List.mem_singleton_self i)
  generalize hl : (exec (.selectIntentById t.intentId) d _).2.2 = l
  have hw : Working t i [] l d := by
    subst hl
    refine ⟨htxn.1, List.mem_append_left _ hlocked, hintent.1, ?_, of_decide_eq_true hintent.2,
      by simp, by simp [exec, Session.closed]⟩
    exact List.mem_append_right _ (List.mem_map.mpr ⟨i, hi ▸ List.mem_singleton_self i, rfl⟩)
  have hinserted : l.inserted = [] := by subst hl; rfl
  have hpending : l.pending = [] := by subst hl; rfl
  have hflush : l.flush d = .ok d := by
    simp [Session.flush, hinserted, hpending]
    rfl
  have hreplayed : Ends database refusals
      (fun r d' _ => Clean (Settles event psp amount) d r d') (replayed t) d l := by
    refine ends_commit herr fun d' hf => ?_
    rw [hflush] at hf
    cases hf
    exact clean_same _
  refine ends_value herr fun differs hamount => ?_
  cases differs with
  | true => exact clean_same _
  | false =>
    simp only [Bool.false_eq_true, if_false]
    split_ifs
    · exact hreplayed
    · exact hreplayed
    · exact clean_settle hw hpsp hamount hinserted hpending

end Callback

end PaymentGateway.Outlines.Refusals
