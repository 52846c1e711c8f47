import PaymentGateway.Db.LockOrder
import PaymentGateway.Runs.Serial

/-! # Callbacks and initiations lock in order

`guarded_processBankCallback` and `guarded_initiateUpi`: each statement of the two services is of a
higher level than those before it that have locked or inserted, and what they commit is about rows
they have locked. -/

namespace PaymentGateway.Runs.LockOrder

open PaymentGateway.Core.Ids PaymentGateway.Models PaymentGateway.Schemas
open PaymentGateway.Lib.Program PaymentGateway.Lib.Sessions PaymentGateway.Lib.Deadlock
open PaymentGateway.Lib.DecimalArith
open PaymentGateway.Db.Statements PaymentGateway.Db.Locking PaymentGateway.Db.LockOrder
open PaymentGateway.Services.Payment PaymentGateway.Services.Webhook
open PaymentGateway.Services.StateMachine PaymentGateway.State.Invariant

/-- A program that is on its trail in every database of `J`. -/
abbrev Within (J : Db → Prop) (ids : List UUID) {α : Type} (p : Sql α) (past : List Stmt)
    (l : Session) : Prop :=
  Guarded J (trail ids) p past l

/-- A program that is on its trail in every consistent database. -/
abbrev InOrder (ids : List UUID) {α : Type} (p : Sql α) (past : List Stmt) (l : Session) : Prop :=
  Guarded Consistent (trail ids) p past l

/-! ### Where a session is -/

/-- The session has not locked or inserted above the level `n`, and has locked what its staged
writes are about. -/
structure At (n : ℕ) (past : List Stmt) (l : Session) : Prop where
  upto : ∀ s ∈ past, level s < 7 → level s ≤ n
  covered : ∀ w ∈ l.pending, ∀ r ∈ w.rows, r ∈ l.locks

variable {α β : Type} {J : Db → Prop} {ids : List UUID} {past : List Stmt} {l k : Session}
  {n m : ℕ} {s : Stmt}

theorem at_nil : At 0 [] .closed := ⟨fun _ h => (by cases h), fun _ h => by cases h⟩

theorem At.ok (h : At n past l) (hs : n < level s ∨ level s = 7)
    (hi : ∀ id t x m, s = .insertAccount id t x m → Insertable ids id t x) : Ok ids past s l := by
  refine ⟨fun s' hs' hl => ?_, hi, fun _ => h.covered⟩
  have hle := h.upto s' hs' hl
  omega

/-- After a statement of the level `m`, or of none. -/
theorem At.snoc (h : At n past l) (hn : n ≤ m) (hs : level s = 7 ∨ level s = m)
    (hlocks : l.locks ⊆ k.locks) (hpending : k.pending = l.pending) :
    At m (past ++ [s]) k := by
  refine ⟨fun s' hs' hl => ?_, fun w hw r hr => hlocks (h.covered w (hpending ▸ hw) r hr)⟩
  rcases List.mem_append.mp hs' with hs' | hs'
  · exact (h.upto s' hs' hl).trans hn
  · rw [List.mem_singleton.mp hs'] at hl ⊢
    omega

/-! ### Rules -/

/-- A statement that stages and inserts nothing. -/
theorem inOrder_execute {f : s.Resp → Sql α} (h : At n past l) (hs : n < level s ∨ level s = 7)
    (hi : ∀ id t x m, s ≠ .insertAccount id t x m)
    (hf : ∀ d a, J d → (exec s d l).1 = .ok a →
      Within J ids (f a) (past ++ [s]) (exec s d l).2.2) :
    Within J ids (execute s >>= f) past l :=
  Guarded.exec_bind (h.ok hs fun id t x m e => absurd e (hi id t x m)) hf

/-- A write about rows that are locked. -/
theorem inOrder_stage {w : Write} {f : Unit → Sql α} (h : At n past l)
    (hw : ∀ r ∈ w.rows, r ∈ l.locks)
    (hf : ∀ past' l', At n past' l' → l'.locks = l.locks → Within J ids (f ()) past' l') :
    Within J ids (execute (.stage w) >>= f) past l := by
  refine inOrder_execute h (.inr rfl) (by simp) fun d _ _ _ => hf _ _ ⟨fun s' hs' hl => ?_, ?_⟩ rfl
  · rcases List.mem_append.mp hs' with hs' | hs'
    · exact h.upto s' hs' hl
    · rw [List.mem_singleton.mp hs'] at hl
      exact absurd hl (lt_irrefl 7)
  · intro w' hw' r hr
    rcases List.mem_append.mp hw' with hw' | hw'
    · exact h.covered w' hw' r hr
    · exact hw r (List.mem_singleton.mp hw' ▸ hr)

/-- A statement after which nothing follows. -/
theorem inOrder_end {f : s.Resp → Sql α} (h : At n past l) (hs : level s = 7)
    (hf : ∀ a, (f a).Done) : Within J ids (execute s >>= f) past l := by
  refine inOrder_execute h (.inr hs) (fun id t x m e => ?_) fun d a _ _ => ?_
  · subst e
    simp only [level] at hs
    split_ifs at hs <;> omega
  · have := hf a
    generalize f a = q at this
    cases q with
    | call s k => exact absurd this id
    | _ => trivial

theorem inOrder_ofExcept {r : Except Exc β} {f : β → Sql α} (hf : ∀ a, Within J ids (f a) past l) :
    Within J ids (Prog.ofExcept r >>= f) past l := by
  cases r with
  | ok a => exact hf a
  | error e => trivial

theorem inOrder_scalarOneOrNone {rows : List β} {f : Option β → Sql α}
    (hf : ∀ o, (∀ a ∈ o, a ∈ rows) → Within J ids (f o) past l) :
    Within J ids (scalarOneOrNone rows >>= f) past l := by
  match rows with
  | [] => exact hf none (by simp)
  | [a] => exact hf (some a) (by simp)
  | _ :: _ :: _ => trivial

theorem inOrder_scalarOne {rows : List β} {f : β → Sql α}
    (hf : ∀ a ∈ rows, Within J ids (f a) past l) : Within J ids (scalarOne rows >>= f) past l := by
  match rows with
  | [] => trivial
  | [a] => exact hf a (by simp)
  | _ :: _ :: _ => trivial

/-- The commit of what is staged. -/
theorem inOrder_commit {f : Unit → Sql α} (h : At n past l)
    (hf : ∀ past' l', At n past' l' → Within J ids (f ()) past' l') :
    Within J ids (execute .commit >>= f) past l := by
  refine inOrder_execute h (.inr rfl) (by simp) fun d _ _ hok => hf _ _ ⟨fun s' hs' hl => ?_, ?_⟩
  · rcases List.mem_append.mp hs' with hs' | hs'
    · exact h.upto s' hs' hl
    · rw [List.mem_singleton.mp hs'] at hl
      exact absurd hl (lt_irrefl 7)
  · simp only [exec] at hok ⊢
    split
    · intro w hw
      cases hw
    · intro w hw
      cases hw

/-! ### Initiation -/

theorem inOrder_startPayment {intent : PaymentIntent} {payload : UpiInitiateRequest}
    {new : InitiateIds} (h : At n past l) (hlocked : .intent intent.id ∈ l.locks) :
    Within J ids (startPayment intent payload new) past l := by
  unfold startPayment
  refine inOrder_ofExcept fun _ => inOrder_stage h (by simpa [Write.rows]) fun past l h hl => ?_
  refine inOrder_ofExcept fun _ => ?_
  refine inOrder_stage h (by simpa [Write.rows, newTransaction, hl]) fun past l h _ => ?_
  refine inOrder_commit h fun past l h => ?_
  refine inOrder_execute h (.inr rfl) (by simp) fun d a _ hok => ?_
  have hsame : (exec (.refreshIntent intent.id) d l).2.2.locks = l.locks ∧
      (exec (.refreshIntent intent.id) d l).2.2.pending = l.pending := by
    simp only [exec]
    split <;> exact ⟨rfl, rfl⟩
  exact inOrder_end (h.snoc le_rfl (.inl rfl) (fun _ hr => hsame.1 ▸ hr) hsame.2) rfl fun _ => trivial

/-- The id of an object is that of a locked row. -/
theorem mem_locks_objects {rows : List PaymentIntent} {i : PaymentIntent} (h : i ∈ l.objects rows)
    (locks : List RowId) : .intent i.id ∈ locks ++ rows.map fun i => .intent i.id := by
  obtain ⟨r, hr, rfl⟩ := List.mem_map.mp h
  refine List.mem_append_right _ (List.mem_map.mpr ⟨r, hr, ?_⟩)
  cases hfind : l.loaded.find? (·.id = r.id) with
  | none => rfl
  | some x =>
    have hx := List.find?_some hfind
    exact congrArg RowId.intent (of_decide_eq_true hx).symm

theorem inOrder_initiateUpi (merchant : Merchant) (payload : UpiInitiateRequest)
    (new : InitiateIds) (h : At 0 past l) :
    Within J ids (initiateUpi merchant payload new) past l := by
  unfold initiateUpi
  refine inOrder_execute h (.inl zero_lt_two) (by simp) fun d rows _ hrows => ?_
  cases hrows
  have h := h.snoc (s := .selectIntentForUpdate payload.orderId merchant.id) (m := 2)
    (k := (exec (.selectIntentForUpdate payload.orderId merchant.id) d l).2.2)
    (by decide) (.inr rfl) (List.subset_append_left _ _) rfl
  refine inOrder_scalarOneOrNone fun intent hintent => ?_
  cases intent with
  | none => trivial
  | some intent =>
    dsimp only
    split_ifs
    · trivial
    · have hlocked := mem_locks_objects (hintent intent rfl) l.locks
      refine inOrder_execute h (.inr rfl) (by simp) fun d' rows _ _ => ?_
      refine inOrder_scalarOneOrNone fun duplicate _ => ?_
      cases duplicate with
      | some duplicate => trivial
      | none =>
        exact inOrder_startPayment (h.snoc le_rfl (.inl rfl) (List.Subset.refl _) rfl) hlocked

theorem guarded_initiateUpi (merchant : Merchant) (payload : UpiInitiateRequest)
    (new : InitiateIds) : InOrder ids (initiateUpi merchant payload new) [] .closed :=
  inOrder_initiateUpi merchant payload new at_nil

/-! ### Callbacks -/

theorem inOrder_ensureAccountLocked {accountType : AccountType} {identifier : String}
    {merchantId : Option UUID} {id : UUID} {f : LedgerAccount → Sql α} (h : At n past l)
    (hn : n < level (.insertAccount id accountType identifier none))
    (hins : Insertable ids id accountType identifier)
    (hf : ∀ a past' l', At (level (.selectAccount identifier accountType)) past' l' →
      l.locks ⊆ l'.locks → .account a.id ∈ l'.locks → Within J ids (f a) past' l') :
    Within J ids (ensureAccountLocked accountType identifier merchantId id >>= f) past l := by
  unfold ensureAccountLocked
  have hlevels : level (.insertAccount id accountType identifier none) <
      level (.selectAccount identifier accountType) := by
    simp only [level]
    split_ifs <;> omega
  rw [Prog.bind_assoc]
  refine Guarded.exec_bind (h.ok (.inl hn) fun _ _ _ _ e => (by cases e; exact hins))
    fun d _ _ _ => ?_
  rw [Prog.bind_assoc]
  generalize hs : Stmt.insertAccount id accountType identifier
    (if accountType = .merchantSettlement then merchantId else none) = s
  have hlevel : level s = level (.insertAccount id accountType identifier none) := by
    rw [← hs]
    rfl
  have hsame : (exec s d l).2.2.locks = l.locks ∧ (exec s d l).2.2.pending = l.pending := by
    subst hs
    rcases insertAccount_cases (newAccount id accountType identifier
      (if accountType = .merchantSettlement then merchantId else none)) d l with he | ⟨-, he⟩
    · simp only [exec, he, and_self]
    · simp only [exec, he, and_self]
  have h₁ : At (level s) (past ++ [s]) (exec s d l).2.2 :=
    h.snoc (hlevel ▸ hn.le) (.inr rfl) (fun _ hr => hsame.1 ▸ hr) hsame.2
  refine inOrder_execute h₁ (.inl (hlevel ▸ hlevels)) (by simp) fun d' rows _ hrows => ?_
  cases hrows
  refine inOrder_scalarOne fun a ha => hf a _ _
    (h₁.snoc (hlevel ▸ hlevels.le) (.inr rfl) (List.subset_append_left _ _) rfl)
    (fun r hr => List.mem_append_left _ (hsame.1 ▸ hr))
    (List.mem_append_right _ (List.mem_map_of_mem ha))

theorem inOrder_postLedger {txn : Transaction} {intent : PaymentIntent} {amount : Decimal}
    {new : CallbackIds} {f : Unit → Sql α}
    (hids : ∀ id, id = new.payerAccountId ∨ id = new.merchantAccountId → id ∈ ids)
    (hvpa : '@' ∈ txn.vpa.toList) (h : At 2 past l) (htxn : .transaction txn.id ∈ l.locks)
    (hf : ∀ past' l', At 6 past' l' → Within J ids (f ()) past' l') :
    Within J ids (postLedger txn intent amount new >>= f) past l := by
  unfold postLedger
  simp only [Prog.bind_assoc]
  refine inOrder_ensureAccountLocked h (by simp [level]) ⟨hids _ (.inl rfl), .inl ⟨rfl, hvpa⟩⟩
    fun payer past l₁ h hl₁ hpayer => ?_
  refine inOrder_ensureAccountLocked h (by simp [level])
    ⟨hids _ (.inr rfl), .inr ⟨rfl, at_notMem_merchantIdentifier _⟩⟩
    fun merchant past l₂ h hl₂ hmerchant => ?_
  have hpayer := hl₂ hpayer
  have htxn := hl₂ (hl₁ htxn)
  refine inOrder_ofExcept fun _ => ?_
  refine inOrder_stage h (by simpa [Write.rows]) fun past l₃ h hl₃ => ?_
  refine inOrder_ofExcept fun _ => ?_
  refine inOrder_stage h (by simpa [Write.rows, hl₃]) fun past l₄ h hl₄ => ?_
  refine inOrder_stage h (by simp [Write.rows, hl₃, hl₄, hpayer, htxn]) fun past l₅ h hl₅ => ?_
  refine inOrder_stage h (by simp [Write.rows, hl₃, hl₄, hl₅, hmerchant, htxn])
    fun past l₆ h _ => ?_
  exact hf past l₆ h

theorem inOrder_settle {txn : Transaction} {intent : PaymentIntent} {event : BankCallbackEvent}
    {amount : Decimal} {new : CallbackIds}
    (hids : ∀ id, id = new.payerAccountId ∨ id = new.merchantAccountId → id ∈ ids)
    (hvpa : '@' ∈ txn.vpa.toList) (h : At 2 past l) (htxn : .transaction txn.id ∈ l.locks)
    (hintent : .intent intent.id ∈ l.locks) :
    Within J ids (settle txn intent event amount new) past l := by
  unfold settle
  cases assertTransitions txn intent event with
  | error exc => exact inOrder_end h rfl fun _ => trivial
  | ok u =>
    refine inOrder_stage h (by simpa [Write.rows]) fun past l₁ h hl₁ => ?_
    refine inOrder_stage h (by simpa [Write.rows, hl₁]) fun past l₂ h hl₂ => ?_
    split_ifs
    · exact inOrder_postLedger hids hvpa h (hl₂ ▸ hl₁ ▸ htxn) fun past l h =>
        inOrder_end h rfl fun _ => trivial
    · exact inOrder_end h rfl fun _ => trivial

theorem inOrder_processBankCallback (event : BankCallbackEvent) (psp : String) (amount : Decimal)
    (new : CallbackIds) (hJ : ∀ d, J d → ∀ t ∈ d.transactions, '@' ∈ t.vpa.toList)
    (hids : ∀ id, id = new.payerAccountId ∨ id = new.merchantAccountId → id ∈ ids) :
    Within J ids (processBankCallback event psp amount new) [] .closed := by
  unfold processBankCallback
  refine inOrder_execute at_nil (.inl zero_lt_one) (by simp) fun d rows hd hrows => ?_
  cases hrows
  have h := at_nil.snoc (s := .selectTransactionByPsp psp) (m := 1)
    (k := (exec (.selectTransactionByPsp psp) d .closed).2.2)
    (by decide) (.inr rfl) (List.subset_append_left _ _) rfl
  refine inOrder_scalarOneOrNone fun txn htxn => ?_
  cases txn with
  | none => trivial
  | some txn =>
    have hmem := htxn txn rfl
    have hvpa := hJ d hd txn (List.mem_filter.mp hmem).1
    have hlocked : .transaction txn.id ∈
        (exec (.selectTransactionByPsp psp) d .closed).2.2.locks :=
      List.mem_append_right _ (List.mem_map_of_mem hmem)
    generalize (exec (.selectTransactionByPsp psp) d .closed).2.2 = l at h hlocked ⊢
    refine inOrder_execute h (.inl one_lt_two) (by simp) fun d rows _ hrows => ?_
    cases hrows
    have h := h.snoc (s := .selectIntentById txn.intentId) (m := 2)
      (k := (exec (.selectIntentById txn.intentId) d l).2.2)
      one_le_two (.inr rfl) (List.subset_append_left _ _) rfl
    refine inOrder_scalarOne fun intent hintent => ?_
    have hintent := mem_locks_objects hintent l.locks
    have hlocked : .transaction txn.id ∈
        (exec (.selectIntentById txn.intentId) d l).2.2.locks := List.mem_append_left _ hlocked
    refine inOrder_ofExcept fun differs => ?_
    split_ifs
    · trivial
    · exact inOrder_end h rfl fun _ => trivial
    · exact inOrder_end h rfl fun _ => trivial
    · exact inOrder_settle hids hvpa h hlocked hintent

theorem guarded_processBankCallback (event : BankCallbackEvent) (psp : String) (amount : Decimal)
    (new : CallbackIds)
    (hids : ∀ id, id = new.payerAccountId ∨ id = new.merchantAccountId → id ∈ ids) :
    InOrder ids (processBankCallback event psp amount new) [] .closed :=
  inOrder_processBankCallback event psp amount new (fun _ hd => hd.chart.vpa) hids

end PaymentGateway.Runs.LockOrder
