import PaymentGateway.Outlines.Rules
import PaymentGateway.Services.Webhook

/-! # The outline of a bank callback

`process_bank_callback` holds the transaction, its intent and the accounts it has selected
(`Working`) until it commits. What it commits is that the payment failed, or that it succeeded with
a posting of the intent's amount (`Settles`). -/

namespace PaymentGateway.Outlines.Webhook

open PaymentGateway.Core.Ids PaymentGateway.Models PaymentGateway.Schemas
open PaymentGateway.Lib.Program PaymentGateway.Lib.Interference PaymentGateway.Lib.DecimalArith
open PaymentGateway.Lib.Tables PaymentGateway.Db.Statements PaymentGateway.Db.Locking
open PaymentGateway.Db.Flush PaymentGateway.Services.StateMachine PaymentGateway.Services.Webhook
open PaymentGateway.State.Changes PaymentGateway.State.Invariant PaymentGateway.Outlines.Rules

/-- What a callback may commit. -/
inductive Settles (event : BankCallbackEvent) (psp : String) (amount : Decimal) (d d' : Db) : Prop
  | failed {t i} (he : event = .paymentFailed) (ht : t.pspReference = some psp)
      (ha : amountDiffers i amount = .ok false) (h : Failed t i d d')
  | succeeded {t i p} (he : event = .paymentSuccess) (ht : t.pspReference = some psp)
      (ha : amountDiffers i amount = .ok false) (h : Succeeded t i p d d')

section Settles

variable {event : BankCallbackEvent} {psp : String} {amount : Decimal} {d d' : Db}

theorem Settles.change (h : Settles event psp amount d d') : Change d d' := by
  cases h with
  | failed he ht ha h => exact .failed h
  | succeeded he ht ha h => exact .succeeded h

/-- A callback adds no transaction, and keeps the references. -/
theorem Settles.pspReferences (h : Settles event psp amount d d') :
    d'.transactions.map (·.pspReference) = d.transactions.map (·.pspReference) := by
  cases h with
  | failed he ht ha h => rw [h.db]; exact map_key (by simp) _
  | succeeded he ht ha h => rw [h.db]; exact map_key (by simp) _

theorem Settles.pspUnique (h : Settles event psp amount d d') (hu : PspUnique d) :
    PspUnique d' := by
  unfold PspUnique
  rw [h.pspReferences]
  exact hu

end Settles

/-- The session has locked the transaction `t`, its intent `i` and the accounts `as`, some of which
it may have opened itself. -/
structure Working (t : Transaction) (i : PaymentIntent) (as : List LedgerAccount) (l : Session)
    (d : Db) : Prop where
  txn : t ∈ d.transactions
  txn_locked : .transaction t.id ∈ l.locks
  intent : i ∈ d.intents
  intent_locked : .intent i.id ∈ l.locks
  intentId : i.id = t.intentId
  accounts : ∀ a ∈ as, (a ∈ d.accounts ∧ .account a.id ∈ l.locks) ∨ a ∈ l.inserted
  openedFor : ∀ a ∈ l.inserted, OpenedFor t i a

variable {t : Transaction} {i : PaymentIntent} {as : List LedgerAccount} {l l' : Session}
  {d d' : Db} {α : Type} {J : Db → Prop} {A : Stmt → Db → Session → Prop} {effect : Db → Db → Prop}
  {Q : Except Exc α → Session → Db → Prop}

/-- The others leave it as it is. -/
theorem Working.frame (h : Working t i as l d) (hf : Frame l.locks d d') : Working t i as l d' where
  txn := hf.mem_transactions h.txn h.txn_locked
  txn_locked := h.txn_locked
  intent := hf.mem_intents h.intent h.intent_locked
  intent_locked := h.intent_locked
  intentId := h.intentId
  accounts a ha := (h.accounts a ha).imp (fun ha => ⟨hf.mem_accounts ha.1 ha.2, ha.2⟩) id
  openedFor := h.openedFor

/-- So do statements of the session that lock or open more. -/
theorem Working.session (h : Working t i as l d) (hlocks : l.locks ⊆ l'.locks)
    (hinserted : l.inserted ⊆ l'.inserted) (hopened : ∀ a ∈ l'.inserted, OpenedFor t i a) :
    Working t i as l' d where
  txn := h.txn
  txn_locked := hlocks h.txn_locked
  intent := h.intent
  intent_locked := hlocks h.intent_locked
  intentId := h.intentId
  accounts a ha := (h.accounts a ha).imp (fun ha => ⟨ha.1, hlocks ha.2⟩) fun ha => hinserted ha
  openedFor := hopened

/-! ### The accounts -/

/-- After `INSERT … ON CONFLICT DO NOTHING` there is an account of the key, found or opened. -/
theorem insertAccount_ok {row : LedgerAccount} (h : (insertAccount row d l).1 = .ok ()) :
    (∃ a ∈ d.accounts ++ (insertAccount row d l).2.2.inserted, a.key = row.key) ∧
      ((insertAccount row d l).2.2 = l ∨
        (insertAccount row d l).2.2 = { l with inserted := l.inserted ++ [row] }) := by
  unfold insertAccount at h ⊢
  split_ifs with hlen hkey hid
  · exact ⟨hkey, .inl rfl⟩
  · exact ⟨⟨row, by simp, rfl⟩, .inr rfl⟩
  · rw [if_pos hlen, if_neg hkey, if_neg hid] at h; cases h
  · rw [if_neg hlen] at h; cases h

theorem insertAccount_error {row : LedgerAccount} {e : Exc}
    (h : (insertAccount row d l).1 = .error e) : e = .integrityError ∨ e = .dataError := by
  unfold insertAccount at h
  split_ifs at h
  · cases h; exact .inl rfl
  · cases h; exact .inr rfl

/-- There is one account of an identifier, if there is one of its key. -/
theorem one_account (hi : Balanced d) (hw : Working t i as l d) (hown : Own d l)
    {row : LedgerAccount} (hrow : OpenedFor t i row) {a : LedgerAccount}
    (ha : a ∈ d.accounts ++ l.inserted)
    (hkey : a.key = (row.identifier, defaultCurrency)) :
    ∃ b, (d.accounts ++ l.inserted).filter (fun x => x.identifier = row.identifier ∧
      x.accountType = row.accountType) = [b] := by
  have hchart : ∀ x ∈ d.accounts ++ l.inserted, x.currency = defaultCurrency ∧ Kind x :=
    fun x hx => hi.chart.opened hw.txn hown hw.openedFor hx
  have hident : a.identifier = row.identifier := congrArg Prod.fst hkey
  have hmem : a ∈ (d.accounts ++ l.inserted).filter (fun x => x.identifier = row.identifier ∧
      x.accountType = row.accountType) := by
    refine List.mem_filter.mpr ⟨ha, decide_eq_true ⟨hident, ?_⟩⟩
    exact (hchart a ha).2.accountType_eq (hi.chart.kind_openedFor hw.txn hrow) hident
  have hle : ((d.accounts ++ l.inserted).filter (fun x => x.identifier = row.identifier ∧
      x.accountType = row.accountType)).length ≤ 1 := by
    refine length_filter_le_one (nodup_opened_keys hi.keys hown)
      fun x hx y hy ⟨hx', _⟩ ⟨hy', _⟩ => ?_
    rw [LedgerAccount.key, LedgerAccount.key, hx', hy', (hchart x hx).1, (hchart y hy).1]
  have hpos := List.length_pos_of_mem hmem
  exact List.length_eq_one_iff.mp (by omega)

/-- An account the session opens for the payment is one of its own. -/
theorem Working.opens {row : LedgerAccount} (hrow : OpenedFor t i row) (hw : Working t i as l d)
    (h : (insertAccount row d l).1 = .ok ()) :
    Working t i as (insertAccount row d l).2.2 d := by
  rcases (insertAccount_ok h).2 with e | e <;> rw [e]
  · exact hw
  · refine hw.session (List.Subset.refl _) (List.subset_append_left _ _) fun a ha => ?_
    rcases List.mem_append.mp ha with ha | ha
    · exact hw.openedFor a ha
    · rw [List.mem_singleton.mp ha]; exact hrow

/-- An account the session selects is locked, unless the session has opened it. -/
theorem Working.selects {accountType : AccountType} {identifier : String} {a : LedgerAccount}
    (hw : Working t i as l d) (ha : (d.accounts ++ l.inserted).filter (fun x =>
      x.identifier = identifier ∧ x.accountType = accountType) = [a]) :
    Working t i (a :: as) (exec (.selectAccount identifier accountType) d l).2.2 d ∧
      a.accountType = accountType ∧ a.identifier = identifier := by
  have hmem := List.mem_filter.mp (ha ▸ List.mem_singleton_self a)
  obtain ⟨hident, htype⟩ := of_decide_eq_true hmem.2
  have hlocked : .account a.id ∈ (exec (.selectAccount identifier accountType) d l).2.2.locks :=
    List.mem_append_right _ (List.mem_map.mpr ⟨a, ha ▸ List.mem_singleton_self a, rfl⟩)
  have hw' : Working t i as (exec (.selectAccount identifier accountType) d l).2.2 d :=
    hw.session (List.subset_append_left _ _) (List.Subset.refl _) hw.openedFor
  refine ⟨{ hw' with accounts := fun x hx => ?_ }, htype, hident⟩
  rcases List.mem_cons.mp hx with rfl | hx
  · exact (List.mem_append.mp hmem.1).imp (fun h => ⟨h, hlocked⟩) id
  · exact hw'.accounts x hx

/-- The `SELECT … FOR UPDATE` of `_ensure_account_locked` finds one account. -/
theorem outline_selectAccount {f : LedgerAccount → Sql α} (hJ : ∀ d, J d → Balanced d)
    {row : LedgerAccount} (hrow : OpenedFor t i row) (hw : Working t i as l d)
    (hkey : ∃ a ∈ d.accounts ++ l.inserted, a.key = (row.identifier, defaultCurrency))
    (hok : ∀ a l' d', Working t i (a :: as) l' d' → J d' → l'.pending = l.pending →
      a.accountType = row.accountType → a.identifier = row.identifier →
      Outline (contract J A effect) Q (f a) l' d') :
    Outline (contract J A effect) Q
      (execute (.selectAccount row.identifier row.accountType) >>= fun rows =>
        scalarOne rows >>= f) l d := by
  refine outline_execute (fun d => Working t i as l d ∧
      ∃ a ∈ d.accounts ++ l.inserted, a.key = (row.identifier, defaultCurrency)) (by simp) ?_
    ⟨hw, hkey⟩ ?_ fun d e he => by cases he
  · rintro d d' hf ⟨hw, a, ha, hk⟩
    refine ⟨hw.frame hf, ?_⟩
    rcases List.mem_append.mp ha with ha | ha
    · obtain ⟨b, hb, e, -⟩ := hf.accounts.exists_mem ha
      exact ⟨b, List.mem_append_left _ hb, by rw [e]; exact hk⟩
    · exact ⟨a, List.mem_append_right _ ha, hk⟩
  · rintro d rows ⟨hw, a, ha, hk⟩ hown hj - hrows
    obtain ⟨b, hb⟩ := one_account (hJ d hj) hw hown hrow ha hk
    cases hrows
    refine outline_scalarOne (fun h => by rw [hb] at h; cases h) (fun a' ha' => ?_)
      fun h => by rw [hb] at h; simp at h
    obtain ⟨hw', htype, hident⟩ := hw.selects ha'
    exact hok a' _ d hw' hj rfl htype hident

/-- **`_ensure_account_locked`** ends with the account of its identifier, locked or just opened. -/
theorem outline_ensureAccountLocked {accountType : AccountType} {identifier : String}
    {merchantId : Option UUID} {id : UUID} {f : LedgerAccount → Sql α}
    (hJ : ∀ d, J d → Balanced d)
    (hrow : OpenedFor t i (newAccount id accountType identifier
      (if accountType = .merchantSettlement then merchantId else none)))
    (hw : Working t i as l d)
    (hok : ∀ a l' d', Working t i (a :: as) l' d' → J d' → l'.pending = l.pending →
      a.accountType = accountType → a.identifier = identifier →
      Outline (contract J A effect) Q (f a) l' d')
    (herr : ∀ e l d, ¬ LookupError e → J d → Q (.error e) l d) :
    Outline (contract J A effect) Q
      (ensureAccountLocked accountType identifier merchantId id >>= f) l d := by
  unfold ensureAccountLocked
  simp only [Prog.bind_assoc]
  refine outline_execute (Working t i as l) (by simp) (fun _ _ hf h => h.frame hf) hw ?_ ?_
  · intro d _ hw _ _ _ hins
    obtain ⟨hkey, hsession⟩ := insertAccount_ok hins
    have hw' := hw.opens hrow hins
    simp only [exec]
    rcases hsession with e | e <;> rw [e] at hkey hw' ⊢
    · exact outline_selectAccount hJ hrow hw' hkey hok
    · exact outline_selectAccount hJ hrow hw' hkey hok
  · intro d e he hj
    rcases insertAccount_error he with rfl | rfl
    · exact herr _ _ _ (by simp [LookupError]) hj
    · exact herr _ _ _ (by simp [LookupError]) hj

/-! ### The amounts -/

/-- The callback's amount has the value of the intent's. -/
theorem eq_of_not_differs {amount : Decimal} (h : amountDiffers i amount = .ok false) :
    Decimal.eq i.amount.toDecimal amount = .ok true := by
  unfold amountDiffers Decimal.ne at h
  cases he : Decimal.eq i.amount.toDecimal amount with
  | error e => rw [he] at h; cases h
  | ok b =>
    rw [he] at h
    cases b with
    | true => rfl
    | false => cases h

/-- It is stored as the intent's. -/
theorem stored_amount {amount : Decimal} (h : amountDiffers i amount = .ok false) {money : Money}
    (hm : Numeric.ofDecimal 18 4 amount = some money) : money = i.amount := by
  have hv := eq_some_value i.amount.value_toDecimal (eq_of_not_differs h)
  exact Numeric.ext ((Numeric.ofDecimal_eq_some hv).mp hm)

/-- The new balance of an account, as it is stored. -/
theorem stored_balance {amount balance : Decimal} (h : amountDiffers i amount = .ok false)
    {a : LedgerAccount} (ha : addBalance a amount = .ok balance) {money : Money}
    (hm : Numeric.ofDecimal 18 4 balance = some money) :
    money.units = a.balance.units + i.amount.units := by
  have hfit : (a.balance.units + i.amount.units).natAbs < 10 ^ 28 := by
    have := a.balance.fits
    have := i.amount.fits
    omega
  obtain ⟨r, hr, hv⟩ := Numeric.add_exact (x := a.balance) (eq_of_not_differs h) hfit
  unfold addBalance at ha
  rw [hr] at ha
  cases ha
  exact (Numeric.ofDecimal_eq_some hv).mp hm

/-- The guards let only a pending transaction of a processing intent through. -/
theorem assertTransitions_ok {event : BankCallbackEvent} {u : Unit}
    (h : assertTransitions t i event = .ok u) : t.state = .pending ∧ i.status = .processing := by
  obtain ⟨u', h1, h2⟩ := bind_ok h
  have h1 := assertTransactionTransition_ok h1
  have h2 := assertIntentTransition_ok h2
  constructor
  · cases hs : t.state <;> rw [hs] at h1 <;> cases event <;>
      simp [transactionTransitions, targetTxn] at h1 ⊢
  · cases hs : i.status <;> rw [hs] at h2 <;> cases event <;>
      simp [paymentIntentTransitions, targetIntent] at h2 ⊢

/-! ### The flush -/

/-- The writes of `postLedger`. -/
def postings (t : Transaction) (amount : Decimal) (ids : CallbackIds) (payer payee : LedgerAccount)
    (payerBalance payeeBalance : Decimal) : List Write :=
  [.setBalance payer.id payerBalance, .setBalance payee.id payeeBalance,
    .addEntry ids.debitEntryId payer.id t.id amount .debit defaultCurrency,
    .addEntry ids.creditEntryId payee.id t.id amount .credit defaultCurrency]

theorem flush_failed (hw : Working t i [] l d) {u : Unit}
    (hs : assertTransitions t i .paymentFailed = .ok u) (hinserted : l.inserted = [])
    (hpending : l.pending = [.setTransactionState t.id .failed, .setIntentStatus i.id .failed])
    (h : l.flush d = .ok d') : Failed t i d d' := by
  obtain ⟨hstate, hstatus⟩ := assertTransitions_ok hs
  unfold Session.flush at h
  rw [hpending, hinserted, List.append_nil] at h
  obtain ⟨d₁, h₁, h⟩ := bind_ok h
  obtain ⟨d₂, h₂, h⟩ := bind_ok h
  cases h
  obtain rfl := setTransactionState_ok h₁
  obtain rfl := setIntentStatus_ok h₂
  exact ⟨⟨hw.txn, hw.intent, hw.intentId, hstate, hstatus⟩, rfl⟩

theorem flush_succeeded {payer payee : LedgerAccount} {amount payerBalance payeeBalance : Decimal}
    {ids : CallbackIds} (hown : Own d l) (hw : Working t i [payee, payer] l d) {u : Unit}
    (hs : assertTransitions t i .paymentSuccess = .ok u)
    (hamount : amountDiffers i amount = .ok false)
    (hpayer : IsPayer t payer) (hpayee : IsPayee i payee)
    (hpayerBalance : addBalance payer amount = .ok payerBalance)
    (hpayeeBalance : addBalance payee amount = .ok payeeBalance)
    (hpending : l.pending = .setTransactionState t.id .success ::
      .setIntentStatus i.id .success :: postings t amount ids payer payee payerBalance payeeBalance)
    (h : l.flush d = .ok d') : ∃ p, Succeeded t i p d d' := by
  obtain ⟨hstate, hstatus⟩ := assertTransitions_ok hs
  unfold Session.flush at h
  rw [hpending] at h
  obtain ⟨d₁, h₁, h⟩ := bind_ok h
  obtain ⟨d₂, h₂, h⟩ := bind_ok h
  obtain ⟨d₃, h₃, h⟩ := bind_ok h
  obtain ⟨d₄, h₄, h⟩ := bind_ok h
  obtain ⟨d₅, h₅, h⟩ := bind_ok h
  obtain ⟨d₆, h₆, h⟩ := bind_ok h
  cases h
  obtain rfl := setTransactionState_ok h₁
  obtain rfl := setIntentStatus_ok h₂
  obtain ⟨pb, hpb, rfl⟩ := setBalance_ok h₃
  obtain ⟨qb, hqb, rfl⟩ := setBalance_ok h₄
  obtain ⟨m, hm, -, rfl⟩ := addEntry_ok h₅
  obtain ⟨m', hm', -, rfl⟩ := addEntry_ok h₆
  obtain rfl := stored_amount hamount hm
  obtain rfl := stored_amount hamount hm'
  have hmem : ∀ a ∈ [payee, payer], a ∈ d.accounts ++ l.inserted := fun a ha =>
    List.mem_append.mpr ((hw.accounts a ha).imp And.left id)
  refine ⟨⟨payer, payee, pb, qb, ids.debitEntryId, ids.creditEntryId, l.inserted⟩,
    ⟨hw.txn, hw.intent, hw.intentId, hstate, hstatus⟩, hown, hw.openedFor, hmem _ (by simp),
    hmem _ (by simp), hpayer, hpayee, stored_balance hamount hpayerBalance hpb,
    stored_balance hamount hpayeeBalance hqb, ?_⟩
  simp [Posting.entries, Posting.accounts]

/-! ### The program -/

theorem Working.stage (h : Working t i as l d) (w : Write) :
    Working t i as ⟨l.assign w, l.locks, l.inserted, l.pending ++ [w]⟩ d :=
  h.session (List.Subset.refl _) (List.Subset.refl _) h.openedFor

theorem amountDiffers_error {amount : Decimal} {e : Exc} (h : amountDiffers i amount = .error e) :
    e = .invalidOperation := by
  unfold amountDiffers at h
  cases ha : Decimal.ne i.amount.toDecimal amount <;> rw [ha] at h <;> cases h
  rfl

theorem addBalance_error {a : LedgerAccount} {amount : Decimal} {e : Exc}
    (h : addBalance a amount = .error e) : e = .invalidOperation := by
  unfold addBalance at h
  cases ha : Decimal.add 28 a.balance.toDecimal amount <;> rw [ha] at h <;> cases h
  rfl

theorem outline_postLedger {amount : Decimal} {ids : CallbackIds} {f : Unit → Sql α}
    (hJ : ∀ d, J d → Balanced d) (hw : Working t i [] l d)
    (hok : ∀ payer payee payerBalance payeeBalance l' d', Working t i [payee, payer] l' d' →
      IsPayer t payer → IsPayee i payee → addBalance payer amount = .ok payerBalance →
      addBalance payee amount = .ok payeeBalance →
      l'.pending = l.pending ++ postings t amount ids payer payee payerBalance payeeBalance →
      Outline (contract J A effect) Q (f ()) l' d')
    (herr : ∀ e l d, ¬ LookupError e → J d → Q (.error e) l d) :
    Outline (contract J A effect) Q (postLedger t i amount ids >>= f) l d := by
  unfold postLedger
  simp only [Prog.bind_assoc]
  refine outline_ensureAccountLocked hJ (.inl ⟨⟨rfl, rfl⟩, rfl⟩) hw ?_ herr
  intro payer l₁ d₁ hw₁ _ hpending₁ htype hident
  have hpayer : IsPayer t payer := ⟨htype, hident⟩
  refine outline_ensureAccountLocked hJ (.inr ⟨⟨rfl, rfl⟩, rfl⟩) hw₁ ?_ herr
  intro payee l₂ d₂ hw₂ hj₂ hpending₂ htype hident
  have hpayee : IsPayee i payee := ⟨htype, hident⟩
  have hstable : ∀ l d d', Frame l.locks d d' → Working t i [payee, payer] l d →
      Working t i [payee, payer] l d' := fun _ _ _ hf h => h.frame hf
  refine outline_ofExcept (fun payerBalance hpb => ?_) fun e he => ?_
  · refine outline_stage (Working t i [payee, payer] l₂) (hstable l₂) hw₂ fun d₃ hw₃ hj₃ => ?_
    refine outline_ofExcept (fun payeeBalance hqb => ?_) fun e he => ?_
    · refine outline_stage _ (hstable _) (hw₃.stage _) fun d₄ hw₄ _ => ?_
      refine outline_stage _ (hstable _) (hw₄.stage _) fun d₅ hw₅ _ => ?_
      refine outline_stage _ (hstable _) (hw₅.stage _) fun d₆ hw₆ _ => ?_
      refine hok payer payee payerBalance payeeBalance _ d₆ (hw₆.stage _) hpayer hpayee hpb hqb ?_
      simp [postings, hpending₁, hpending₂]
    · rw [addBalance_error he]; exact herr _ _ _ (by simp [LookupError]) hj₃
  · rw [addBalance_error he]; exact herr _ _ _ (by simp [LookupError]) hj₂

/-- The answer of a replay. -/
def replayedResult (t : Transaction) : CallbackResult :=
  ⟨true, t.id, t.publicId, none, t.state.value⟩

/-- The answer of a callback that settles the payment. -/
def settledResult (t : Transaction) (i : PaymentIntent) (event : BankCallbackEvent) :
    CallbackResult :=
  ⟨false, t.id, t.publicId, some i.publicId, (targetIntent event).value⟩

/-- The result is the answer for a transaction of the reference, which is now in the state of the
event. -/
def Reported (event : BankCallbackEvent) (psp : String) (res : CallbackResult) (d : Db) : Prop :=
  ∃ t ∈ d.transactions, ∃ i ∈ d.intents, i.id = t.intentId ∧ t.pspReference = some psp ∧
    t.state = targetTxn event ∧ (res = replayedResult t ∨ res = settledResult t i event)

/-- A transaction of the reference waits for its callback. -/
def Awaited (psp : String) (d : Db) : Prop :=
  ∃ t ∈ d.transactions, t.pspReference = some psp ∧ t.state = .pending

/-- The result speaks of a transaction of the reference, which is now in the state of the event. -/
def Answered (event : BankCallbackEvent) (psp : String) (res : CallbackResult) (d : Db) : Prop :=
  ∃ t ∈ d.transactions, t.pspReference = some psp ∧ t.id = res.transactionDbId ∧
    t.state = targetTxn event

theorem Reported.answered {event : BankCallbackEvent} {psp : String} {res : CallbackResult}
    (h : Reported event psp res d) : Answered event psp res d := by
  obtain ⟨t, ht, i, -, -, hpsp, hstate, hres⟩ := h
  refine ⟨t, ht, hpsp, ?_, hstate⟩
  rcases hres with rfl | rfl <;> rfl

theorem reported_finish {event : BankCallbackEvent} {psp : String} {status : PaymentStatus}
    (hw : Working t i as l d) (hpsp : t.pspReference = some psp)
    (hi : d'.intents = d.intents.map (withStatus i.id status))
    (hd : d'.transactions = d.transactions.map (withState t.id (targetTxn event))) :
    Reported event psp (settledResult t i event) d' := by
  refine ⟨withState t.id (targetTxn event) t, ?_, withStatus i.id status i, ?_, ?_, ?_, ?_, .inr ?_⟩
  · rw [hd]; exact List.mem_map_of_mem hw.txn
  · rw [hi]; exact List.mem_map_of_mem hw.intent
  · rw [withStatus_id, withState_intentId, hw.intentId]
  · rw [withState_pspReference, hpsp]
  · rw [withState_self]
  · rw [withState_self, withStatus_self]; rfl

theorem assertTransitions_error {event : BankCallbackEvent} {e : Exc}
    (h : assertTransitions t i event = .error e) : ∃ m, e = .invalidStateTransition m := by
  unfold assertTransitions assertTransactionTransition assertIntentTransition at h
  split_ifs at h <;> cases h <;> exact ⟨_, rfl⟩

section Program

variable {event : BankCallbackEvent} {psp : String} {amount : Decimal} {ids : CallbackIds}
  {R : Except Exc CallbackResult → Session → Db → Prop}

theorem outline_replayed (hw : Working t i [] l d) (hpsp : t.pspReference = some psp)
    (hstate : t.state = targetTxn event) (hinserted : l.inserted = []) (hpending : l.pending = [])
    (hok : ∀ res loaded d, Reported event psp res d → (res.replay = true → J d) →
      (res.replay = false → ∃ l₀ d₀, A .commit d₀ l₀ ∧ Awaited psp d₀) →
      R (.ok res) ⟨loaded, [], [], []⟩ d) :
    Outline (contract J A effect) R (replayed t) l d := by
  have hflush : ∀ d, l.flush d = .ok d := fun d => by
    simp [Session.flush, hinserted, hpending]
    rfl
  refine outline_commit (Working t i [] l) (fun _ _ hf h => h.frame hf) hw ?_ ?_
  · intro d d' hw _ hj _ h
    rw [hflush] at h
    cases h
    exact ⟨.inl rfl, hok _ _ _ ⟨t, hw.txn, i, hw.intent, hw.intentId, hpsp, hstate, .inl rfl⟩
      (fun _ => hj) fun h => by cases h⟩
  · intro d e h
    rw [hflush] at h
    cases h

theorem outline_settle (hJ : ∀ d, J d → Balanced d)
    (heff : ∀ d d', Settles event psp amount d d' → effect d d')
    (hw : Working t i [] l d) (hpsp : t.pspReference = some psp)
    (hamount : amountDiffers i amount = .ok false) (hinserted : l.inserted = [])
    (hpending : l.pending = [])
    (hok : ∀ res loaded d, Reported event psp res d → (res.replay = true → J d) →
      (res.replay = false → ∃ l₀ d₀, A .commit d₀ l₀ ∧ Awaited psp d₀) →
      R (.ok res) ⟨loaded, [], [], []⟩ d)
    (herr : ∀ e l d, ¬ LookupError e → J d → R (.error e) l d) :
    Outline (contract J A effect) R (settle t i event amount ids) l d := by
  unfold settle
  cases hs : assertTransitions t i event with
  | error exc =>
    obtain ⟨m, rfl⟩ := assertTransitions_error hs
    refine outline_execute (fun _ => True) (by simp) (fun _ _ _ h => h) trivial ?_
      fun _ _ he => by cases he
    intro d _ _ _ hj _ _
    exact herr _ _ _ (by simp [LookupError]) hj
  | ok u =>
    have hstable : ∀ as l d d', Frame l.locks d d' → Working t i as l d →
        Working t i as l d' := fun _ _ _ _ hf h => h.frame hf
    refine outline_stage _ (hstable [] l) hw fun d₁ hw₁ _ => ?_
    refine outline_stage _ (hstable [] _) (hw₁.stage _) fun d₂ hw₂ _ => ?_
    have hw₃ := hw₂.stage (.setIntentStatus i.id (targetIntent event))
    cases event with
    | paymentFailed =>
      refine outline_commit _ (hstable [] _) hw₃ ?_ ?_
      · intro d d' hw _ _ hA h
        have hf := flush_failed hw hs hinserted (by simp [hpending]; exact ⟨rfl, rfl⟩) h
        refine ⟨.inr (heff _ _ (.failed rfl hpsp hamount hf)), hok _ _ _ ?_ (fun h => by cases h)
          fun _ => ⟨_, d, hA, t, hf.txn, hpsp, hf.pending⟩⟩
        exact reported_finish hw hpsp (by rw [hf.db]) (by rw [hf.db]; rfl)
      · exact fun d e h => herr _ _ _ (not_lookupError_flush h)
    | paymentSuccess =>
      refine outline_postLedger hJ hw₃ ?_ herr
      intro payer payee pb qb l' d' hw' hpayer hpayee hpb hqb hpending'
      refine outline_commit _ (hstable _ _) hw' ?_ ?_
      · intro d d' hw hown _ hA h
        obtain ⟨p, hf⟩ := flush_succeeded hown hw hs hamount hpayer hpayee hpb hqb
          (by rw [hpending', hpending]; rfl) h
        refine ⟨.inr (heff _ _ (.succeeded rfl hpsp hamount hf)), hok _ _ _ ?_ (fun h => by cases h)
          fun _ => ⟨_, d, hA, t, hf.txn, hpsp, hf.pending⟩⟩
        exact reported_finish hw hpsp (by rw [hf.db]) (by rw [hf.db]; rfl)
      · exact fun d e h => herr _ _ _ (not_lookupError_flush h)

theorem objects_nil {rows : List PaymentIntent} (h : l.loaded = []) : l.objects rows = rows := by
  unfold Session.objects
  rw [h]
  exact List.map_id' rows

/-- The intent of a transaction. -/
theorem one_intent (hi : Balanced d) (ht : t ∈ d.transactions) :
    ∃ i, d.intents.filter (·.id = t.intentId) = [i] := by
  obtain ⟨i, him, hid⟩ := hi.keys.intent_of t ht
  have hmem : i ∈ d.intents.filter (·.id = t.intentId) :=
    List.mem_filter.mpr ⟨him, decide_eq_true hid⟩
  have hle := length_filter_le_one (c := fun x : PaymentIntent => x.id = t.intentId) hi.keys.intents
    fun x _ y _ hx hy => hx.trans hy.symm
  have hpos := List.length_pos_of_mem hmem
  exact List.length_eq_one_iff.mp (by omega)

/-- **`process_bank_callback`** commits at most a change of its event and reference, and answers for
a transaction of the reference. If references are unique, none of its lookups fails. What may be
assumed of the database where it is executed still holds where it raises or answers a replay. -/
theorem outline_callback (hJ : ∀ d, J d → Balanced d)
    (heff : ∀ d d', Settles event psp amount d d' → effect d d')
    (hlookup : (∀ d, J d → PspUnique d) ∨ ∀ e l d, R (.error e) l d)
    (hok : ∀ res loaded d, Reported event psp res d → (res.replay = true → J d) →
      (res.replay = false → ∃ l₀ d₀, A .commit d₀ l₀ ∧ Awaited psp d₀) →
      R (.ok res) ⟨loaded, [], [], []⟩ d)
    (herr : ∀ e l d, ¬ LookupError e → J d → R (.error e) l d) :
    Outline (contract J A effect) R (processBankCallback event psp amount ids) .closed d := by
  unfold processBankCallback
  refine outline_execute (fun _ => True) (by simp) (fun _ _ _ h => h) trivial ?_
    fun _ _ he => by cases he
  intro d rows _ _ hj _ hrows
  cases hrows
  refine outline_scalarOneOrNone (fun _ => ?_) (fun t ht => ?_) fun hmany => ?_
  · exact herr _ _ _ (by simp [LookupError]) hj
  · have hmem := List.mem_filter.mp (ht ▸ List.mem_singleton_self t)
    have hpsp : t.pspReference = some psp := of_decide_eq_true hmem.2
    have hlocked : .transaction t.id ∈ (exec (.selectTransactionByPsp psp) d .closed).2.2.locks :=
      List.mem_append_right _ (List.mem_map.mpr ⟨t, ht ▸ List.mem_singleton_self t, rfl⟩)
    refine outline_execute (fun d => t ∈ d.transactions) (by simp)
      (fun _ _ hf h => hf.mem_transactions h hlocked) hmem.1 ?_ fun _ _ he => by cases he
    intro d rows ht _ hj _ hrows
    cases hrows
    obtain ⟨i, hone⟩ := one_intent (hJ d hj) ht
    rw [objects_nil rfl]
    refine outline_scalarOne (fun h => by rw [hone] at h; cases h) (fun i' hi' => ?_)
      fun h => by rw [hone] at h; simp at h
    have hmem := List.mem_filter.mp (hi' ▸ List.mem_singleton_self i')
    generalize hl : (exec (.selectIntentById t.intentId) d _).2.2 = l
    have hw : Working t i' [] l d := by
      subst hl
      refine ⟨ht, List.mem_append_left _ hlocked, hmem.1, ?_, of_decide_eq_true hmem.2, by simp,
        by simp [exec, Session.closed]⟩
      exact List.mem_append_right _ (List.mem_map.mpr ⟨i', hi' ▸ List.mem_singleton_self i', rfl⟩)
    have hinserted : l.inserted = [] := by subst hl; rfl
    have hpending : l.pending = [] := by subst hl; rfl
    refine outline_ofExcept (fun differs hdiffers => ?_) fun e he => ?_
    · cases differs with
      | true => exact herr _ _ _ (by simp [LookupError]) hj
      | false =>
        simp only [Bool.false_eq_true, if_false]
        split_ifs with hs hf
        · exact outline_replayed hw hpsp (by rw [hs.1, hs.2]; rfl) hinserted hpending hok
        · exact outline_replayed hw hpsp (by rw [hf.1, hf.2]; rfl) hinserted hpending hok
        · exact outline_settle hJ heff hw hpsp hdiffers hinserted hpending hok herr
    · rw [amountDiffers_error he]; exact herr _ _ _ (by simp [LookupError]) hj
  · rcases hlookup with hpsp | hany
    · have hle := length_filter_le_one (c := fun x : Transaction => x.pspReference = some psp)
        (hpsp d hj) fun x _ y _ hx hy => hx.trans hy.symm
      omega
    · exact hany _ _ _

/-- The same, in a consistent database. -/
theorem outline_processBankCallback (hJ : ∀ d, J d → Consistent d)
    (heff : ∀ d d', Settles event psp amount d d' → effect d d')
    (hlookup : (∀ d, J d → PspUnique d) ∨ ∀ e l d, R (.error e) l d)
    (hok : ∀ res loaded d, Reported event psp res d → (res.replay = true → J d) →
      (res.replay = false → ∃ l₀ d₀, A .commit d₀ l₀ ∧ Awaited psp d₀) →
      R (.ok res) ⟨loaded, [], [], []⟩ d)
    (herr : ∀ e l d, ¬ LookupError e → J d → R (.error e) l d) :
    Outline (contract J A effect) R (processBankCallback event psp amount ids) .closed d :=
  outline_callback (fun d hd => (hJ d hd).balanced) heff hlookup hok herr

end Program

end PaymentGateway.Outlines.Webhook
