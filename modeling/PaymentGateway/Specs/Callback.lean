import PaymentGateway.Runs.Serial

/-! # What a callback does when it runs alone

The outcome of `process_bank_callback` on a consistent database, as a function of the database. Once
the transaction of the reference and its intent are found, the amount and the two states decide
(`verdict`) whether the callback is refused, is a replay, or is applied; what is applied is written
out in `settled`. `serve_found` and `serve_unknown` say that the program does just this, provided
that the ids it draws are new and the balances stay in range. -/

namespace PaymentGateway.Specs.Callback

open PaymentGateway.Core.Ids PaymentGateway.Models PaymentGateway.Schemas
open PaymentGateway.Lib.Program PaymentGateway.Lib.Sessions PaymentGateway.Lib.DecimalArith
open PaymentGateway.Lib.Tables PaymentGateway.Db.Statements PaymentGateway.Db.Flush
open PaymentGateway.Db.Locking
open PaymentGateway.Services.StateMachine PaymentGateway.Services.Webhook
open PaymentGateway.State.Changes PaymentGateway.State.Invariant PaymentGateway.Outlines.Webhook
open PaymentGateway.Runs.Serial

/-! ### The decision -/

/-- The reference is that of the transaction `t`, whose intent is `i`. -/
structure Found (psp : String) (t : Transaction) (i : PaymentIntent) (d : Db) : Prop where
  txn : t ∈ d.transactions
  psp : t.pspReference = some psp
  intent : i ∈ d.intents
  intentId : i.id = t.intentId

inductive Verdict
  | refused (exc : Exc)
  | replayed
  | applied
  deriving DecidableEq

def verdict (t : Transaction) (i : PaymentIntent) (event : BankCallbackEvent) (amount : Decimal) :
    Verdict :=
  match amountDiffers i amount with
  | .error exc => .refused exc
  | .ok true => .refused (.amountMismatch amount i.amount.toDecimal)
  | .ok false =>
    if t.state = targetTxn event then .replayed
    else
      match assertTransitions t i event with
      | .error exc => .refused exc
      | .ok () => .applied

/-! ### The accounts of a success -/

/-- `x + y`, as far as it fits the column. -/
def addMoney (x y : Money) : Money :=
  if h : (x.units + y.units).natAbs < 10 ^ 18 then ⟨x.units + y.units, h⟩ else x

/-- The account that is opened for the payer, unless there is one. -/
def payerRow (t : Transaction) (ids : CallbackIds) : LedgerAccount :=
  newAccount ids.payerAccountId .virtual t.vpa none

/-- The account that is opened for the merchant, unless there is one. -/
def payeeRow (i : PaymentIntent) (ids : CallbackIds) : LedgerAccount :=
  newAccount ids.merchantAccountId .merchantSettlement (merchantIdentifier i.merchantId)
    (some i.merchantId)

/-- The identifier and the currency of an account. -/
abbrev Key := String × String

/-- The key of the payer's account. -/
def payerKey (t : Transaction) : Key := (t.vpa, defaultCurrency)

/-- The key of a merchant's settlement account. -/
def settlementKey (merchantId : UUID) : Key := (merchantIdentifier merchantId, defaultCurrency)

/-- The key of the account of the merchant that is paid. -/
def payeeKey (i : PaymentIntent) : Key := settlementKey i.merchantId

/-- The account of the key of `row`: the one that is there, or else `row`. -/
def accountOf (row : LedgerAccount) (as : List LedgerAccount) : LedgerAccount :=
  (as.find? (·.key = row.key)).getD row

/-- `row`, unless there is an account of its key. -/
def openedBy (row : LedgerAccount) (as : List LedgerAccount) : List LedgerAccount :=
  if ∃ a ∈ as, a.key = row.key then [] else [row]

def posting (t : Transaction) (i : PaymentIntent) (ids : CallbackIds) (as : List LedgerAccount) :
    Posting where
  payer := accountOf (payerRow t ids) as
  payee := accountOf (payeeRow i ids) as
  payerBalance := addMoney (accountOf (payerRow t ids) as).balance i.amount
  payeeBalance := addMoney (accountOf (payeeRow i ids) as).balance i.amount
  debitId := ids.debitEntryId
  creditId := ids.creditEntryId
  opened := openedBy (payerRow t ids) as ++ openedBy (payeeRow i ids) as

/-- The database after a callback that is applied. -/
def settled (t : Transaction) (i : PaymentIntent) (event : BankCallbackEvent) (ids : CallbackIds)
    (d : Db) : Db :=
  match event with
  | .paymentFailed =>
    { d with
      intents := d.intents.map (withStatus i.id .failed)
      transactions := d.transactions.map (withState t.id .failed) }
  | .paymentSuccess =>
    { d with
      intents := d.intents.map (withStatus i.id .success)
      transactions := d.transactions.map (withState t.id .success)
      accounts := (posting t i ids d.accounts).accounts d
      entries := d.entries ++ (posting t i ids d.accounts).entries t i }

/-- The ids that a callback draws are new. -/
structure Fresh (ids : CallbackIds) (d : Db) : Prop where
  payer : ∀ a ∈ d.accounts, a.id ≠ ids.payerAccountId
  payee : ∀ a ∈ d.accounts, a.id ≠ ids.merchantAccountId
  accounts : ids.payerAccountId ≠ ids.merchantAccountId
  debit : ∀ e ∈ d.entries, e.id ≠ ids.debitEntryId
  credit : ∀ e ∈ d.entries, e.id ≠ ids.creditEntryId
  entries : ids.debitEntryId ≠ ids.creditEntryId

/-- The balances of the payer of `t` and of the merchant of `i` stay in range if the amount of `i`
is added. -/
def InRange (t : Transaction) (i : PaymentIntent) (d : Db) : Prop :=
  ∀ a ∈ d.accounts, IsPayer t a ∨ IsPayee i a →
    (a.balance.units + i.amount.units).natAbs < 10 ^ 18

variable {d : Db} {t : Transaction} {i : PaymentIntent} {ids : CallbackIds} {l : Session}
  {psp : String} {event : BankCallbackEvent} {amount : Decimal} {as : List LedgerAccount}
  {row a : LedgerAccount}

/-! ### The lookup -/

theorem find_psp (hu : PspUnique d) (h : Found psp t i d) :
    d.transactions.filter (·.pspReference = some psp) = [t] :=
  filter_eq_singleton hu h.txn h.psp fun _ _ hc => hc.trans h.psp.symm

theorem find_intent (hd : Consistent d) (h : Found psp t i d) :
    d.intents.filter (·.id = t.intentId) = [i] :=
  filter_eq_singleton hd.keys.intents h.intent h.intentId fun _ _ hc => hc.trans h.intentId.symm

/-- What follows the two lookups. -/
def afterLookup (t : Transaction) (i : PaymentIntent) (event : BankCallbackEvent) (amount : Decimal)
    (ids : CallbackIds) : Sql CallbackResult := do
  let differs ← Prog.ofExcept (amountDiffers i amount)
  if differs then throw (.amountMismatch amount i.amount.toDecimal)
  else if t.state = .success ∧ event = .paymentSuccess then replayed t
  else if t.state = .failed ∧ event = .paymentFailed then replayed t
  else settle t i event amount ids

/-- The session after the two lookups. -/
def lookedUp (t : Transaction) (i : PaymentIntent) : Session :=
  ⟨[i], [.transaction t.id, .intent i.id], [], []⟩

/-- A reference without a transaction is refused. -/
theorem serve_unknown (h : ∀ t ∈ d.transactions, t.pspReference ≠ some psp) :
    database.serve (processBankCallback event psp amount ids) d =
      (.error (.transactionNotFound psp), d) := by
  have hrows : d.transactions.filter (·.pspReference = some psp) = [] :=
    List.filter_eq_nil_iff.mpr fun t ht hc => h t ht (of_decide_eq_true hc)
  have hexec : database.run (execute (.selectTransactionByPsp psp)) d .closed =
      (.ok [], d, .closed) := by
    rw [execute, Machine.run_exec]
    simp [database, exec, hrows, Session.closed]
  unfold Machine.serve processBankCallback
  simp only [show database.closed = Session.closed from rfl]
  rw [Machine.run_bind_ok _ hexec]
  rfl

theorem run_lookup (hd : Consistent d) (hu : PspUnique d) (h : Found psp t i d) :
    database.run (processBankCallback event psp amount ids) d .closed =
      database.run (afterLookup t i event amount ids) d (lookedUp t i) := by
  have htxn : database.run (execute (.selectTransactionByPsp psp)) d .closed =
      (.ok [t], d, ⟨[], [.transaction t.id], [], []⟩) := by
    rw [execute, Machine.run_exec]
    simp [database, exec, find_psp hu h, Session.closed]
  have hintent : database.run (execute (.selectIntentById t.intentId)) d
      ⟨[], [.transaction t.id], [], []⟩ = (.ok [i], d, lookedUp t i) := by
    rw [execute, Machine.run_exec]
    simp [database, exec, find_intent hd h, Session.objects, Session.load, lookedUp]
  unfold processBankCallback
  rw [Machine.run_bind_ok _ htxn]
  change database.run (execute (.selectIntentById t.intentId) >>= _) d _ = _
  rw [Machine.run_bind_ok _ hintent]
  rfl

/-! ### The accounts -/

/-- Accounts of different keys, in the default currency, each a payer's or a merchant's. -/
structure Charted (as : List LedgerAccount) : Prop where
  keys : (as.map (·.key)).Nodup
  currency : ∀ a ∈ as, a.currency = defaultCurrency
  kind : ∀ a ∈ as, Kind a

theorem charted_accounts (hd : Consistent d) : Charted d.accounts :=
  ⟨hd.keys.accountKeys, hd.chart.currency, hd.chart.kind⟩

theorem accountOf_mem (h : ∃ a ∈ as, a.key = row.key) :
    accountOf row as ∈ as ∧ (accountOf row as).key = row.key := by
  unfold accountOf
  cases hf : as.find? (·.key = row.key) with
  | none =>
    obtain ⟨a, ha, hk⟩ := h
    have := List.find?_eq_none.mp hf a ha
    simp [hk] at this
  | some a => exact ⟨List.mem_of_find?_eq_some hf, by simpa using List.find?_some hf⟩

theorem accountOf_new (h : ¬ ∃ a ∈ as, a.key = row.key) : accountOf row as = row := by
  unfold accountOf
  rw [List.find?_eq_none.mpr fun a ha hk => h ⟨a, ha, of_decide_eq_true hk⟩]
  rfl

theorem accountOf_key : (accountOf row as).key = row.key := by
  by_cases h : ∃ a ∈ as, a.key = row.key
  · exact (accountOf_mem h).2
  · rw [accountOf_new h]

/-- It is there, or opened. -/
theorem accountOf_opened (row : LedgerAccount) (as : List LedgerAccount) :
    accountOf row as ∈ as ++ openedBy row as := by
  unfold openedBy
  split_ifs with h
  · exact List.mem_append_left _ (accountOf_mem h).1
  · rw [accountOf_new h]
    exact List.mem_append_right _ (List.mem_singleton_self row)

theorem Charted.opened (h : Charted as) (hc : row.currency = defaultCurrency) (hk : Kind row) :
    Charted (as ++ openedBy row as) := by
  unfold openedBy
  split_ifs with hrow
  · rwa [List.append_nil]
  · refine ⟨nodup_append_key h.keys fun a ha e => hrow ⟨a, ha, e⟩, fun a ha => ?_, fun a ha => ?_⟩
    · rcases List.mem_append.mp ha with ha | ha
      · exact h.currency a ha
      · rw [List.mem_singleton.mp ha]; exact hc
    · rcases List.mem_append.mp ha with ha | ha
      · exact h.kind a ha
      · rw [List.mem_singleton.mp ha]; exact hk

/-- An account of the identifier of `row` has its key and its type. -/
theorem Charted.same (h : Charted as) (hc : row.currency = defaultCurrency) (hk : Kind row)
    (ha : a ∈ as) (hi : a.identifier = row.identifier) :
    a.key = row.key ∧ a.accountType = row.accountType :=
  ⟨Prod.ext hi ((h.currency a ha).trans hc.symm), (h.kind a ha).accountType_eq hk hi⟩

/-- The `SELECT … FOR UPDATE` after the `INSERT` finds the account. -/
theorem Charted.filter (h : Charted as) (hc : row.currency = defaultCurrency) (hk : Kind row) :
    (as ++ openedBy row as).filter (fun a => a.identifier = row.identifier ∧
      a.accountType = row.accountType) = [accountOf row as] := by
  have h' := h.opened hc hk
  have hkey : (accountOf row as).identifier = row.identifier := congrArg Prod.fst accountOf_key
  have hsame := h'.same hc hk (accountOf_opened row as) hkey
  exact filter_eq_singleton h'.keys (accountOf_opened row as) ⟨hkey, hsame.2⟩ fun b hb hcb =>
    (h'.same hc hk hb hcb.1).1.trans accountOf_key.symm

/-- The account of the key of `row` is there, or the id of `row` is new. -/
def Available (row : LedgerAccount) (as : List LedgerAccount) : Prop :=
  (∃ a ∈ as, a.key = row.key) ∨ ∀ a ∈ as, a.id ≠ row.id

/-- The `INSERT` opens the account, if there is none. -/
theorem insertAccount_eq (hlen : row.identifier.length ≤ 128)
    (hid : Available row (d.accounts ++ l.inserted))
    (hm : ∀ m ∈ row.merchantId, ∃ x ∈ d.merchants, x.id = m) :
    insertAccount row d l =
      (.ok (), d, { l with inserted := l.inserted ++ openedBy row (d.accounts ++ l.inserted) }) := by
  unfold insertAccount openedBy
  rw [if_pos hlen]
  split_ifs with hkey hnew
  · rw [List.append_nil]
  · rfl
  · exact absurd ⟨hid.resolve_left hkey, hm⟩ hnew

theorem insertAccount_taken (hlen : row.identifier.length ≤ 128)
    (hid : ¬ Available row (d.accounts ++ l.inserted)) :
    insertAccount row d l = (.error .integrityError, d, l) := by
  unfold insertAccount
  rw [if_pos hlen, if_neg fun hkey => hid (.inl hkey), if_neg fun hnew => hid (.inr hnew.1)]

theorem insertAccount_long (row : LedgerAccount) (hlen : 128 < row.identifier.length) :
    insertAccount row d l = (.error .dataError, d, l) := if_neg (Nat.not_le.mpr hlen)

/-- **`_ensure_account_locked`** ends with the account of its key. -/
theorem run_ensureAccountLocked {accountType : AccountType} {identifier : String}
    (merchantId : Option UUID) {id : UUID} (h : Charted (d.accounts ++ l.inserted))
    (hrow : row = newAccount id accountType identifier
      (if accountType = .merchantSettlement then merchantId else none)) (hk : Kind row)
    (hlen : row.identifier.length ≤ 128) (hid : Available row (d.accounts ++ l.inserted))
    (hm : ∀ m ∈ row.merchantId, ∃ x ∈ d.merchants, x.id = m) :
    ∃ l', database.run (ensureAccountLocked accountType identifier merchantId id) d l =
        (.ok (accountOf row (d.accounts ++ l.inserted)), d, l') ∧
      l'.inserted = l.inserted ++ openedBy row (d.accounts ++ l.inserted) ∧
      l'.pending = l.pending := by
  obtain ⟨l₁, hins, hinserted, hpending⟩ : ∃ l₁, insertAccount row d l = (.ok (), d, l₁) ∧
      l₁.inserted = l.inserted ++ openedBy row (d.accounts ++ l.inserted) ∧
      l₁.pending = l.pending := ⟨_, insertAccount_eq hlen hid hm, rfl, rfl⟩
  have hc : row.currency = defaultCurrency := by rw [hrow]; rfl
  have hident : row.identifier = identifier := by rw [hrow]; rfl
  have htype : row.accountType = accountType := by rw [hrow]; rfl
  have hrows := h.filter hc hk
  rw [List.append_assoc, ← hinserted, hident, htype] at hrows
  have hinsert : database.run (execute (.insertAccount id accountType identifier
      (if accountType = .merchantSettlement then merchantId else none))) d l = (.ok (), d, l₁) := by
    rw [execute, Machine.run_exec]
    change insertAccount (newAccount id accountType identifier _) d l = _
    rw [← hrow, hins]
  have hselect : database.run (execute (.selectAccount identifier accountType)) d l₁ =
      (.ok [accountOf row (d.accounts ++ l.inserted)], d, ⟨l₁.loaded, l₁.locks ++
        [.account (accountOf row (d.accounts ++ l.inserted)).id], l₁.inserted, l₁.pending⟩) := by
    rw [execute, Machine.run_exec]
    simp only [database, exec, hrows, List.map_cons, List.map_nil]
  refine ⟨⟨l₁.loaded, l₁.locks ++ [.account (accountOf row (d.accounts ++ l.inserted)).id],
    l₁.inserted, l₁.pending⟩, ?_, hinserted, hpending⟩
  unfold ensureAccountLocked
  rw [Machine.run_bind_ok _ hinsert, Machine.run_bind_ok _ hselect]
  rfl

/-! ### The two accounts of a payment -/

theorem kind_payerRow (ids : CallbackIds) (hd : Consistent d) (ht : t ∈ d.transactions) :
    Kind (payerRow t ids) :=
  .inl ⟨rfl, hd.chart.vpa t ht⟩

theorem kind_payeeRow (i : PaymentIntent) (ids : CallbackIds) : Kind (payeeRow i ids) :=
  .inr ⟨rfl, _, rfl⟩

/-- No account is a payer's and a merchant's. -/
theorem payerKey_ne_settlementKey (merchantId : UUID) (hd : Consistent d)
    (ht : t ∈ d.transactions) : payerKey t ≠ settlementKey merchantId := fun e => by
  have hvpa : t.vpa = merchantIdentifier merchantId := congrArg Prod.fst e
  exact at_notMem_merchantIdentifier merchantId (hvpa ▸ hd.chart.vpa t ht)

theorem payerKey_ne_payeeKey (hd : Consistent d) (ht : t ∈ d.transactions) :
    payerKey t ≠ payeeKey i := payerKey_ne_settlementKey i.merchantId hd ht

/-- Opening the account of another key changes nothing. -/
theorem accountOf_append {bs : List LedgerAccount} (h : ∀ a ∈ bs, a.key ≠ row.key) :
    accountOf row (as ++ bs) = accountOf row as ∧ openedBy row (as ++ bs) = openedBy row as := by
  have hnone : bs.find? (·.key = row.key) = none :=
    List.find?_eq_none.mpr fun a ha hk => h a ha (of_decide_eq_true hk)
  refine ⟨?_, ?_⟩
  · unfold accountOf
    rw [List.find?_append, hnone, Option.or_none]
  · have hex : (∃ a ∈ as ++ bs, a.key = row.key) ↔ ∃ a ∈ as, a.key = row.key :=
      ⟨fun ⟨a, ha, hk⟩ => ⟨a, (List.mem_append.mp ha).resolve_right fun hb => h a hb hk, hk⟩,
        fun ⟨a, ha, hk⟩ => ⟨a, List.mem_append_left _ ha, hk⟩⟩
    unfold openedBy
    simp only [hex]

theorem openedBy_key (ha : a ∈ openedBy row as) : a = row := by
  unfold openedBy at ha
  split_ifs at ha
  · cases ha
  · exact List.mem_singleton.mp ha

theorem payee_append (i : PaymentIntent) (ids : CallbackIds) (hd : Consistent d)
    (ht : t ∈ d.transactions) :
    accountOf (payeeRow i ids) (d.accounts ++ openedBy (payerRow t ids) d.accounts) =
        accountOf (payeeRow i ids) d.accounts ∧
      openedBy (payeeRow i ids) (d.accounts ++ openedBy (payerRow t ids) d.accounts) =
        openedBy (payeeRow i ids) d.accounts :=
  accountOf_append fun a ha => by
    rw [openedBy_key ha]
    exact payerKey_ne_payeeKey hd ht

/-- The two accounts are there, or opened. -/
theorem mem_posting (i : PaymentIntent) (ids : CallbackIds) (hd : Consistent d)
    (ht : t ∈ d.transactions) :
    (posting t i ids d.accounts).payer ∈ d.accounts ++ (posting t i ids d.accounts).opened ∧
      (posting t i ids d.accounts).payee ∈ d.accounts ++ (posting t i ids d.accounts).opened := by
  refine ⟨?_, ?_⟩
  · rw [posting, ← List.append_assoc]
    exact List.mem_append_left _ (accountOf_opened _ _)
  · have := accountOf_opened (payeeRow i ids) (d.accounts ++ openedBy (payerRow t ids) d.accounts)
    rw [(payee_append i ids hd ht).1, (payee_append i ids hd ht).2, List.append_assoc] at this
    exact this

/-- The new balance is in range. -/
theorem fits_accountOf (h : ∀ a ∈ as, a.key = row.key →
      (a.balance.units + i.amount.units).natAbs < 10 ^ 18) (h0 : row.balance.units = 0) :
    ((accountOf row as).balance.units + i.amount.units).natAbs < 10 ^ 18 := by
  by_cases hr : ∃ a ∈ as, a.key = row.key
  · exact h _ (accountOf_mem hr).1 (accountOf_mem hr).2
  · rw [accountOf_new hr, h0, zero_add]
    exact i.amount.fits

theorem addMoney_units {x y : Money} (h : (x.units + y.units).natAbs < 10 ^ 18) :
    (addMoney x y).units = x.units + y.units := by
  unfold addMoney
  rw [dif_pos h]

/-- The units of a sum of two columns need fewer digits than the context has. -/
theorem sum_fits (x y : Money) : (x.units + y.units).natAbs < 10 ^ 28 := by
  have hx := x.fits
  have hy := y.fits
  have hsum := Int.natAbs_add_le x.units y.units
  omega

/-- `r` is the exact sum of `x` and `y`, in or out of range. -/
def IsSum (r : Decimal) (x y : Money) : Prop :=
  r.value? = some (((x.units + y.units : ℤ) : ℚ) * 10 ^ (-(4 : ℕ) : ℤ))

theorem addBalance_ok (a : LedgerAccount) (hamount : amountDiffers i amount = .ok false) :
    ∃ r, addBalance a amount = .ok r ∧ IsSum r a.balance i.amount := by
  obtain ⟨r, hr, hv⟩ :=
    Numeric.add_exact (eq_of_not_differs hamount) (sum_fits a.balance i.amount)
  refine ⟨r, ?_, hv⟩
  unfold addBalance
  rw [hr]
  rfl

/-- It is what is stored. -/
theorem IsSum.stored {r : Decimal} {x y : Money} (hv : IsSum r x y)
    (h : (x.units + y.units).natAbs < 10 ^ 18) : Numeric.ofDecimal 18 4 r = some (addMoney x y) :=
  (Numeric.ofDecimal_eq_some hv).mpr (addMoney_units h)

theorem ofDecimal_amount (hamount : amountDiffers i amount = .ok false) :
    Numeric.ofDecimal 18 4 amount = some i.amount :=
  (Numeric.ofDecimal_eq_some
    (eq_some_value i.amount.value_toDecimal (eq_of_not_differs hamount))).mpr rfl

/-! ### The flush -/

theorem flush_failed_eq (ids : CallbackIds) (ht : t ∈ d.transactions) (hi : i ∈ d.intents)
    (hinserted : l.inserted = [])
    (hpending : l.pending = [.setTransactionState t.id .failed, .setIntentStatus i.id .failed]) :
    l.flush d = .ok (settled t i .paymentFailed ids d) := by
  unfold Session.flush
  rw [hpending, hinserted, List.append_nil]
  refine Eq.trans (foldlM_apply (setTransactionState_eq ⟨t, ht, rfl⟩)) ?_
  exact Eq.trans (foldlM_apply (setIntentStatus_eq ⟨i, hi, rfl⟩)) rfl

theorem flush_succeeded_eq (hd : Consistent d) (h : Found psp t i d) (hids : Fresh ids d)
    (hamount : amountDiffers i amount = .ok false) {payerBalance payeeBalance : Decimal}
    (hpayer : Numeric.ofDecimal 18 4 payerBalance = some (posting t i ids d.accounts).payerBalance)
    (hpayee : Numeric.ofDecimal 18 4 payeeBalance = some (posting t i ids d.accounts).payeeBalance)
    (hinserted : l.inserted = (posting t i ids d.accounts).opened)
    (hpending : l.pending = .setTransactionState t.id .success ::
      .setIntentStatus i.id .success :: postings t amount ids (posting t i ids d.accounts).payer
        (posting t i ids d.accounts).payee payerBalance payeeBalance) :
    l.flush d = .ok (settled t i .paymentSuccess ids d) := by
  have hmoney := ofDecimal_amount hamount
  obtain ⟨hpayerMem, hpayeeMem⟩ := mem_posting i ids hd h.txn
  have hdebit : (posting t i ids d.accounts).debitId = ids.debitEntryId := rfl
  have hcredit : (posting t i ids d.accounts).creditId = ids.creditEntryId := rfl
  unfold settled
  generalize posting t i ids d.accounts = p at *
  have hback : ∀ a ∈ d.accounts ++ p.opened, ∃ b ∈ p.accounts d, b.id = a.id := fun a ha =>
    ⟨_, Posting.mem_accounts.mpr ⟨a, ha, rfl⟩, by simp⟩
  have htxn : ∃ u ∈ d.transactions.map (withState t.id .success), u.id = t.id :=
    ⟨_, List.mem_map_of_mem h.txn, withState_id⟩
  unfold Session.flush postings at *
  rw [hpending, hinserted]
  refine Eq.trans (foldlM_apply (setTransactionState_eq ⟨t, h.txn, rfl⟩)) ?_
  refine Eq.trans (foldlM_apply (setIntentStatus_eq ⟨i, h.intent, rfl⟩)) ?_
  refine Eq.trans (foldlM_apply (setBalance_eq hpayer ⟨_, hpayerMem, rfl⟩)) ?_
  refine Eq.trans (foldlM_apply
    (setBalance_eq hpayee ⟨_, List.mem_map_of_mem hpayeeMem, withBalance_id⟩)) ?_
  refine Eq.trans (foldlM_apply
    (addEntry_eq hmoney (by decide) (hback _ hpayerMem) htxn hids.debit)) ?_
  refine Eq.trans (foldlM_apply
    (addEntry_eq hmoney (by decide) (hback _ hpayeeMem) htxn fun e he => ?_)) ?_
  rotate_left
  · simp only [Posting.entries, Posting.accounts, hdebit, hcredit, List.append_assoc]
    rfl
  · rcases List.mem_append.mp he with he | he
    · exact hids.credit e he
    · rw [List.mem_singleton.mp he]
      exact hids.entries

/-- A balance beyond the range is refused, and with it everything else that was staged. -/
theorem flush_overflow {payer payee : LedgerAccount} {payerBalance payeeBalance : Decimal}
    (ht : t ∈ d.transactions) (hi : i ∈ d.intents) (hmem : payer ∈ d.accounts ++ l.inserted)
    (hover : Numeric.ofDecimal 18 4 payerBalance = none ∨
      Numeric.ofDecimal 18 4 payeeBalance = none)
    (hpending : l.pending = .setTransactionState t.id .success ::
      .setIntentStatus i.id .success :: postings t amount ids payer payee payerBalance
        payeeBalance) :
    l.flush d = .error .dataError := by
  unfold Session.flush postings at *
  rw [hpending]
  refine Eq.trans (foldlM_apply (setTransactionState_eq ⟨t, ht, rfl⟩)) ?_
  refine Eq.trans (foldlM_apply (setIntentStatus_eq ⟨i, hi, rfl⟩)) ?_
  cases hp : Numeric.ofDecimal 18 4 payerBalance with
  | none => exact foldlM_apply_error (setBalance_none hp)
  | some money =>
    have hq := hover.resolve_left fun hnone => (by rw [hp] at hnone; cases hnone)
    refine Eq.trans (foldlM_apply (setBalance_eq hp ⟨payer, hmem, rfl⟩)) ?_
    exact foldlM_apply_error (setBalance_none hq)

/-! ### The program -/

theorem run_stage (w : Write) (d : Db) (l : Session) : database.run (execute (.stage w)) d l =
    (.ok (), d, ⟨l.assign w, l.locks, l.inserted, l.pending ++ [w]⟩) := rfl

theorem run_value {α : Type} (x : α) (d : Db) (l : Session) :
    database.run (Prog.ofExcept (.ok x) : Sql α) d l = (.ok x, d, l) := rfl

theorem run_done {α : Type} (x : α) (d : Db) (l : Session) :
    database.run (pure x : Sql α) d l = (.ok x, d, l) := rfl

theorem run_commit {d' : Db} (h : l.flush d = .ok d') : database.run (execute .commit) d l =
    (.ok (), d', ⟨l.loaded, [], [], []⟩) := by
  rw [execute, Machine.run_exec]
  simp only [database, exec, h]

theorem run_commit_error {exc : Exc} (h : l.flush d = .error exc) :
    database.run (execute .commit) d l = (.error exc, d, .closed) := by
  rw [execute, Machine.run_exec]
  simp only [database, exec, h]

theorem payer_inRange (ids : CallbackIds) (hd : Consistent d) (ht : t ∈ d.transactions)
    (h : InRange t i d) :
    ((accountOf (payerRow t ids) d.accounts).balance.units + i.amount.units).natAbs < 10 ^ 18 := by
  refine fits_accountOf (fun a ha hk => h a ha (.inl ?_)) rfl
  have hident : a.identifier = t.vpa := congrArg Prod.fst hk
  exact ⟨((charted_accounts hd).same rfl (kind_payerRow ids hd ht) ha
    hident).2, hident⟩

theorem payee_inRange (ids : CallbackIds) (hd : Consistent d) (h : InRange t i d) :
    ((accountOf (payeeRow i ids) d.accounts).balance.units + i.amount.units).natAbs < 10 ^ 18 := by
  refine fits_accountOf (fun a ha hk => h a ha (.inr ?_)) rfl
  have hident : a.identifier = merchantIdentifier i.merchantId := congrArg Prod.fst hk
  exact ⟨((charted_accounts hd).same rfl (kind_payeeRow i ids) ha hident).2, hident⟩

/-- A balance that would leave the range is the payer's or the merchant's of the posting. -/
theorem overflow_of_not_inRange (ids : CallbackIds) (hd : Consistent d) (hr : ¬ InRange t i d) :
    10 ^ 18 ≤ ((posting t i ids d.accounts).payer.balance.units + i.amount.units).natAbs ∨
      10 ^ 18 ≤ ((posting t i ids d.accounts).payee.balance.units + i.amount.units).natAbs := by
  unfold InRange at hr
  push Not at hr
  obtain ⟨a, ha, hof, hover⟩ := hr
  have hfound : ∀ row : LedgerAccount, row.currency = defaultCurrency →
      a.identifier = row.identifier → accountOf row d.accounts = a := fun row hc hident => by
    have hk : a.key = row.key := Prod.ext hident ((hd.chart.currency a ha).trans hc.symm)
    unfold accountOf
    rw [← hk, find_key hd.keys.accountKeys ha]
    rfl
  refine hof.imp (fun hp => ?_) fun hq => ?_
  · rw [show (posting t i ids d.accounts).payer = a from hfound _ rfl hp.2]
    exact hover
  · rw [show (posting t i ids d.accounts).payee = a from hfound _ rfl hq.2]
    exact hover

/-- A vpa longer than the column cannot be posted. -/
theorem run_postLedger_long (hlen : 128 < t.vpa.length) :
    database.run (postLedger t i amount ids) d l = (.error .dataError, d, l) := by
  have hins : database.run (execute (.insertAccount ids.payerAccountId .virtual t.vpa none)) d l =
      (.error .dataError, d, l) := by
    rw [execute, Machine.run_exec]
    exact insertAccount_long (payerRow t ids) hlen
  unfold postLedger
  exact Machine.run_bind_error _ (Machine.run_bind_error _ hins)

/-- What is staged for the two accounts. -/
theorem run_postLedger (hd : Consistent d) (h : Found psp t i d) (hids : Fresh ids d)
    (ho : ∃ m ∈ d.merchants, m.id = i.merchantId)
    (hamount : amountDiffers i amount = .ok false) (hlen : t.vpa.length ≤ 128)
    (hl : l.inserted = []) :
    ∃ l' payerBalance payeeBalance, database.run (postLedger t i amount ids) d l = (.ok (), d, l') ∧
      IsSum payerBalance (posting t i ids d.accounts).payer.balance i.amount ∧
      IsSum payeeBalance (posting t i ids d.accounts).payee.balance i.amount ∧
      l'.inserted = (posting t i ids d.accounts).opened ∧
      l'.pending = l.pending ++ postings t amount ids (posting t i ids d.accounts).payer
        (posting t i ids d.accounts).payee payerBalance payeeBalance := by
  have hc := charted_accounts hd
  have hk := kind_payerRow ids hd h.txn
  -- the two accounts, one after the other
  obtain ⟨l₁, hpayer, hins₁, hpend₁⟩ := run_ensureAccountLocked (l := l) none
    (by rw [hl, List.append_nil]; exact hc) (rfl : payerRow t ids = newAccount _ .virtual _ _) hk
    hlen (.inr (by rw [hl, List.append_nil]; exact hids.payer)) (fun m hm => by cases hm)
  rw [hl, List.append_nil] at hpayer hins₁
  rw [List.nil_append] at hins₁
  obtain ⟨happ, happ'⟩ := payee_append i ids hd h.txn
  have hnew : ∀ a ∈ d.accounts ++ l₁.inserted, a.id ≠ (payeeRow i ids).id := fun a ha => by
    rw [hins₁] at ha
    rcases List.mem_append.mp ha with ha | ha
    · exact hids.payee a ha
    · rw [openedBy_key ha]; exact hids.accounts
  obtain ⟨l₂, hpayee, hins₂, hpend₂⟩ := run_ensureAccountLocked (l := l₁)
    (some i.merchantId) (by rw [hins₁]; exact hc.opened rfl hk)
    (rfl : payeeRow i ids = newAccount _ .merchantSettlement _ _) (kind_payeeRow i ids)
    (length_merchantIdentifier _) (.inr hnew) (fun m hm => by cases hm; exact ho)
  rw [hins₁, happ] at hpayee
  rw [hins₁, happ'] at hins₂
  -- the two sums, and what is staged
  obtain ⟨pb, haddPayer, hpb⟩ := addBalance_ok (accountOf (payerRow t ids) d.accounts) hamount
  obtain ⟨qb, haddPayee, hqb⟩ := addBalance_ok (accountOf (payeeRow i ids) d.accounts) hamount
  have hrun : ∃ l', database.run (postLedger t i amount ids) d l = (.ok (), d, l') ∧
      l'.inserted = l₂.inserted ∧ l'.pending = l₂.pending ++ postings t amount ids
        (posting t i ids d.accounts).payer (posting t i ids d.accounts).payee pb qb := by
    unfold postLedger
    rw [Machine.run_bind_ok _ hpayer, Machine.run_bind_ok _ hpayee, haddPayer, haddPayee]
    rw [Machine.run_bind_ok _ (run_value pb d _), Machine.run_bind_ok _ (run_stage _ d _),
      Machine.run_bind_ok _ (run_value qb d _), Machine.run_bind_ok _ (run_stage _ d _),
      Machine.run_bind_ok _ (run_stage _ d _), run_stage]
    refine ⟨_, rfl, rfl, ?_⟩
    simp only [postings, List.append_assoc]
    rfl
  obtain ⟨l', hrun, hins', hpend'⟩ := hrun
  refine ⟨l', pb, qb, hrun, hpb, hqb, hins'.trans hins₂, ?_⟩
  rw [hpend', hpend₂, hpend₁]

/-- A replay commits nothing. -/
theorem run_replayed : database.run (replayed t) d (lookedUp t i) =
    (.ok (replayedResult t), d, ⟨[i], [], [], []⟩) := by
  have hflush : (lookedUp t i).flush d = .ok d := by
    unfold Session.flush
    rw [show (lookedUp t i).inserted = [] from rfl, List.append_nil]
    rfl
  unfold replayed
  rw [Machine.run_bind_ok _ (run_commit hflush)]
  rfl

/-- What is left of the program once both guards have let the callback through. -/
def afterGuards (t : Transaction) (i : PaymentIntent) (event : BankCallbackEvent)
    (amount : Decimal) (ids : CallbackIds) : Sql CallbackResult := do
  (if event = .paymentSuccess then postLedger t i amount ids else pure ())
  execute .commit
  return settledResult t i event

theorem run_settle_eq (amount : Decimal) (ids : CallbackIds)
    (hs : assertTransitions t i event = .ok ()) : ∃ l,
    database.run (settle t i event amount ids) d (lookedUp t i) =
      database.run (afterGuards t i event amount ids) d l ∧ l.inserted = [] ∧
    l.pending = [.setTransactionState t.id (targetTxn event),
      .setIntentStatus i.id (targetIntent event)] := by
  unfold settle
  rw [hs]
  dsimp only
  rw [Machine.run_bind_ok _ (run_stage _ d _), Machine.run_bind_ok _ (run_stage _ d _)]
  exact ⟨_, rfl, rfl, rfl⟩

/-- The run of a callback that both guards let through. -/
theorem run_settle (hd : Consistent d) (h : Found psp t i d)
    (hnew : event = .paymentSuccess → t.vpa.length ≤ 128 → Fresh ids d ∧ InRange t i d)
    (ho : ∃ m ∈ d.merchants, m.id = i.merchantId)
    (hamount : amountDiffers i amount = .ok false) (hs : assertTransitions t i event = .ok ()) :
    ∃ l, database.run (settle t i event amount ids) d (lookedUp t i) =
      if event = .paymentSuccess ∧ 128 < t.vpa.length then (.error .dataError, d, l)
      else (.ok (settledResult t i event), settled t i event ids d, l) := by
  obtain ⟨l, hl, hinserted, hpending⟩ :=
    run_settle_eq (d := d) amount ids hs
  rw [hl]
  unfold afterGuards
  cases event with
  | paymentFailed =>
    have hflush := flush_failed_eq ids h.txn h.intent hinserted hpending
    refine ⟨⟨l.loaded, [], [], []⟩, ?_⟩
    rw [if_neg (show ¬ BankCallbackEvent.paymentFailed = .paymentSuccess by decide),
      Machine.run_bind_ok _ (run_done () d l), Machine.run_bind_ok _ (run_commit hflush)]
    rfl
  | paymentSuccess =>
    rw [if_pos rfl]
    by_cases hlen : 128 < t.vpa.length
    · refine ⟨l, ?_⟩
      rw [Machine.run_bind_error _ (run_postLedger_long hlen), if_pos ⟨rfl, hlen⟩]
    · obtain ⟨hids, hr⟩ := hnew rfl (Nat.not_lt.mp hlen)
      obtain ⟨l', pb, qb, hrun, hpb, hqb, hins', hpend'⟩ :=
        run_postLedger hd h hids ho hamount (Nat.not_lt.mp hlen) hinserted
      rw [hpending] at hpend'
      have hflush := flush_succeeded_eq hd h hids hamount
        (hpb.stored (payer_inRange ids hd h.txn hr)) (hqb.stored (payee_inRange ids hd hr))
        hins' hpend'
      refine ⟨⟨l'.loaded, [], [], []⟩, ?_⟩
      rw [Machine.run_bind_ok _ hrun, Machine.run_bind_ok _ (run_commit hflush),
        if_neg fun hc => hlen hc.2]
      rfl

/-- The run of a success that a balance cannot take. -/
theorem run_settle_overflow (hd : Consistent d) (h : Found psp t i d) (hids : Fresh ids d)
    (hr : ¬ InRange t i d) (ho : ∃ m ∈ d.merchants, m.id = i.merchantId)
    (hamount : amountDiffers i amount = .ok false)
    (hs : assertTransitions t i .paymentSuccess = .ok ()) (hlen : t.vpa.length ≤ 128) :
    database.run (settle t i .paymentSuccess amount ids) d (lookedUp t i) =
      (.error .dataError, d, .closed) := by
  obtain ⟨l, hl, hinserted, hpending⟩ := run_settle_eq (d := d) amount ids hs
  obtain ⟨l', pb, qb, hrun, hpb, hqb, hins', hpend'⟩ :=
    run_postLedger hd h hids ho hamount hlen hinserted
  rw [hpending] at hpend'
  have hflush : l'.flush d = .error .dataError := by
    refine flush_overflow h.txn h.intent ?_ ?_ hpend'
    · rw [hins']
      exact (mem_posting i ids hd h.txn).1
    · exact (overflow_of_not_inRange ids hd hr).imp (Numeric.ofDecimal_eq_none hpb).mpr
        (Numeric.ofDecimal_eq_none hqb).mpr
  rw [hl]
  unfold afterGuards
  rw [if_pos rfl, Machine.run_bind_ok _ hrun]
  exact Machine.run_bind_error _ (run_commit_error hflush)

/-- What the callback answers, and the database it leaves. -/
def outcome (t : Transaction) (i : PaymentIntent) (event : BankCallbackEvent) (amount : Decimal)
    (ids : CallbackIds) (d : Db) : Except Exc CallbackResult × Db :=
  match verdict t i event amount with
  | .refused exc => (.error exc, d)
  | .replayed => (.ok (replayedResult t), d)
  | .applied =>
    if event = .paymentSuccess ∧ 128 < t.vpa.length then (.error .dataError, d)
    else (.ok (settledResult t i event), settled t i event ids d)

/-- **`process_bank_callback` alone**, when it finds the transaction of its reference. The ids it
draws and the balances matter only if a success is posted. -/
theorem serve_found (hd : Consistent d) (hu : PspUnique d) (h : Found psp t i d)
    (ho : ∃ m ∈ d.merchants, m.id = i.merchantId)
    (happ : verdict t i event amount = .applied → event = .paymentSuccess → t.vpa.length ≤ 128 →
      Fresh ids d ∧ InRange t i d) :
    database.serve (processBankCallback event psp amount ids) d =
      outcome t i event amount ids d := by
  unfold Machine.serve
  rw [show database.closed = Session.closed from rfl, run_lookup hd hu h]
  unfold verdict at happ
  unfold afterLookup outcome verdict
  cases hamount : amountDiffers i amount with
  | error exc => rfl
  | ok differs =>
    rw [Machine.run_bind_ok _ (run_value differs d _)]
    cases differs with
    | true => rfl
    | false =>
      rw [hamount] at happ
      rw [if_neg Bool.false_ne_true]
      dsimp only at happ ⊢
      by_cases hstate : t.state = targetTxn event
      · rw [if_pos hstate]
        cases event with
        | paymentSuccess => rw [if_pos ⟨hstate, rfl⟩, run_replayed]
        | paymentFailed =>
          have hne : ¬ (t.state = .success ∧ BankCallbackEvent.paymentFailed = .paymentSuccess) :=
            by simp
          rw [if_neg hne, if_pos ⟨hstate, rfl⟩, run_replayed]
      · rw [if_neg hstate, if_neg fun hc => hstate (by rw [hc.1, hc.2]; rfl),
          if_neg fun hc => hstate (by rw [hc.1, hc.2]; rfl)]
        rw [if_neg hstate] at happ
        cases hs : assertTransitions t i event with
        | error exc =>
          unfold settle
          rw [hs]
          rfl
        | ok =>
          rw [hs] at happ
          obtain ⟨l, hl⟩ := run_settle hd h (happ rfl) ho hamount hs
          rw [hl]
          split_ifs <;> rfl

/-! ### The verdict -/

/-- The amount of the callback is that of the intent. -/
def HasAmount (i : PaymentIntent) (amount : Decimal) : Prop :=
  amount.value? = i.amount.toDecimal.value?

instance : Decidable (HasAmount i amount) := inferInstanceAs (Decidable (_ = _))

/-- How the code compares the two. -/
theorem amountDiffers_eq : amountDiffers i amount =
    if amount = .snan then .error .invalidOperation else .ok (! decide (HasAmount i amount)) := by
  unfold amountDiffers HasAmount Numeric.toDecimal
  rw [ne_finite]
  split_ifs <;> rfl

theorem verdict_snan : verdict t i event .snan = .refused .invalidOperation := by
  unfold verdict
  rw [amountDiffers_eq, if_pos rfl]

theorem verdict_differs (hs : amount ≠ .snan) (ha : ¬ HasAmount i amount) :
    verdict t i event amount = .refused (.amountMismatch amount i.amount.toDecimal) := by
  unfold verdict
  rw [amountDiffers_eq, if_neg hs, decide_eq_false ha]
  rfl

theorem amountDiffers_iff : amountDiffers i amount = .ok false ↔ HasAmount i amount := by
  rw [amountDiffers_eq]
  by_cases hs : amount = .snan
  · rw [if_pos hs, hs]
    unfold HasAmount
    rw [i.amount.value_toDecimal]
    exact ⟨fun h => (by cases h), fun h => (by cases h)⟩
  · rw [if_neg hs, Except.ok.injEq, Bool.not_eq_false', decide_eq_true_iff]

theorem HasAmount.ne_snan (ha : HasAmount i amount) : amount ≠ .snan := by
  rintro rfl
  unfold HasAmount at ha
  rw [i.amount.value_toDecimal] at ha
  cases ha

theorem verdict_replayed (ha : HasAmount i amount) (ht : t.state = targetTxn event) :
    verdict t i event amount = .replayed := by
  unfold verdict
  rw [amountDiffers_iff.mpr ha]
  exact if_pos ht

/-- A transaction that is final does not take the other event. -/
theorem verdict_final (ha : HasAmount i amount) {first : BankCallbackEvent}
    (ht : t.state = targetTxn first) (hne : event ≠ first) : verdict t i event amount =
      .refused (.invalidStateTransition ("Illegal transaction transition " ++
        (targetTxn first).value ++ " -> " ++ (targetTxn event).value)) := by
  unfold verdict assertTransitions
  rw [amountDiffers_iff.mpr ha, ht]
  cases event <;> cases first
  · exact absurd rfl hne
  · rfl
  · rfl
  · exact absurd rfl hne

/-- A transaction that is pending, with its intent in process, takes the callback. -/
theorem verdict_applied (ha : amountDiffers i amount = .ok false) (ht : t.state = .pending)
    (hi : i.status = .processing) : verdict t i event amount = .applied := by
  unfold verdict assertTransitions
  rw [ha, ht, hi]
  cases event <;> rfl

/-! ### From a reachable state -/

theorem serve_reachable (hd : Reachable d) (h : Found psp t i d)
    (happ : verdict t i event amount = .applied → event = .paymentSuccess → t.vpa.length ≤ 128 →
      Fresh ids d ∧ InRange t i d) :
    database.serve (processBankCallback event psp amount ids) d =
      outcome t i event amount ids d :=
  serve_found hd.consistent hd.pspUnique h (hd.owned i h.intent) happ

theorem serve_refused (hd : Reachable d) (h : Found psp t i d) {exc : Exc}
    (hv : verdict t i event amount = .refused exc) :
    database.serve (processBankCallback event psp amount ids) d = (.error exc, d) := by
  rw [serve_reachable hd h fun hc => by rw [hv] at hc; cases hc]
  unfold outcome
  rw [hv]

theorem serve_replayed (hd : Reachable d) (h : Found psp t i d)
    (hv : verdict t i event amount = .replayed) :
    database.serve (processBankCallback event psp amount ids) d = (.ok (replayedResult t), d) := by
  rw [serve_reachable hd h fun hc => by rw [hv] at hc; cases hc]
  unfold outcome
  rw [hv]

/-- The intent of a pending transaction is in process. -/
theorem Found.processing (h : Found psp t i d) (hd : Consistent d) (ht : t.state = .pending) :
    i.status = .processing := by
  rcases hd.coupled.pair t h.txn i h.intent h.intentId with hc | hc | hc
  · exact hc.1
  · rw [ht] at hc; cases hc.2
  · rw [ht] at hc; cases hc.2

/-- A transaction that is not pending has taken an event. -/
theorem Found.finished (h : Found psp t i d) (hd : Consistent d) (ht : t.state ≠ .pending) :
    ∃ first, t.state = targetTxn first := by
  rcases hd.coupled.pair t h.txn i h.intent h.intentId with hc | hc | hc
  · exact absurd hc.2 ht
  · exact ⟨.paymentSuccess, hc.2⟩
  · exact ⟨.paymentFailed, hc.2⟩

/-- A pending payment takes the callback with its amount, unless it succeeds with a long vpa. -/
theorem serve_pending (event : BankCallbackEvent) (hd : Reachable d) (h : Found psp t i d)
    (hids : Fresh ids d) (hr : InRange t i d) (ha : amountDiffers i amount = .ok false)
    (ht : t.state = .pending) :
    database.serve (processBankCallback event psp amount ids) d =
      if event = .paymentSuccess ∧ 128 < t.vpa.length then (.error .dataError, d)
      else (.ok (settledResult t i event), settled t i event ids d) := by
  rw [serve_reachable hd h fun _ _ _ => ⟨hids, hr⟩]
  unfold outcome
  rw [verdict_applied ha ht (h.processing hd.consistent ht)]

/-- Its success is refused if a balance would leave the range. -/
theorem serve_overflow (hd : Reachable d) (h : Found psp t i d) (hids : Fresh ids d)
    (hr : ¬ InRange t i d) (ha : amountDiffers i amount = .ok false) (ht : t.state = .pending)
    (hlen : t.vpa.length ≤ 128) :
    database.serve (processBankCallback .paymentSuccess psp amount ids) d =
      (.error .dataError, d) := by
  have hs : assertTransitions t i .paymentSuccess = .ok () := by
    unfold assertTransitions
    rw [ht, h.processing hd.consistent ht]
    rfl
  have hsettle := run_settle_overflow hd.consistent h hids hr (hd.owned i h.intent) ha hs hlen
  unfold Machine.serve
  rw [show database.closed = Session.closed from rfl, run_lookup hd.consistent hd.pspUnique h]
  unfold afterLookup
  rw [ha, Machine.run_bind_ok _ (run_value false d _), if_neg Bool.false_ne_true, ht,
    if_neg (by simp), if_neg (by simp), hsettle]

/-- The callback finds the same payment, once it is applied, in the state of the event. -/
theorem found_settled (h : Found psp t i d) (event : BankCallbackEvent) (ids : CallbackIds) :
    Found psp { t with state := targetTxn event } { i with status := targetIntent event }
      (settled t i event ids d) := by
  have ht : { t with state := targetTxn event } ∈
      d.transactions.map (withState t.id (targetTxn event)) :=
    List.mem_map.mpr ⟨t, h.txn, withState_self⟩
  have hi : { i with status := targetIntent event } ∈
      d.intents.map (withStatus i.id (targetIntent event)) :=
    List.mem_map.mpr ⟨i, h.intent, withStatus_self⟩
  cases event with
  | paymentFailed => exact ⟨ht, h.psp, hi, h.intentId⟩
  | paymentSuccess => exact ⟨ht, h.psp, hi, h.intentId⟩

/-! ### Callbacks in a row -/

/-- A call of `process_bank_callback`, with what it draws at random. -/
structure BankCallback where
  event : BankCallbackEvent
  pspReference : String
  amount : Decimal
  ids : CallbackIds

/-- How the call ends, and the database after it. -/
def BankCallback.serve (c : BankCallback) (d : Db) : Except Exc CallbackResult × Db :=
  database.serve (processBankCallback c.event c.pspReference c.amount c.ids) d

def BankCallback.after (c : BankCallback) (d : Db) : Db := (c.serve d).2

/-- The database after the calls, one after another. -/
def afterAll (cs : List BankCallback) (d : Db) : Db := cs.foldl (fun d c => c.after d) d

theorem reachable_after (hd : Reachable d) (c : BankCallback) : Reachable (c.after d) :=
  hd.step ⟨.processBankCallback c.event c.pspReference c.amount c.ids, trivial, rfl⟩

/-! ### An order that waits for its callback -/

namespace Sample

open PaymentGateway.Runs.Serial.Sample

/-- The order is initiated for this vpa. -/
def waiting (payload : UpiInitiateRequest) : Db :=
  serveAll [ordering rupees, .initiateUpi shop payload ⟨uuid 3, "token", "token"⟩]
    (Db.empty [shop])

def hundred : Decimal := .finite false 100 0

def intent : PaymentIntent :=
  ⟨uuid 2, newId "ord" "token", uuid 1, ⟨1000000, by decide⟩, "INR", .processing, "order-0001",
    none⟩

def transaction (vpa : String) : Transaction :=
  ⟨uuid 3, newId "txn" "token", uuid 2, vpa, .upi, .pending, some (newId "psp" "token")⟩

def drawn : CallbackIds := ⟨uuid 4, uuid 5, uuid 6, uuid 7⟩

/-- Nothing has been posted yet. -/
theorem ledger_waiting (payload : UpiInitiateRequest) :
    (waiting payload).accounts = [] ∧ (waiting payload).entries = [] := by
  have hempty : Consistent (Db.empty [shop]) := consistent_empty _
  have hordered : ((ordering rupees).after (Db.empty [shop])).accounts = [] ∧
      ((ordering rupees).after (Db.empty [shop])).entries = [] := by
    rcases (ordering rupees).after_cases hempty with h | ⟨i, h⟩
    · rw [h]; exact ⟨rfl, rfl⟩
    · rw [h.db]; exact ⟨rfl, rfl⟩
  change ((Call.initiateUpi shop payload ⟨uuid 3, "token", "token"⟩).after _).accounts = [] ∧
    ((Call.initiateUpi shop payload ⟨uuid 3, "token", "token"⟩).after _).entries = []
  rcases (Call.initiateUpi shop payload ⟨uuid 3, "token", "token"⟩).after_cases
    (consistent_after (c := ordering rupees) hempty) with h | ⟨t, i, -, h⟩
  · rw [h]; exact hordered
  · rw [h.db]; exact hordered

theorem fresh (payload : UpiInitiateRequest) : Fresh drawn (waiting payload) := by
  obtain ⟨ha, he⟩ := ledger_waiting payload
  constructor <;> simp [ha, he, drawn, uuid]

theorem inRange (payload : UpiInitiateRequest) (t : Transaction) (i : PaymentIntent) :
    InRange t i (waiting payload) := by
  unfold InRange
  rw [(ledger_waiting payload).1]
  intro a ha
  cases ha

end Sample

end PaymentGateway.Specs.Callback
