import PaymentGateway.Specs.Callback

/-! # Account lookups

`_ensure_account_locked` inserts an account unless there is one of its identifier and currency, and
then looks for the identifier and the type. These are three different keys with the one of the
table. They single out the same row because every account is in the default currency and no
identifier of a payer is one of a merchant, whatever vpa a payer gives. -/

namespace PaymentGateway.Results.AccountLookups

open PaymentGateway.Core.Ids PaymentGateway.Models PaymentGateway.Schemas
open PaymentGateway.Lib.Program PaymentGateway.Lib.Sessions PaymentGateway.Lib.Tables
open PaymentGateway.Lib.DecimalArith PaymentGateway.Db.Statements PaymentGateway.Services.Webhook
open PaymentGateway.State.Changes PaymentGateway.State.Invariant PaymentGateway.Runs.Serial
open PaymentGateway.Outlines.Webhook PaymentGateway.Specs.Callback

variable {d d' : Db} {t : Transaction} {i : PaymentIntent} {ids : CallbackIds} {l l' : Session}
  {row a : LedgerAccount} {as : List LedgerAccount}

/-! ### What the identifiers are -/

/-- A payer's account is named by the vpa of a transaction, a merchant's by the merchant. -/
structure Named (d : Db) : Prop where
  payer : ∀ a ∈ d.accounts, a.accountType = .virtual → ∃ t ∈ d.transactions, t.vpa = a.identifier
  payee : ∀ a ∈ d.accounts, a.accountType = .merchantSettlement →
    ∃ m, a.merchantId = some m ∧ a.identifier = merchantIdentifier m

theorem named_empty (ms : List Merchant) : Named (Db.empty ms) :=
  ⟨fun _ ha => (by cases ha), fun _ ha => (by cases ha)⟩

/-- The vpas are not touched when a transaction advances. -/
theorem exists_vpa {id : UUID} {state : TransactionState} {vpa : String}
    (h : ∃ t ∈ d.transactions, t.vpa = vpa) :
    ∃ t ∈ d.transactions.map (withState id state), t.vpa = vpa := by
  obtain ⟨t, ht, hv⟩ := h
  exact ⟨_, List.mem_map_of_mem ht, by rw [withState_vpa, hv]⟩

theorem Named.succeeded {p : Posting} (h : Named d) (hs : Succeeded t i p d d') : Named d' := by
  obtain rfl := hs.db
  refine ⟨fun a' ha' htype => ?_, fun a' ha' htype => ?_⟩
  · obtain ⟨a, ha, rfl⟩ := Posting.mem_accounts.mp ha'
    simp only [withBalance_accountType, withBalance_identifier] at htype ⊢
    refine exists_vpa ?_
    rcases List.mem_append.mp ha with ha | ha
    · exact h.payer a ha htype
    · rcases hs.openedFor a ha with ⟨⟨-, hv⟩, -⟩ | ⟨⟨htype', -⟩, -⟩
      · exact ⟨t, hs.txn, hv.symm⟩
      · rw [htype] at htype'; cases htype'
  · obtain ⟨a, ha, rfl⟩ := Posting.mem_accounts.mp ha'
    simp only [withBalance_accountType, withBalance_identifier, withBalance_merchantId] at htype ⊢
    rcases List.mem_append.mp ha with ha | ha
    · exact h.payee a ha htype
    · rcases hs.openedFor a ha with ⟨⟨htype', -⟩, -⟩ | ⟨⟨-, hident⟩, hm⟩
      · rw [htype] at htype'; cases htype'
      · exact ⟨_, hm, hident⟩

theorem Named.change (h : Named d) (hc : Change d d') : Named d' := by
  cases hc with
  | ordered hc => obtain rfl := hc.db; exact ⟨h.payer, h.payee⟩
  | initiated hc =>
    obtain rfl := hc.db
    refine ⟨fun a ha htype => ?_, h.payee⟩
    obtain ⟨t, ht, hv⟩ := h.payer a ha htype
    exact ⟨t, List.mem_append_left _ ht, hv⟩
  | failed hc =>
    obtain rfl := hc.db
    exact ⟨fun a ha htype => exists_vpa (h.payer a ha htype), h.payee⟩
  | succeeded hc => exact h.succeeded hc

/-- There is one account of an identifier, although the table would take one for each currency. -/
theorem nodup_identifiers (hd : Consistent d) : (d.accounts.map (·.identifier)).Nodup := by
  refine List.Nodup.of_map (fun x => (x, defaultCurrency)) ?_
  rw [List.map_map]
  have hkeys : d.accounts.map (·.key) =
      d.accounts.map ((fun x => (x, defaultCurrency)) ∘ (·.identifier)) :=
    List.map_congr_left fun a ha => Prod.ext rfl (hd.chart.currency a ha)
  rw [← hkeys]
  exact hd.keys.accountKeys

/-- The validator of vpas asks for an `@`, which no merchant's identifier has. -/
theorem vpa_ne_merchantIdentifier (payload : UpiInitiateRequest) (m : UUID) :
    payload.vpa ≠ merchantIdentifier m := fun e =>
  at_notMem_merchantIdentifier m (e ▸ payload.vpa_valid.1)

/-! ### The lookups -/

/-- The rows that the `SELECT … FOR UPDATE` of `_ensure_account_locked` finds. -/
def rowsFor (accountType : AccountType) (identifier : String) (d : Db) (l : Session) :
    List LedgerAccount :=
  (d.accounts ++ l.inserted).filter fun a => a.identifier = identifier ∧ a.accountType = accountType

/-- They are what the statement answers, and what it locks. -/
theorem exec_selectAccount (accountType : AccountType) (identifier : String) (d : Db)
    (l : Session) :
    database.exec (.selectAccount identifier accountType) d l =
      (.ok (rowsFor accountType identifier d l), d, { l with
        locks := l.locks ++ (rowsFor accountType identifier d l).map fun a => .account a.id }) :=
  rfl

/-- `scalar_one` lets a single row through. -/
theorem scalarOne_ok {rows : List LedgerAccount}
    (h : database.run (scalarOne rows) d l = (.ok a, d', l')) : rows = [a] ∧ d' = d ∧ l' = l := by
  match rows, h with
  | [], h => cases h
  | [_], h => cases h; exact ⟨rfl, rfl, rfl⟩
  | _ :: _ :: _, h => cases h

/-- The `INSERT` writes to its own transaction only, and stages nothing. -/
theorem insertAccount_keeps {u : Unit} (h : insertAccount row d l = (.ok u, d', l')) :
    d' = d ∧ l'.pending = l.pending := by
  unfold insertAccount at h
  split_ifs at h <;> cases h <;> exact ⟨rfl, rfl⟩

/-- `_ensure_account_locked` returns the only row that it finds. -/
theorem ensureAccountLocked_ok {accountType : AccountType} {identifier : String}
    {merchantId : Option UUID} {id : UUID}
    (h : database.run (ensureAccountLocked accountType identifier merchantId id) d l =
      (.ok a, d', l')) :
    rowsFor accountType identifier d l' = [a] ∧ d' = d ∧ l'.pending = l.pending := by
  obtain ⟨u, d₁, l₁, hins, h⟩ := Machine.run_bind_inv _ h
  obtain ⟨rows, d₂, l₂, hsel, h⟩ := Machine.run_bind_inv _ h
  rw [execute, Machine.run_exec] at hins hsel
  rw [exec_selectAccount] at hsel
  obtain ⟨rfl, hpending⟩ := insertAccount_keeps hins
  cases hsel
  obtain ⟨hrows, rfl, rfl⟩ := scalarOne_ok h
  exact ⟨hrows, rfl, hpending⟩

/-- How `_ensure_account_locked` ends: with the only row that it finds; or, if the account has to be
opened and the id drawn for it is another's, its `INSERT` is refused and nothing is looked up. -/
inductive Ensured (accountType : AccountType) (identifier : String) (id : UUID) (d : Db)
    (l : Session) : Except Exc LedgerAccount → Session → Prop
  | found {a : LedgerAccount} {l' : Session} (rows : rowsFor accountType identifier d l' = [a])
      (type : a.accountType = accountType) (named : a.identifier = identifier) :
      Ensured accountType identifier id d l (.ok a) l'
  | taken (h : ∃ a ∈ d.accounts ++ l.inserted, a.id = id) :
      Ensured accountType identifier id d l (.error .integrityError) l

/-- The payer's account, as `process_bank_callback` asks for it. -/
def ensurePayer (t : Transaction) (ids : CallbackIds) : Sql LedgerAccount :=
  ensureAccountLocked .virtual t.vpa none ids.payerAccountId

/-- The merchant's. -/
def ensurePayee (i : PaymentIntent) (ids : CallbackIds) : Sql LedgerAccount :=
  ensureAccountLocked .merchantSettlement (merchantIdentifier i.merchantId) (some i.merchantId)
    ids.merchantAccountId

/-- Both calls find one account, and not the same. -/
structure Lookups (t : Transaction) (i : PaymentIntent) (ids : CallbackIds) (d : Db) (l : Session) :
    Prop where
  payer : ∀ r d' l', database.run (ensurePayer t ids) d l = (r, d', l') →
    Ensured .virtual t.vpa ids.payerAccountId d l r l'
  payee : ∀ a d₁ l₁, database.run (ensurePayer t ids) d l = (.ok a, d₁, l₁) →
    ∀ r d' l', database.run (ensurePayee i ids) d₁ l₁ = (r, d', l') →
      Ensured .merchantSettlement (merchantIdentifier i.merchantId) ids.merchantAccountId d₁ l₁ r
          l' ∧
        ∀ b, r = .ok b → b.id ≠ a.id

/-- What is left to do for a posting when both accounts are found. -/
def stagePostings (t : Transaction) (amount : Decimal) (ids : CallbackIds)
    (payer payee : LedgerAccount) : Sql Unit := do
  let payerBalance ← Prog.ofExcept (addBalance payer amount)
  execute (.stage (.setBalance payer.id payerBalance))
  let payeeBalance ← Prog.ofExcept (addBalance payee amount)
  execute (.stage (.setBalance payee.id payeeBalance))
  execute (.stage (.addEntry ids.debitEntryId payer.id t.id amount .debit defaultCurrency))
  execute (.stage (.addEntry ids.creditEntryId payee.id t.id amount .credit defaultCurrency))

/-- A posting begins with the two calls. -/
theorem postLedger_eq (t : Transaction) (i : PaymentIntent) (amount : Decimal)
    (ids : CallbackIds) : postLedger t i amount ids = (do
      let payer ← ensurePayer t ids
      let payee ← ensurePayee i ids
      stagePostings t amount ids payer payee) :=
  rfl

theorem stagePostings_ok {amount : Decimal} {payer payee : LedgerAccount} {u : Unit}
    (h : database.run (stagePostings t amount ids payer payee) d l = (.ok u, d', l')) :
    ∃ payerBalance payeeBalance, addBalance payer amount = .ok payerBalance ∧
      addBalance payee amount = .ok payeeBalance ∧
      l'.pending = l.pending ++ postings t amount ids payer payee payerBalance payeeBalance := by
  unfold stagePostings at h
  cases hp : addBalance payer amount with
  | error exc => rw [hp] at h; cases h
  | ok payerBalance =>
    cases hq : addBalance payee amount with
    | error exc => rw [hp, hq] at h; cases h
    | ok payeeBalance =>
      rw [hp, hq, Machine.run_bind_ok _ (run_value payerBalance d _),
        Machine.run_bind_ok _ (run_stage _ d _), Machine.run_bind_ok _ (run_value payeeBalance d _),
        Machine.run_bind_ok _ (run_stage _ d _), Machine.run_bind_ok _ (run_stage _ d _),
        run_stage] at h
      cases h
      exact ⟨_, _, rfl, rfl, by simp only [postings, List.append_assoc, List.cons_append,
        List.nil_append]⟩

/-- A posting that is staged is between the two accounts that its lookups find. -/
theorem postLedger_ok {amount : Decimal} {u : Unit}
    (h : database.run (postLedger t i amount ids) d l = (.ok u, d', l')) :
    ∃ payer l₁ payee l₂ payerBalance payeeBalance,
      database.run (ensurePayer t ids) d l = (.ok payer, d, l₁) ∧
      database.run (ensurePayee i ids) d l₁ = (.ok payee, d, l₂) ∧
      addBalance payer amount = .ok payerBalance ∧ addBalance payee amount = .ok payeeBalance ∧
      l'.pending = l.pending ++ postings t amount ids payer payee payerBalance payeeBalance := by
  rw [postLedger_eq] at h
  obtain ⟨payer, d₁, l₁, hpayer, hrest⟩ := Machine.run_bind_inv _ h
  obtain ⟨-, rfl, hpending₁⟩ := ensureAccountLocked_ok hpayer
  obtain ⟨payee, d₂, l₂, hpayee, hstaged⟩ := Machine.run_bind_inv _ hrest
  obtain ⟨-, rfl, hpending₂⟩ := ensureAccountLocked_ok hpayee
  obtain ⟨payerBalance, payeeBalance, hp, hq, hpending⟩ := stagePostings_ok hstaged
  rw [hpending₂, hpending₁] at hpending
  exact ⟨payer, l₁, payee, l₂, payerBalance, payeeBalance, hpayer, hpayee, hp, hq, hpending⟩

/-- So it is between two accounts, the payer's and the merchant's. -/
theorem Lookups.posted {amount : Decimal} {u : Unit} (hlookups : Lookups t i ids d l)
    (h : database.run (postLedger t i amount ids) d l = (.ok u, d', l')) :
    ∃ payer payee payerBalance payeeBalance,
      (payer.accountType = .virtual ∧ payer.identifier = t.vpa) ∧
      (payee.accountType = .merchantSettlement ∧
        payee.identifier = merchantIdentifier i.merchantId) ∧ payee.id ≠ payer.id ∧
      l'.pending = l.pending ++ postings t amount ids payer payee payerBalance payeeBalance := by
  obtain ⟨payer, l₁, payee, l₂, payerBalance, payeeBalance, hpayer, hpayee, -, -, hpending⟩ :=
    postLedger_ok h
  obtain ⟨-, htype, hident⟩ := hlookups.payer _ _ _ hpayer
  obtain ⟨⟨-, htype', hident'⟩, hne⟩ := hlookups.payee _ _ _ hpayer _ _ _ hpayee
  exact ⟨payer, payee, payerBalance, payeeBalance, ⟨htype, hident⟩, ⟨htype', hident'⟩,
    hne payee rfl, hpending⟩

/-- The account is found, or opened; or its id is taken. -/
theorem run_ensure {accountType : AccountType} {identifier : String} (merchantId : Option UUID)
    {id : UUID} (h : Charted (d.accounts ++ l.inserted))
    (hrow : row = newAccount id accountType identifier
      (if accountType = .merchantSettlement then merchantId else none)) (hk : Kind row)
    (hlen : row.identifier.length ≤ 128) (hm : ∀ m ∈ row.merchantId, ∃ x ∈ d.merchants, x.id = m) :
    (Available row (d.accounts ++ l.inserted) ∧
      ∃ l', database.run (ensureAccountLocked accountType identifier merchantId id) d l =
          (.ok (accountOf row (d.accounts ++ l.inserted)), d, l') ∧
        l'.inserted = l.inserted ++ openedBy row (d.accounts ++ l.inserted)) ∨
    ((∃ a ∈ d.accounts ++ l.inserted, a.id = id) ∧
      database.run (ensureAccountLocked accountType identifier merchantId id) d l =
        (.error .integrityError, d, l)) := by
  by_cases hid : Available row (d.accounts ++ l.inserted)
  · obtain ⟨l', hrun, hinserted, -⟩ := run_ensureAccountLocked merchantId h hrow hk hlen hid hm
    exact .inl ⟨hid, l', hrun, hinserted⟩
  · refine .inr ⟨?_, Machine.run_bind_error _ ?_⟩
    · by_contra hnew
      exact hid (.inr fun a ha e => hnew ⟨a, ha, by rw [e, hrow]; rfl⟩)
    · rw [execute, Machine.run_exec]
      change insertAccount (newAccount id accountType identifier _) d l = _
      rw [← hrow]
      exact insertAccount_taken hlen hid

/-- An account that is opened has an id of its own. -/
theorem nodup_ids_opened (h : (as.map (·.id)).Nodup) (hid : Available row as) :
    ((as ++ openedBy row as).map (·.id)).Nodup := by
  unfold openedBy
  split_ifs with hkey
  · rwa [List.append_nil]
  · exact nodup_append_key h (hid.resolve_left hkey)

/-- The row that is found is the account asked for. -/
theorem ensured_of_run {accountType : AccountType} {identifier : String}
    {merchantId : Option UUID} {id : UUID}
    (h : database.run (ensureAccountLocked accountType identifier merchantId id) d l =
      (.ok a, d', l')) : Ensured accountType identifier id d l (.ok a) l' := by
  obtain ⟨hrows, -, -⟩ := ensureAccountLocked_ok h
  have ha : a ∈ rowsFor accountType identifier d l' := hrows ▸ List.mem_singleton_self a
  obtain ⟨hident, htype⟩ := of_decide_eq_true (List.mem_filter.mp ha).2
  exact .found hrows htype hident

/-- Accounts of two keys have two ids, also when both are opened. -/
theorem accountOf_id_ne {row' : LedgerAccount} (h : (as.map (·.id)).Nodup)
    (hid : Available row as) (hid' : Available row' (as ++ openedBy row as))
    (hkey : row'.key ≠ row.key) :
    (accountOf row' (as ++ openedBy row as)).id ≠ (accountOf row as).id := by
  intro e
  have hnodup := nodup_ids_opened (nodup_ids_opened h hid) hid'
  have hrow := eq_of_key hnodup (accountOf_opened row' _)
    (List.mem_append_left _ (accountOf_opened row as)) e
  exact hkey (accountOf_key.symm.trans ((congrArg LedgerAccount.key hrow).trans accountOf_key))

/-- Both lookups, in a session that has opened no account before. -/
theorem lookups (hd : Consistent d) (ht : t ∈ d.transactions)
    (ho : ∃ m ∈ d.merchants, m.id = i.merchantId) (hlen : t.vpa.length ≤ 128)
    (hl : l.inserted = []) : Lookups t i ids d l := by
  have hcharted : Charted (d.accounts ++ l.inserted) := by
    rw [hl, List.append_nil]
    exact charted_accounts hd
  have hkp := kind_payerRow ids hd ht
  have hpayer := run_ensure none hcharted
    (rfl : payerRow t ids = newAccount _ .virtual _ _) hkp hlen fun _ hm => by cases hm
  constructor
  · intro r d' l' hrun
    rcases hpayer with ⟨-, l₁, hfound, hinserted⟩ | ⟨htaken, hrefused⟩
    · cases hfound.symm.trans hrun
      exact ensured_of_run hfound
    · cases hrefused.symm.trans hrun
      exact .taken htaken
  · intro a d₁ l₁ hrun₁ r d' l' hrun
    rcases hpayer with ⟨hid, l₂, hfound, hinserted⟩ | ⟨-, hrefused⟩
    swap
    · cases hrefused.symm.trans hrun₁
    cases hfound.symm.trans hrun₁
    have hsame : d.accounts ++ l₁.inserted =
        d.accounts ++ l.inserted ++ openedBy (payerRow t ids) (d.accounts ++ l.inserted) := by
      rw [hinserted, List.append_assoc]
    have hcharted₁ : Charted (d.accounts ++ l₁.inserted) := by
      rw [hsame]
      exact hcharted.opened rfl hkp
    have hkq := kind_payeeRow i ids
    rcases run_ensure (some i.merchantId) hcharted₁
      (rfl : payeeRow i ids = newAccount _ .merchantSettlement _ _) hkq
      (length_merchantIdentifier _) fun _ hm => by cases hm; exact ho with
      ⟨hid₁, l₂, hfound₁, hinserted₁⟩ | ⟨htaken, hrefused⟩
    swap
    · cases hrefused.symm.trans hrun
      exact ⟨.taken htaken, fun b hb => by cases hb⟩
    cases hfound₁.symm.trans hrun
    refine ⟨ensured_of_run hfound₁, fun b hb e => ?_⟩
    cases hb
    have hnodup : ((d.accounts ++ l.inserted).map (·.id)).Nodup := by
      rw [hl, List.append_nil]
      exact hd.keys.accounts
    rw [hsame] at hid₁ e
    exact accountOf_id_ne hnodup hid hid₁ (payerKey_ne_payeeKey hd ht).symm e

/-- **Account lookups find the right account.** In every state that calls reach the identifiers
are different and name the payers and the merchants, no vpa that is accepted is a merchant's
identifier, and the success of a pending transaction, if its vpa fits the column, finds its two
accounts; no callback ends because a lookup has found none or several rows. -/
theorem accounts_found (h : Reachable d) :
    (d.accounts.map (·.identifier)).Nodup ∧ Named d ∧
    (∀ (payload : UpiInitiateRequest) m, payload.vpa ≠ merchantIdentifier m) ∧
    (∀ t ∈ d.transactions, t.state = .pending → t.vpa.length ≤ 128 →
      ∀ i ∈ d.intents, i.id = t.intentId → ∀ ids l, l.inserted = [] → Lookups t i ids d l) ∧
    ∀ event psp amount ids e,
      ((Call.processBankCallback event psp amount ids).serve d).1 = .error e →
        e ≠ .multipleResultsFound ∧ e ≠ .noResultFound := by
  have hd := h.consistent
  refine ⟨nodup_identifiers hd, h.change named_empty fun _ _ => Named.change,
    vpa_ne_merchantIdentifier, fun t ht _ hlen i hi _ ids l hl => ?_,
    fun event psp amount ids e he => ?_⟩
  · exact lookups hd ht (h.owned i hi) hlen hl
  · exact not_or.mp (Call.no_lookupError hd h.pspUnique he)

/-- Alice's payment. -/
theorem accounts_found_alice :
    Lookups (Sample.transaction "alice@bank") Sample.intent Sample.drawn
      (Sample.waiting Runs.Serial.Sample.alicePays) .closed := by
  have h : Reachable (Sample.waiting Runs.Serial.Sample.alicePays) :=
    reachable_serveAll (reachable_empty _) (by decide)
  obtain ⟨-, -, -, hlookups, -⟩ := accounts_found h
  exact hlookups _ (by decide) rfl (by decide) _ (by decide) rfl _ _ rfl

end PaymentGateway.Results.AccountLookups
