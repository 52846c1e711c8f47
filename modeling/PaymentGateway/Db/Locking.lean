import PaymentGateway.Db.Flush

/-! # What a statement of one session leaves to the others

`Frame keep d d'` is what other sessions see of a statement: tables grow, only the status, state and
balance columns change, and the rows in `keep` are as they were.

* `frame_exec`: a statement that does not wait for a session keeps the rows that session has locked;
* `isolation`: no two sessions have uncommitted accounts of one key or one id, and none has one of
  a committed key or id. -/

namespace PaymentGateway.Db.Locking

open PaymentGateway.Core.Ids PaymentGateway.Models PaymentGateway.Lib.DecimalArith
open PaymentGateway.Lib.Program PaymentGateway.Lib.Sessions PaymentGateway.Lib.Tables
open PaymentGateway.Db.Statements PaymentGateway.Db.Flush

/-! ### The frame -/

/-- At most the state has changed, and nothing if the row is in `keep`. -/
def TransactionKept (keep : List RowId) (t t' : Transaction) : Prop :=
  t' = { t with state := t'.state } ∧ (.transaction t.id ∈ keep → t' = t)

/-- At most the status has changed, and nothing if the row is in `keep`. -/
def IntentKept (keep : List RowId) (i i' : PaymentIntent) : Prop :=
  i' = { i with status := i'.status } ∧ (.intent i.id ∈ keep → i' = i)

/-- At most the balance has changed, and nothing if the row is in `keep`. -/
def AccountKept (keep : List RowId) (a a' : LedgerAccount) : Prop :=
  a' = { a with balance := a'.balance } ∧ (.account a.id ∈ keep → a' = a)

variable {keep : List RowId}

theorem TransactionKept.refl (t : Transaction) : TransactionKept keep t t := ⟨rfl, fun _ => rfl⟩

theorem IntentKept.refl (i : PaymentIntent) : IntentKept keep i i := ⟨rfl, fun _ => rfl⟩

theorem AccountKept.refl (a : LedgerAccount) : AccountKept keep a a := ⟨rfl, fun _ => rfl⟩

theorem TransactionKept.trans (t t' t'' : Transaction) (h : TransactionKept keep t t')
    (h' : TransactionKept keep t' t'') : TransactionKept keep t t'' := by
  obtain ⟨h, hk⟩ := h
  obtain ⟨h', hk'⟩ := h'
  refine ⟨by rw [h', h], fun hm => ?_⟩
  rw [hk' (by rw [hk hm]; exact hm), hk hm]

theorem IntentKept.trans (i i' i'' : PaymentIntent) (h : IntentKept keep i i')
    (h' : IntentKept keep i' i'') : IntentKept keep i i'' := by
  obtain ⟨h, hk⟩ := h
  obtain ⟨h', hk'⟩ := h'
  refine ⟨by rw [h', h], fun hm => ?_⟩
  rw [hk' (by rw [hk hm]; exact hm), hk hm]

theorem AccountKept.trans (a a' a'' : LedgerAccount) (h : AccountKept keep a a')
    (h' : AccountKept keep a' a'') : AccountKept keep a a'' := by
  obtain ⟨h, hk⟩ := h
  obtain ⟨h', hk'⟩ := h'
  refine ⟨by rw [h', h], fun hm => ?_⟩
  rw [hk' (by rw [hk hm]; exact hm), hk hm]

/-- What other sessions may do to the database while the rows in `keep` are locked. -/
structure Frame (keep : List RowId) (d d' : Db) : Prop where
  merchants : d'.merchants = d.merchants
  intents : Grows (IntentKept keep) d.intents d'.intents
  transactions : Grows (TransactionKept keep) d.transactions d'.transactions
  accounts : Grows (AccountKept keep) d.accounts d'.accounts
  entries : d.entries <+: d'.entries
  deliveries : d.deliveries <+: d'.deliveries

namespace Frame

variable {d d' d'' : Db}

theorem refl (d : Db) : Frame keep d d :=
  ⟨rfl, .refl .refl _, .refl .refl _, .refl .refl _, List.prefix_rfl, List.prefix_rfl⟩

theorem trans (h : Frame keep d d') (h' : Frame keep d' d'') : Frame keep d d'' :=
  ⟨h'.merchants.trans h.merchants, h.intents.trans IntentKept.trans h'.intents,
    h.transactions.trans TransactionKept.trans h'.transactions,
    h.accounts.trans AccountKept.trans h'.accounts, h.entries.trans h'.entries,
    h.deliveries.trans h'.deliveries⟩

/-- A locked transaction is still there, as it was. -/
theorem mem_transactions (h : Frame keep d d') {t : Transaction} (ht : t ∈ d.transactions)
    (hk : .transaction t.id ∈ keep) : t ∈ d'.transactions := by
  obtain ⟨t', ht', -, he⟩ := h.transactions.exists_mem ht
  rwa [he hk] at ht'

/-- A locked intent is still there, as it was. -/
theorem mem_intents (h : Frame keep d d') {i : PaymentIntent} (hi : i ∈ d.intents)
    (hk : .intent i.id ∈ keep) : i ∈ d'.intents := by
  obtain ⟨i', hi', -, he⟩ := h.intents.exists_mem hi
  rwa [he hk] at hi'

/-- A locked account is still there, as it was. -/
theorem mem_accounts (h : Frame keep d d') {a : LedgerAccount} (ha : a ∈ d.accounts)
    (hk : .account a.id ∈ keep) : a ∈ d'.accounts := by
  obtain ⟨a', ha', -, he⟩ := h.accounts.exists_mem ha
  rwa [he hk] at ha'

end Frame

/-! ### A write and the rows it does not touch -/

theorem onTransaction_kept {w : Write} (h : ∀ r ∈ w.rows, r ∉ keep) (t : Transaction) :
    TransactionKept keep t (onTransaction w t) := by
  cases w with
  | setTransactionState id state =>
    simp only [onTransaction, withState]
    split_ifs with ht
    · exact ⟨rfl, fun hm => absurd (ht ▸ hm) (h _ (by simp [Write.rows]))⟩
    · exact .refl t
  | _ => exact .refl t

theorem onIntent_kept {w : Write} (h : ∀ r ∈ w.rows, r ∉ keep) (i : PaymentIntent) :
    IntentKept keep i (onIntent w i) := by
  cases w with
  | setIntentStatus id status =>
    simp only [onIntent, withStatus]
    split_ifs with hi
    · exact ⟨rfl, fun hm => absurd (hi ▸ hm) (h _ (by simp [Write.rows]))⟩
    · exact .refl i
  | _ => exact .refl i

theorem onAccount_kept {w : Write} (h : ∀ r ∈ w.rows, r ∉ keep) (a : LedgerAccount) :
    AccountKept keep a (onAccount w a) := by
  cases w with
  | setBalance id balance =>
    simp only [onAccount, withBalance]
    split_ifs with ha
    · exact ⟨rfl, fun hm => absurd (ha ▸ hm) (h _ (by simp [Write.rows]))⟩
    · exact .refl a
  | _ => exact .refl a

theorem frame_flush {l : Session} {d d' : Db} (h : l.flush d = .ok d')
    (hk : ∀ w ∈ l.pending, ∀ r ∈ w.rows, r ∉ keep) : Frame keep d d' := by
  have hf := flush_tables h
  refine ⟨hf.merchants, ?_, ?_, ?_, hf.entries ▸ List.prefix_append _ _,
    hf.deliveries ▸ List.prefix_append _ _⟩
  · rw [hf.intents]
    exact grows_apply .refl IntentKept.trans fun w hw => onIntent_kept (hk w hw)
  · rw [hf.transactions]
    exact grows_apply .refl TransactionKept.trans fun w hw => onTransaction_kept (hk w hw)
  · rw [hf.accounts]
    exact (Grows.append .refl d.accounts l.inserted).trans AccountKept.trans
      (grows_apply .refl AccountKept.trans fun w hw => onAccount_kept (hk w hw))

/-- Only `commit` changes the database. -/
theorem exec_db {s : Stmt} {d : Db} {l : Session} (hs : s ≠ .commit) : (exec s d l).2.1 = d := by
  cases s with
  | commit => exact absurd rfl hs
  | insertAccount id accountType identifier merchantId =>
    simp only [exec, insertAccount]
    split_ifs <;> rfl
  | refreshIntent id => simp only [exec]; split <;> rfl
  | refreshTransaction id => simp only [exec]; split <;> rfl
  | refreshDelivery id => simp only [exec]; split <;> rfl
  | _ => rfl

/-- **The frame.** What a session has locked stays as it is under the statements of the others. -/
theorem frame_exec {s : Stmt} {d : Db} {l m : Session} (hw : ¬ waits s d l m) :
    Frame m.locks d (exec s d l).2.1 := by
  by_cases hs : s = .commit
  · subst hs
    simp only [exec]
    split
    · rename_i d' h
      exact frame_flush h fun w hwp r hr hm => hw ⟨w, hwp, r, hr, hm⟩
    · exact .refl d
  · rw [exec_db hs]; exact .refl d

/-- Nobody waits for a closed session. -/
theorem not_waits_closed (s : Stmt) (d : Db) (l : Session) : ¬ waits s d l .closed := by
  cases s with
  | selectIntentForUpdate publicId merchantId => rintro ⟨i, -, -, h⟩; cases h
  | selectIntentById id => rintro ⟨i, -, -, h⟩; cases h
  | selectTransactionByPsp psp => rintro ⟨t, -, -, h⟩; cases h
  | insertAccount id accountType identifier merchantId => rintro ⟨a, h, -⟩; cases h
  | selectAccount identifier accountType => rintro ⟨a, -, -, h⟩; cases h
  | commit => rintro ⟨w, -, r, -, h⟩; cases h
  | _ => exact id

/-- What a program that runs alone leaves of the tables. -/
theorem frame_run {α : Type} (p : Sql α) (d : Db) (l : Session) :
    Frame [] d (database.run p d l).2.1 := by
  induction p generalizing d l with
  | ret a => exact .refl d
  | raise e => exact .refl d
  | call s k ih =>
    have hstep : Frame Session.closed.locks d (exec s d l).2.1 :=
      frame_exec (not_waits_closed s d l)
    exact hstep.trans (ih _ _ _)

/-! ### Uncommitted accounts -/

/-- The accounts `as` are not in the database, and as `newAccount` makes them. -/
structure NewAccounts (d : Db) (as : List LedgerAccount) : Prop where
  ids : (as.map (·.id)).Nodup
  keys : (as.map (·.key)).Nodup
  ids_new : ∀ a ∈ as, ∀ b ∈ d.accounts, b.id ≠ a.id
  keys_new : ∀ a ∈ as, ∀ b ∈ d.accounts, b.key ≠ a.key
  made : ∀ a ∈ as, a = newAccount a.id a.accountType a.identifier a.merchantId

/-- The accounts a session has inserted are new. -/
def Own (d : Db) (l : Session) : Prop := NewAccounts d l.inserted

/-- Two sessions have inserted different accounts. -/
def Apart (l m : Session) : Prop :=
  ∀ a ∈ l.inserted, ∀ b ∈ m.inserted, a.id ≠ b.id ∧ a.key ≠ b.key

theorem own_of_nil {d : Db} {l : Session} (h : l.inserted = []) : Own d l := by
  unfold Own
  rw [h]
  constructor <;> simp

theorem apart_of_nil {l m : Session} (h : l.inserted = []) : Apart l m := by
  intro a ha; simp [h] at ha

/-- The accounts after a commit are the old ones, or those the session inserted; ids and keys stay.
-/
theorem mem_accounts_flush {l : Session} {d d' : Db} (h : l.flush d = .ok d') {b : LedgerAccount}
    (hb : b ∈ d'.accounts) :
    ∃ a ∈ d.accounts ++ l.inserted, b.id = a.id ∧ b.key = a.key := by
  have hc : Changes (AccountKept []) (d.accounts ++ l.inserted) d'.accounts := by
    rw [(flush_tables h).accounts]
    exact changes_apply .refl AccountKept.trans
      (fun w _ => onAccount_kept fun r _ => List.not_mem_nil) fun _ _ => rfl
  obtain ⟨f, hf, he⟩ := hc
  rw [he] at hb
  obtain ⟨a, ha, rfl⟩ := List.mem_map.mp hb
  refine ⟨a, ha, ?_⟩
  rw [(hf a).1]
  exact ⟨rfl, rfl⟩

/-- An `INSERT` leaves the inserted accounts alone, or adds a row that no one has. -/
theorem insertAccount_cases (row : LedgerAccount) (d : Db) (l : Session) :
    (insertAccount row d l).2.2 = l ∨
    ((∀ a ∈ d.accounts ++ l.inserted, a.key ≠ row.key ∧ a.id ≠ row.id) ∧
      insertAccount row d l = (.ok (), d, { l with inserted := l.inserted ++ [row] })) := by
  unfold insertAccount
  split_ifs with hlen hkey hid
  · exact .inl rfl
  · refine .inr ⟨fun a ha => ⟨fun hk => hkey ⟨a, ha, hk⟩, hid.1 a ha⟩, rfl⟩
  · exact .inl rfl
  · exact .inl rfl

/-- No statement but an `INSERT` adds to the inserted accounts, and `commit` and `rollback` forget
them. -/
theorem inserted_exec {s : Stmt} {d : Db} {l : Session}
    (hs : ∀ i t x m, s ≠ .insertAccount i t x m) :
    (exec s d l).2.2.inserted = l.inserted ∨ (exec s d l).2.2.inserted = [] := by
  cases s with
  | insertAccount i t x m => exact absurd rfl (hs i t x m)
  | commit => simp only [exec]; split <;> exact .inr rfl
  | rollback => exact .inr rfl
  | refreshIntent id => simp only [exec]; split <;> exact .inl rfl
  | refreshTransaction id => simp only [exec]; split <;> exact .inl rfl
  | refreshDelivery id => simp only [exec]; split <;> exact .inl rfl
  | _ => exact .inl rfl

theorem own_exec {s : Stmt} {d : Db} {l : Session} (h : Own d l) :
    Own (exec s d l).2.1 (exec s d l).2.2 := by
  by_cases hi : ∃ i t x m, s = .insertAccount i t x m
  · obtain ⟨i, t, x, m, rfl⟩ := hi
    rw [exec_db (by simp)]
    rcases insertAccount_cases (newAccount i t x m) d l with he | ⟨hnew, he⟩
    · simp only [exec, he]; exact h
    · simp only [exec, he]
      have hin := fun a (ha : a ∈ l.inserted) => hnew a (List.mem_append_right _ ha)
      have hdb := fun a (ha : a ∈ d.accounts) => hnew a (List.mem_append_left _ ha)
      refine ⟨?_, ?_, fun a ha b hb => ?_, fun a ha b hb => ?_, fun a ha => ?_⟩
      · rw [List.map_append, List.nodup_append]
        refine ⟨h.ids, List.nodup_singleton _, fun y hy z hz => ?_⟩
        obtain ⟨a, ha, rfl⟩ := List.mem_map.mp hy
        rw [List.mem_singleton.mp hz]
        exact (hin a ha).2
      · rw [List.map_append, List.nodup_append]
        refine ⟨h.keys, List.nodup_singleton _, fun y hy z hz => ?_⟩
        obtain ⟨a, ha, rfl⟩ := List.mem_map.mp hy
        rw [List.mem_singleton.mp hz]
        exact (hin a ha).1
      · rcases List.mem_append.mp ha with ha | ha
        · exact h.ids_new a ha b hb
        · rw [List.mem_singleton.mp ha]; exact (hdb b hb).2
      · rcases List.mem_append.mp ha with ha | ha
        · exact h.keys_new a ha b hb
        · rw [List.mem_singleton.mp ha]; exact (hdb b hb).1
      · rcases List.mem_append.mp ha with ha | ha
        · exact h.made a ha
        · rw [List.mem_singleton.mp ha]; rfl
  · rcases inserted_exec (d := d) (l := l) fun i t x m he => hi ⟨i, t, x, m, he⟩ with he | he
    · by_cases hs : s = .commit
      · subst hs
        refine own_of_nil ?_
        simp only [exec]
        split <;> rfl
      · rw [exec_db hs]
        unfold Own; rwa [he]
    · exact own_of_nil he

theorem own_other {s : Stmt} {d : Db} {l m : Session} (hm : Own d m) (ha : Apart l m) :
    Own (exec s d l).2.1 m := by
  by_cases hs : s = .commit
  · subst hs
    simp only [exec]
    split
    · rename_i d' hd
      refine ⟨hm.ids, hm.keys, fun a ham b hb => ?_, fun a ham b hb => ?_, hm.made⟩
      · obtain ⟨c, hc, he, -⟩ := mem_accounts_flush hd hb
        rw [he]
        rcases List.mem_append.mp hc with hc | hc
        · exact hm.ids_new a ham c hc
        · exact (ha c hc a ham).1
      · obtain ⟨c, hc, -, he⟩ := mem_accounts_flush hd hb
        rw [he]
        rcases List.mem_append.mp hc with hc | hc
        · exact hm.keys_new a ham c hc
        · exact (ha c hc a ham).2
    · exact hm
  · rw [exec_db hs]; exact hm

theorem apart_exec {s : Stmt} {d : Db} {l m : Session} (ha : Apart l m) (hw : ¬ waits s d l m) :
    Apart (exec s d l).2.2 m := by
  by_cases hi : ∃ i t x r, s = .insertAccount i t x r
  · obtain ⟨i, t, x, r, rfl⟩ := hi
    rcases insertAccount_cases (newAccount i t x r) d l with he | ⟨-, he⟩
    · simp only [exec, he]; exact ha
    · simp only [exec, he]
      intro a hal b hb
      rcases List.mem_append.mp hal with hal | hal
      · exact ha a hal b hb
      · -- the rival would have had to be waited for
        rw [List.mem_singleton.mp hal]
        exact ⟨fun hid => hw ⟨b, hb, .inr hid.symm⟩, fun hk => hw ⟨b, hb, .inl hk.symm⟩⟩
  · rcases inserted_exec (d := d) (l := l) fun i t x r he => hi ⟨i, t, x, r, he⟩ with he | he
    · intro a hal; rw [he] at hal; exact ha a hal
    · exact apart_of_nil he

/-- **Isolation.** Of every session of a pool `Own` holds, and of every two `Apart`. -/
def isolation : Isolation database where
  Own := Own
  Apart := Apart
  own_closed _ := own_of_nil rfl
  apart_closed _ := apart_of_nil rfl
  apart_symm h a ha b hb := ⟨(h b hb a ha).1.symm, (h b hb a ha).2.symm⟩
  own_exec := own_exec
  own_other _ hm ha _ := own_other hm ha
  apart_exec _ _ ha hw := apart_exec ha hw

end PaymentGateway.Db.Locking
