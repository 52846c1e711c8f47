import PaymentGateway.Db.Locking
import PaymentGateway.Lib.Serializability

/-! # Replaying a session after the commit of another

A session has locked the rows it has read, and inserted accounts that no one else has. What it did
so far gives the same responses after another session has committed (`stable`), if the programs
keep to `Careful`: a `FOR UPDATE` on an account comes after an insertion of its identifier, and no
intent or transaction is added. -/

namespace PaymentGateway.Db.Replay

open PaymentGateway.Core.Ids PaymentGateway.Models PaymentGateway.Lib.Tables
open PaymentGateway.Lib.Program PaymentGateway.Lib.Sessions PaymentGateway.Lib.Serializability
open PaymentGateway.Db.Statements PaymentGateway.Db.Flush PaymentGateway.Db.Locking

/-- The statements that end a transaction. -/
def Ends (s : Stmt) : Prop := s = .commit ∨ s = .rollback

/-- A write that adds neither an intent nor a transaction. -/
def Updates (w : Write) : Prop := newIntents w = [] ∧ newTransactions w = []

/-- The statements of a careful program, after those in `past`. -/
def Careful (past : List Stmt) : Stmt → Prop
  | .selectTransactionByPsp _ => True
  | .selectIntentById _ => True
  | .insertAccount _ _ _ _ => True
  | .selectAccount identifier _ => ∃ id accountType merchantId,
    .insertAccount id accountType identifier merchantId ∈ past
  | .stage w => Updates w
  | .commit => True
  | .rollback => True
  | _ => False

/-! ### What a rival's commit leaves -/

/-- `d'` is `d` after commits of others, while the rows in `keep` were locked and the accounts
`inserted` were there, not yet committed. -/
structure Later (keep : List RowId) (inserted : List LedgerAccount) (d d' : Db) : Prop where
  merchants : d'.merchants = d.merchants
  intents : Changes (IntentKept keep) d.intents d'.intents
  transactions : Changes (TransactionKept keep) d.transactions d'.transactions
  accounts : ∃ as bs, d'.accounts = as ++ bs ∧ Changes (AccountKept keep) d.accounts as ∧
    ∀ b ∈ bs, b.currency = defaultCurrency ∧
      ∀ a ∈ d.accounts ++ inserted, b.key ≠ a.key ∧ (a ∈ inserted → b.id ≠ a.id)

variable {α : Type} {keep : List RowId} {inserted : List LedgerAccount} {d d' : Db} {l m : Session}

/-- The commit of `l`, which does not wait for `m`. -/
theorem later_flush (hd : l.flush d = .ok d') (hw : ¬ waits .commit d l m)
    (hpending : ∀ w ∈ l.pending, Updates w) (hl : Own d l) (ha : Apart l m) :
    Later m.locks m.inserted d d' := by
  have hf := flush_tables hd
  have hk : ∀ w ∈ l.pending, ∀ r ∈ w.rows, r ∉ m.locks :=
    fun w hwp r hr hm => hw ⟨w, hwp, r, hr, hm⟩
  have hacc : Changes (AccountKept m.locks) (d.accounts ++ l.inserted) d'.accounts := by
    rw [hf.accounts]
    exact changes_apply .refl AccountKept.trans (fun w hw => onAccount_kept (hk w hw))
      fun _ _ => rfl
  obtain ⟨f, hfk, hfe⟩ := hacc
  refine ⟨hf.merchants, ?_, ?_, d.accounts.map f, l.inserted.map f, by rw [hfe, List.map_append],
    ⟨f, hfk, rfl⟩, fun b hb => ?_⟩
  · rw [hf.intents]
    exact changes_apply .refl IntentKept.trans (fun w hw => onIntent_kept (hk w hw))
      fun w hw => (hpending w hw).1
  · rw [hf.transactions]
    exact changes_apply .refl TransactionKept.trans (fun w hw => onTransaction_kept (hk w hw))
      fun w hw => (hpending w hw).2
  · obtain ⟨c, hc, rfl⟩ := List.mem_map.mp hb
    have hid : (f c).id = c.id := by rw [(hfk c).1]
    have hkey : (f c).key = c.key := by rw [(hfk c).1]; rfl
    refine ⟨?_, fun a ham => ?_⟩
    · rw [(hfk c).1]
      show c.currency = defaultCurrency
      rw [hl.made c hc]
      rfl
    rw [hid, hkey]
    rcases List.mem_append.mp ham with had | hai
    · exact ⟨(hl.keys_new c hc a had).symm, fun hai => (ha c hc a hai).1⟩
    · exact ⟨(ha c hc a hai).2, fun hai => (ha c hc a hai).1⟩

/-- A query of which every row is kept finds the same rows. -/
theorem filter_kept {β : Type} {R : β → β → Prop} {xs ys : List β} {c : β → Prop} [DecidablePred c]
    (h : Changes R xs ys) (hc : ∀ x y, R x y → (c y ↔ c x))
    (hk : ∀ x ∈ xs, ∀ y, c x → R x y → y = x) :
    ys.filter c = xs.filter c := by
  obtain ⟨f, hf, rfl⟩ := h
  rw [List.filter_map]
  have : (fun x => decide (c x)) ∘ f = fun x => decide (c x) :=
    funext fun x => decide_eq_decide.mpr (hc x (f x) (hf x))
  rw [this]
  conv_rhs => rw [← List.map_id (xs.filter c)]
  refine List.map_congr_left fun x hx => ?_
  obtain ⟨hx, hcx⟩ := List.mem_filter.mp hx
  exact hk x hx (f x) (of_decide_eq_true hcx) (hf x)

/-! ### A statement issued later -/

/-- Before its transaction ends, a session only adds to its locks and its inserted accounts. -/
theorem grows_exec {s : Stmt} (hs : ¬ Ends s) (d : Db) (m : Session) :
    m.locks ⊆ (exec s d m).2.2.locks ∧ m.inserted ⊆ (exec s d m).2.2.inserted := by
  cases s with
  | commit => exact absurd (.inl rfl) hs
  | rollback => exact absurd (.inr rfl) hs
  | insertAccount i t x r =>
    simp only [exec]
    rcases insertAccount_cases (newAccount i t x r) d m with he | ⟨-, he⟩ <;> rw [he] <;> simp
  | refreshIntent id => simp only [exec]; split <;> simp
  | refreshTransaction id => simp only [exec]; split <;> simp
  | refreshDelivery id => simp only [exec]; split <;> simp
  | _ => simp [exec]

/-- The accounts of an identifier, when there is an account of its key already. -/
theorem Later.filter_accounts (h : Later keep inserted d d') {ins : List LedgerAccount}
    {identifier : String} {accountType : AccountType} (hins : ins ⊆ inserted)
    (hkey : ∃ a ∈ d.accounts ++ ins, a.key = (identifier, defaultCurrency))
    (hlocks : ∀ a ∈ d.accounts, a.identifier = identifier ∧ a.accountType = accountType →
      .account a.id ∈ keep) :
    (d'.accounts ++ ins).filter (fun a => a.identifier = identifier ∧ a.accountType = accountType) =
      (d.accounts ++ ins).filter fun a =>
        a.identifier = identifier ∧ a.accountType = accountType := by
  obtain ⟨as, bs, he, has, hbs⟩ := h.accounts
  have hold := filter_kept (c := fun a => a.identifier = identifier ∧ a.accountType = accountType)
    has (fun a a' hk => by rw [hk.1]) fun a ha a' hc hk => hk.2 (hlocks a ha hc)
  have hnew :
      bs.filter (fun a => a.identifier = identifier ∧ a.accountType = accountType) = [] := by
    refine List.filter_eq_nil_iff.mpr fun b hb hc => ?_
    obtain ⟨a, ha, hk⟩ := hkey
    have hmem : a ∈ d.accounts ++ inserted := by
      rcases List.mem_append.mp ha with ha | ha
      · exact List.mem_append_left _ ha
      · exact List.mem_append_right _ (hins ha)
    refine ((hbs b hb).2 a hmem).1 ?_
    rw [hk, LedgerAccount.key, (of_decide_eq_true hc).1, (hbs b hb).1]
  rw [he, List.filter_append, List.filter_append, List.filter_append, hold, hnew, List.append_nil]

/-- An insertion that did not fail does the same later. -/
theorem Later.insertAccount (h : Later keep inserted d d') {row : LedgerAccount}
    (hok : (insertAccount row d m).1 = .ok ())
    (hins : (insertAccount row d m).2.2.inserted ⊆ inserted) :
    insertAccount row d' m = ((insertAccount row d m).1, d', (insertAccount row d m).2.2) := by
  obtain ⟨as, bs, he, ⟨f, hf, rfl⟩, hbs⟩ := h.accounts
  have hkey : ∀ a, (f a).key = a.key := fun a => by rw [(hf a).1]; rfl
  have hid : ∀ a, (f a).id = a.id := fun a => by rw [(hf a).1]
  unfold Statements.insertAccount at hok hins ⊢
  split_ifs at hok hins with hlen hconflict hnew
  · -- the rival account is still there
    have : ∃ a ∈ d'.accounts ++ m.inserted, a.key = row.key := by
      obtain ⟨a, ha, hk⟩ := hconflict
      rw [he]
      rcases List.mem_append.mp ha with ha | ha
      · exact ⟨f a, by simp [List.mem_map_of_mem ha], (hkey a).trans hk⟩
      · exact ⟨a, by simp [ha], hk⟩
    rw [if_pos hlen, if_pos this, if_pos hlen, if_pos hconflict]
  · -- no account of the key or the id has come
    have hrow : row ∈ inserted := hins (by simp)
    have hno : ¬ ∃ a ∈ d'.accounts ++ m.inserted, a.key = row.key := by
      rintro ⟨a, ha, hk⟩
      rw [he] at ha
      rcases List.mem_append.mp ha with ha | ha
      · rcases List.mem_append.mp ha with ha | ha
        · obtain ⟨b, hb, rfl⟩ := List.mem_map.mp ha
          exact hconflict ⟨b, List.mem_append_left _ hb, (hkey b).symm.trans hk⟩
        · exact ((hbs a ha).2 row (List.mem_append_right _ hrow)).1 hk
      · exact hconflict ⟨a, List.mem_append_right _ ha, hk⟩
    have hfree : (∀ a ∈ d'.accounts ++ m.inserted, a.id ≠ row.id) ∧
        ∀ m ∈ row.merchantId, ∃ x ∈ d'.merchants, x.id = m := by
      refine ⟨fun a ha => ?_, by rw [h.merchants]; exact hnew.2⟩
      rw [he] at ha
      rcases List.mem_append.mp ha with ha | ha
      · rcases List.mem_append.mp ha with ha | ha
        · obtain ⟨b, hb, rfl⟩ := List.mem_map.mp ha
          rw [hid]
          exact hnew.1 b (List.mem_append_left _ hb)
        · exact ((hbs a ha).2 row (List.mem_append_right _ hrow)).2 hrow
      · exact hnew.1 a (List.mem_append_right _ ha)
    rw [if_pos hlen, if_neg hno, if_pos hfree, if_pos hlen, if_neg hconflict, if_pos hnew]

/-- **A statement issued later** gives the same response and the same session. -/
theorem Later.exec (h : Later keep inserted d d') {s : Stmt} {past : List Stmt}
    (hs : Careful past s) (hne : ¬ Ends s) (hok : ∃ r, (exec s d m).1 = .ok r)
    (hlocks : (exec s d m).2.2.locks ⊆ keep) (hins : (exec s d m).2.2.inserted ⊆ inserted)
    (hkeys : ∀ i t x r, .insertAccount i t x r ∈ past →
      ∃ a ∈ d.accounts ++ m.inserted, a.key = (x, defaultCurrency)) :
    exec s d' m = ((exec s d m).1, d', (exec s d m).2.2) := by
  cases s with
  | selectTransactionByPsp psp =>
    have : d'.transactions.filter (·.pspReference = some psp) =
        d.transactions.filter (·.pspReference = some psp) := by
      refine filter_kept h.transactions (fun t t' hk => by rw [hk.1]) fun t ht t' hc hk => hk.2 ?_
      refine hlocks (List.mem_append_right _ (List.mem_map.mpr ⟨t, ?_, rfl⟩))
      exact List.mem_filter.mpr ⟨ht, decide_eq_true hc⟩
    simp only [Statements.exec, this]
  | selectIntentById id =>
    have : d'.intents.filter (·.id = id) = d.intents.filter (·.id = id) := by
      refine filter_kept h.intents (fun i i' hk => by rw [hk.1]) fun i hi i' hc hk => hk.2 ?_
      refine hlocks (List.mem_append_right _ (List.mem_map.mpr ⟨i, ?_, rfl⟩))
      exact List.mem_filter.mpr ⟨hi, decide_eq_true hc⟩
    simp only [Statements.exec, this]
  | insertAccount i t x r =>
    obtain ⟨r', hr⟩ := hok
    exact h.insertAccount hr hins
  | selectAccount x t =>
    obtain ⟨i, t', r, hpast⟩ := hs
    have hins : m.inserted ⊆ inserted := hins
    have hlocked : ∀ a ∈ d.accounts, a.identifier = x ∧ a.accountType = t → .account a.id ∈ keep :=
      fun a ha hc => hlocks (List.mem_append_right _ (List.mem_map.mpr
        ⟨a, List.mem_filter.mpr ⟨List.mem_append_left _ ha, decide_eq_true hc⟩, rfl⟩))
    have := h.filter_accounts hins (hkeys i t' x r hpast) hlocked
    simp only [Statements.exec, this]
  | stage w => rfl
  | commit => exact absurd (.inl rfl) hne
  | rollback => exact absurd (.inr rfl) hne
  | _ => exact absurd hs id

/-! ### A careful program under way -/

/-- What a careful program has done in its session. -/
structure Trace (past : List Stmt) (d : Db) (m : Session) : Prop where
  keys : ∀ i t x r, .insertAccount i t x r ∈ past →
    ∃ a ∈ d.accounts ++ m.inserted, a.key = (x, defaultCurrency)
  pending : ∀ w ∈ m.pending, Updates w

theorem trace_closed : Trace [] d .closed := ⟨by simp, by simp [Session.closed]⟩

/-- After an insertion that did not fail, there is an account of the key. -/
theorem key_insertAccount {row : LedgerAccount} (hok : (insertAccount row d m).1 = .ok ()) :
    ∃ a ∈ d.accounts ++ (insertAccount row d m).2.2.inserted, a.key = row.key := by
  unfold insertAccount at hok ⊢
  split_ifs at hok ⊢ with hlen hkey hid
  · exact hkey
  · exact ⟨row, by simp, rfl⟩

theorem pending_exec {s : Stmt} {past : List Stmt} (hs : Careful past s) (hne : ¬ Ends s)
    (h : ∀ w ∈ m.pending, Updates w) : ∀ w ∈ (exec s d m).2.2.pending, Updates w := by
  cases s with
  | commit => exact absurd (.inl rfl) hne
  | rollback => exact absurd (.inr rfl) hne
  | insertAccount i t x r =>
    simp only [exec]
    rcases insertAccount_cases (newAccount i t x r) d m with he | ⟨-, he⟩ <;> rw [he] <;> exact h
  | stage w =>
    intro w' hw'
    rcases List.mem_append.mp hw' with hw' | hw'
    · exact h w' hw'
    · rw [List.mem_singleton.mp hw']; exact hs
  | selectTransactionByPsp psp => exact h
  | selectIntentById id => exact h
  | selectAccount x t => exact h
  | _ => exact absurd hs id

theorem Trace.exec {s : Stmt} {past : List Stmt} (h : Trace past d m) (hs : Careful past s)
    (hne : ¬ Ends s) (hok : ∃ r, (exec s d m).1 = .ok r) :
    Trace (past ++ [s]) d (exec s d m).2.2 := by
  refine ⟨fun i t x r hmem => ?_, pending_exec hs hne h.pending⟩
  rcases List.mem_append.mp hmem with hmem | hmem
  · obtain ⟨a, ha, hk⟩ := h.keys i t x r hmem
    refine ⟨a, ?_, hk⟩
    rcases List.mem_append.mp ha with ha | ha
    · exact List.mem_append_left _ ha
    · exact List.mem_append_right _ ((grows_exec hne d m).2 ha)
  · obtain rfl := List.mem_singleton.mp hmem
    obtain ⟨_, hr⟩ := hok
    have hr : (insertAccount (newAccount i t x r) d m).1 = .ok () := hr
    exact key_insertAccount hr

/-- A statement after which the program goes on has not failed. -/
theorem goes_on {s : Stmt} {past : List Stmt} {k : Except Exc s.Resp → Sql α}
    (h : Prog.Follows (σ := sql) Careful (.call s k) past) (hgo : ¬ (k (exec s d m).1).Done) :
    ∃ r, (exec s d m).1 = .ok r := by
  cases hr : (exec s d m).1 with
  | ok r => exact ⟨r, rfl⟩
  | error e =>
    rw [hr, h.2.1 e] at hgo
    exact absurd trivial hgo

variable {p q : Sql α}

theorem trace_replay (h : Replay database Ends d p .closed q m) (hp : p.Follows Careful [])
    (hgo : ¬ q.Done) : ∃ past, q.Follows Careful past ∧ Trace past d m := by
  induction h with
  | start => exact ⟨[], hp, trace_closed⟩
  | @snoc s k m h hf hd ih =>
    obtain ⟨past, hk, ht⟩ := ih id
    exact ⟨past ++ [s], hk.2.2 _, ht.exec hk.1 hf (goes_on hk hgo)⟩

/-- What was done so far can be replayed later. -/
theorem Later.replay (hl : Later keep inserted d d') (h : Replay database Ends d p .closed q m)
    (hp : p.Follows Careful []) (hgo : ¬ q.Done) (hlocks : m.locks ⊆ keep)
    (hins : m.inserted ⊆ inserted) : Replay database Ends d' p .closed q m := by
  induction h with
  | start => exact .start
  | @snoc s k m h hf hd ih =>
    obtain ⟨past, hk, ht⟩ := trace_replay h hp id
    obtain ⟨hgl, hgi⟩ := grows_exec hf d m
    have he := hl.exec hk.1 hf (goes_on hk hgo) hlocks hins ht.keys
    have hnext := (ih id (List.Subset.trans hgl hlocks) (List.Subset.trans hgi hins)).snoc hf
      (congrArg (·.2.1) he)
    simp only [Machine.session, database, he] at hnext
    exact hnext

/-- **Stability.** The end of a transaction leaves what the others have done as it was. -/
theorem stable : Stable (α := α) isolation Ends fun p => p.Follows Careful [] := by
  intro s k d l m p p' q hs hl hm ha hw hp hrep hp' hgo hrep'
  obtain ⟨past, hk, ht⟩ := trace_replay hrep hp id
  have hsame : (exec s d l).2.1 = d → Replay database Ends (database.after s d l) p' .closed q m :=
    fun he => by rw [show database.after s d l = d from he]; exact hrep'
  rcases hs with rfl | rfl
  · cases hf : l.flush d with
    | error e => exact hsame (by simp only [exec, hf])
    | ok d' =>
      have he : database.after .commit d l = d' := by simp only [Machine.after, database, exec, hf]
      rw [he]
      exact (later_flush hf hw ht.pending hl ha).replay hrep' hp' hgo (List.Subset.refl _)
        (List.Subset.refl _)
  · exact hsame rfl

end PaymentGateway.Db.Replay
