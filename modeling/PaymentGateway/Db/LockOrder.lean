import PaymentGateway.Db.Locking
import PaymentGateway.Lib.Deadlock

/-! # The order of the locks

Rows are locked and accounts inserted in one order: a transaction, an intent, the payer's account,
the merchant's account; an account is inserted, if it is not there, before it is locked.

* `exclusive`: no two sessions hold a lock on the same row;
* `trail`: what a session holds, it has locked or inserted by a statement of that level;
* `level_of_waits`: so whoever is waited for is past the level of the one that waits;
* `relaxed`: a session that holds nothing may also commit. -/

namespace PaymentGateway.Db.LockOrder

open PaymentGateway.Core.Ids PaymentGateway.Models PaymentGateway.Lib.Program
open PaymentGateway.Lib.Sessions PaymentGateway.Lib.Deadlock PaymentGateway.Lib.Tables
open PaymentGateway.Db.Statements PaymentGateway.Db.Flush PaymentGateway.Db.Locking

variable {s : Stmt} {d : Db} {l m : Session} {r : RowId} {id : UUID}

/-- The levels from 1 to 6 are those of the statements that lock or insert. -/
def level : Stmt → ℕ
  | .selectTransactionByPsp _ => 1
  | .selectIntentForUpdate _ _ => 2
  | .selectIntentById _ => 2
  | .insertAccount _ accountType _ _ => if accountType = .virtual then 3 else 5
  | .selectAccount _ accountType => if accountType = .virtual then 4 else 6
  | _ => 7

/-! ### Locks are exclusive -/

/-- The rows that a statement locks. -/
def locked : Stmt → Db → Session → List RowId
  | .selectIntentForUpdate publicId merchantId, d, _ =>
    (d.intents.filter fun i => i.publicId = publicId ∧ i.merchantId = merchantId).map
      fun i => .intent i.id
  | .selectIntentById id, d, _ => (d.intents.filter (·.id = id)).map fun i => .intent i.id
  | .selectTransactionByPsp psp, d, _ =>
    (d.transactions.filter (·.pspReference = some psp)).map fun t => .transaction t.id
  | .selectAccount identifier accountType, d, l =>
    ((d.accounts ++ l.inserted).filter fun a =>
      a.identifier = identifier ∧ a.accountType = accountType).map fun a => .account a.id
  | _, _, _ => []

theorem mem_locks_exec (h : r ∈ (exec s d l).2.2.locks) : r ∈ l.locks ∨ r ∈ locked s d l := by
  cases s with
  | selectIntentForUpdate publicId merchantId => exact List.mem_append.mp h
  | selectIntentById id => exact List.mem_append.mp h
  | selectTransactionByPsp psp => exact List.mem_append.mp h
  | selectAccount identifier accountType => exact List.mem_append.mp h
  | insertAccount id accountType identifier merchantId =>
    rcases insertAccount_cases (newAccount id accountType identifier merchantId) d l with he | ⟨-, he⟩
    · simp only [exec, he] at h; exact .inl h
    · simp only [exec, he] at h; exact .inl h
  | commit => simp only [exec] at h; split at h <;> cases h
  | rollback => cases h
  | refreshIntent id => simp only [exec] at h; split at h <;> exact .inl h
  | refreshTransaction id => simp only [exec] at h; split at h <;> exact .inl h
  | refreshDelivery id => simp only [exec] at h; split at h <;> exact .inl h
  | _ => exact .inl h

/-- A locked account is in the database, or inserted. -/
def Present (d : Db) (l : Session) : Prop :=
  ∀ id, .account id ∈ l.locks → ∃ a ∈ d.accounts ++ l.inserted, a.id = id

theorem present_of_nil (h : l.locks = []) : Present d l := by
  intro id hid
  rw [h] at hid
  cases hid

/-- Accounts stay, with their type, under the statements of another session. -/
theorem exists_account_other {a : LedgerAccount} (h : a ∈ d.accounts ++ m.inserted)
    (hw : ¬ waits s d l m) : ∃ b ∈ (exec s d l).2.1.accounts ++ m.inserted, b.id = a.id ∧
      b.accountType = a.accountType := by
  rcases List.mem_append.mp h with h | h
  · obtain ⟨b, hb, he, -⟩ := (frame_exec hw).accounts.exists_mem h
    refine ⟨b, List.mem_append_left _ hb, ?_⟩
    rw [he]
    exact ⟨rfl, rfl⟩
  · exact ⟨a, List.mem_append_right _ h, rfl, rfl⟩

/-- An account stays for its own session, unless that gives up what it holds. -/
theorem mem_accounts_exec {a : LedgerAccount} (h : a ∈ d.accounts ++ l.inserted)
    (hr : r ∈ (exec s d l).2.2.locks) :
    a ∈ (exec s d l).2.1.accounts ++ (exec s d l).2.2.inserted := by
  cases s with
  | insertAccount id accountType identifier merchantId =>
    rcases insertAccount_cases (newAccount id accountType identifier merchantId) d l with he | ⟨-, he⟩
    · rw [exec_db (by simp)]
      simp only [exec, he]
      exact h
    · simp only [exec, he]
      rw [← List.append_assoc]
      exact List.mem_append_left _ h
  | commit => simp only [exec] at hr; split at hr <;> cases hr
  | rollback => cases hr
  | refreshIntent id => simp only [exec]; split <;> exact h
  | refreshTransaction id => simp only [exec]; split <;> exact h
  | refreshDelivery id => simp only [exec]; split <;> exact h
  | _ => exact h

/-- An account among the locked rows of a statement was selected by it. -/
theorem selectAccount_of_locked (h : .account id ∈ locked s d l) :
    ∃ identifier accountType, s = .selectAccount identifier accountType ∧
      ∃ a ∈ d.accounts ++ l.inserted, a.id = id ∧ a.identifier = identifier ∧
        a.accountType = accountType := by
  cases s with
  | selectAccount identifier accountType =>
    obtain ⟨a, ha, e⟩ := List.mem_map.mp h
    obtain ⟨ha, hp⟩ := List.mem_filter.mp ha
    cases e
    exact ⟨identifier, accountType, rfl, a, ha, rfl, of_decide_eq_true hp⟩
  | selectIntentForUpdate publicId merchantId =>
    obtain ⟨i, -, e⟩ := List.mem_map.mp h
    cases e
  | selectIntentById id =>
    obtain ⟨i, -, e⟩ := List.mem_map.mp h
    cases e
  | selectTransactionByPsp psp =>
    obtain ⟨t, -, e⟩ := List.mem_map.mp h
    cases e
  | _ => cases h

theorem present_exec (h : Present d l) : Present (exec s d l).2.1 (exec s d l).2.2 := by
  intro id hid
  have ha : ∃ a ∈ d.accounts ++ l.inserted, a.id = id := by
    rcases mem_locks_exec hid with hid' | hid'
    · exact h id hid'
    · obtain ⟨-, -, -, a, ha, he, -⟩ := selectAccount_of_locked hid'
      exact ⟨a, ha, he⟩
  obtain ⟨a, ha, he⟩ := ha
  exact ⟨a, mem_accounts_exec ha hid, he⟩

theorem present_other (h : Present d m) (hw : ¬ waits s d l m) :
    Present (exec s d l).2.1 m := by
  intro id hid
  obtain ⟨a, ha, rfl⟩ := h id hid
  obtain ⟨b, hb, he, -⟩ := exists_account_other ha hw
  exact ⟨b, hb, he⟩

/-- A row that is locked without waiting is not locked by another session. -/
theorem locked_notMem (hl : Own d l) (hm : Present d m) (ha : Apart l m) (hw : ¬ waits s d l m)
    (h : r ∈ locked s d l) : r ∉ m.locks := by
  intro hr
  cases s with
  | selectIntentForUpdate publicId merchantId =>
    obtain ⟨i, hi, rfl⟩ := List.mem_map.mp h
    obtain ⟨hi, hp⟩ := List.mem_filter.mp hi
    exact hw ⟨i, hi, of_decide_eq_true hp, hr⟩
  | selectIntentById id =>
    obtain ⟨i, hi, rfl⟩ := List.mem_map.mp h
    obtain ⟨hi, hp⟩ := List.mem_filter.mp hi
    exact hw ⟨i, hi, of_decide_eq_true hp, hr⟩
  | selectTransactionByPsp psp =>
    obtain ⟨t, ht, rfl⟩ := List.mem_map.mp h
    obtain ⟨ht, hp⟩ := List.mem_filter.mp ht
    exact hw ⟨t, ht, of_decide_eq_true hp, hr⟩
  | selectAccount identifier accountType =>
    obtain ⟨a, haa, rfl⟩ := List.mem_map.mp h
    obtain ⟨haa, hp⟩ := List.mem_filter.mp haa
    rcases List.mem_append.mp haa with haa | haa
    · exact hw ⟨a, haa, of_decide_eq_true hp, hr⟩
    · -- an account that only this session has inserted
      obtain ⟨b, hb, he⟩ := hm a.id hr
      rcases List.mem_append.mp hb with hb | hb
      · exact hl.ids_new a haa b hb he
      · exact (ha a haa b hb).1 he.symm
  | _ => cases h

/-- **Exclusive locks.** -/
def exclusive : Isolation database where
  Own d l := Own d l ∧ Present d l
  Apart l m := Apart l m ∧ ∀ r ∈ l.locks, r ∉ m.locks
  own_closed _ := ⟨own_of_nil rfl, present_of_nil rfl⟩
  apart_closed _ := ⟨apart_of_nil rfl, fun _ h => by cases h⟩
  apart_symm h := ⟨isolation.apart_symm h.1, fun r hr hr' => h.2 r hr' hr⟩
  own_exec h := ⟨own_exec h.1, present_exec h.2⟩
  own_other _ hm ha hw := ⟨own_other hm.1 ha.1, present_other hm.2 hw⟩
  apart_exec hl hm ha hw := by
    refine ⟨apart_exec ha.1 hw, fun r hr => ?_⟩
    rcases mem_locks_exec hr with hr | hr
    · exact ha.2 r hr
    · exact locked_notMem hl.1 hm.2 ha.1 hw hr

/-! ### Trails -/

/-- An account that may be inserted: its id is among `ids`, and it is a payer's or a merchant's. -/
def Insertable (ids : List UUID) (id : UUID) (accountType : AccountType) (identifier : String) :
    Prop :=
  id ∈ ids ∧ ((accountType = .virtual ∧ '@' ∈ identifier.toList) ∨
    (accountType = .merchantSettlement ∧ '@' ∉ identifier.toList))

/-- A statement that may follow those in `past`. -/
structure Ok (ids : List UUID) (past : List Stmt) (s : Stmt) (l : Session) : Prop where
  climbs : ∀ s' ∈ past, level s' < 7 → level s' < level s
  insert : ∀ id accountType identifier merchantId,
    s = .insertAccount id accountType identifier merchantId →
      Insertable ids id accountType identifier
  commit : s = .commit → ∀ w ∈ l.pending, ∀ r ∈ w.rows, r ∈ l.locks

/-- What a session holds after the statements `past`. -/
structure Holds (ids : List UUID) (d : Db) (past : List Stmt) (l : Session) : Prop where
  offered : ∀ id accountType identifier merchantId,
    .insertAccount id accountType identifier merchantId ∈ past →
      Insertable ids id accountType identifier
  transaction : ∀ id, .transaction id ∈ l.locks → ∃ s ∈ past, level s = 1
  intent : ∀ id, .intent id ∈ l.locks → ∃ s ∈ past, level s = 2
  account : ∀ id, .account id ∈ l.locks → ∃ a ∈ d.accounts ++ l.inserted, a.id = id ∧
    ∃ identifier, .selectAccount identifier a.accountType ∈ past
  inserted : ∀ a ∈ l.inserted, ∃ merchantId,
    .insertAccount a.id a.accountType a.identifier merchantId ∈ past

theorem holds_of_nil {ids : List UUID} {past : List Stmt}
    (hpast : ∀ id accountType identifier merchantId,
      .insertAccount id accountType identifier merchantId ∈ past →
        Insertable ids id accountType identifier)
    (hlocks : l.locks = []) (hinserted : l.inserted = []) : Holds ids d past l := by
  refine ⟨hpast, fun id h => ?_, fun id h => ?_, fun id h => ?_, fun a h => ?_⟩
  · rw [hlocks] at h; cases h
  · rw [hlocks] at h; cases h
  · rw [hlocks] at h; cases h
  · rw [hinserted] at h; cases h

/-- A locked transaction or intent was locked at its level. -/
theorem level_of_locked (h : r ∈ locked s d l) :
    (∀ id, r = .transaction id → level s = 1) ∧ ∀ id, r = .intent id → level s = 2 := by
  cases s with
  | selectIntentForUpdate publicId merchantId =>
    obtain ⟨i, -, rfl⟩ := List.mem_map.mp h
    exact ⟨fun id e => (by cases e), fun id _ => rfl⟩
  | selectIntentById id =>
    obtain ⟨i, -, rfl⟩ := List.mem_map.mp h
    exact ⟨fun id e => (by cases e), fun id _ => rfl⟩
  | selectTransactionByPsp psp =>
    obtain ⟨t, -, rfl⟩ := List.mem_map.mp h
    exact ⟨fun id _ => rfl, fun id e => by cases e⟩
  | selectAccount identifier accountType =>
    obtain ⟨a, -, rfl⟩ := List.mem_map.mp h
    exact ⟨fun id e => (by cases e), fun id e => by cases e⟩
  | _ => cases h

/-- The inserted accounts after a statement. -/
theorem mem_inserted_exec {a : LedgerAccount} (h : a ∈ (exec s d l).2.2.inserted) :
    a ∈ l.inserted ∨ ∃ merchantId, s = .insertAccount a.id a.accountType a.identifier merchantId := by
  by_cases hi : ∃ id t x m, s = .insertAccount id t x m
  · obtain ⟨id, t, x, m, rfl⟩ := hi
    rcases insertAccount_cases (newAccount id t x m) d l with he | ⟨-, he⟩
    · simp only [exec, he] at h
      exact .inl h
    · simp only [exec, he] at h
      refine (List.mem_append.mp h).imp (fun h => h) fun h => ?_
      rw [List.mem_singleton.mp h]
      exact ⟨m, rfl⟩
  · rcases inserted_exec (d := d) (l := l) fun id t x m e => hi ⟨id, t, x, m, e⟩ with he | he
    · exact .inl (he ▸ h)
    · rw [he] at h
      cases h

theorem holds_exec {ids : List UUID} {past : List Stmt}
    (hins : ∀ id accountType identifier merchantId,
      s = .insertAccount id accountType identifier merchantId →
        Insertable ids id accountType identifier)
    (h : Holds ids d past l) :
    Holds ids (exec s d l).2.1 (past ++ [s]) (exec s d l).2.2 := by
  have hold : ∀ {s'}, s' ∈ past → s' ∈ past ++ [s] := fun h => List.mem_append_left _ h
  have hnew : s ∈ past ++ [s] := List.mem_append_right _ (List.mem_singleton_self s)
  refine ⟨fun id t x m hm => ?_, fun id hr => ?_, fun id hr => ?_, fun id hr => ?_, fun a ha => ?_⟩
  · rcases List.mem_append.mp hm with hm | hm
    · exact h.offered id t x m hm
    · exact hins id t x m (List.mem_singleton.mp hm).symm
  · rcases mem_locks_exec hr with hr | hr
    · obtain ⟨s', hs, hl⟩ := h.transaction id hr
      exact ⟨s', hold hs, hl⟩
    · exact ⟨s, hnew, (level_of_locked hr).1 id rfl⟩
  · rcases mem_locks_exec hr with hr | hr
    · obtain ⟨s', hs, hl⟩ := h.intent id hr
      exact ⟨s', hold hs, hl⟩
    · exact ⟨s, hnew, (level_of_locked hr).2 id rfl⟩
  · rcases mem_locks_exec hr with hr' | hr'
    · obtain ⟨a, ha, he, x, hx⟩ := h.account id hr'
      exact ⟨a, mem_accounts_exec ha hr, he, x, hold hx⟩
    · obtain ⟨x, t, hs, a, ha, he, -, ht⟩ := selectAccount_of_locked hr'
      exact ⟨a, mem_accounts_exec ha hr, he, x, by rw [ht, ← hs]; exact hnew⟩
  · rcases mem_inserted_exec ha with ha | ⟨m, hm⟩
    · obtain ⟨m, hm⟩ := h.inserted a ha
      exact ⟨m, hold hm⟩
    · exact ⟨m, hm ▸ hnew⟩

theorem holds_other {ids : List UUID} {past : List Stmt} (hw : ¬ waits s d l m)
    (h : Holds ids d past m) : Holds ids (exec s d l).2.1 past m := by
  refine ⟨h.offered, h.transaction, h.intent, fun id hr => ?_, h.inserted⟩
  obtain ⟨a, ha, he, x, hx⟩ := h.account id hr
  obtain ⟨b, hb, hid, ht⟩ := exists_account_other ha hw
  exact ⟨b, hb, hid.trans he, x, ht ▸ hx⟩

/-- What a session that draws the account ids `ids` may do, and hold. -/
def trail (ids : List UUID) : Trail exclusive where
  Ok := Ok ids
  Holds := Holds ids
  closed _ := holds_of_nil (fun _ _ _ _ h => by cases h) rfl rfl
  exec _ ho h := holds_exec ho.insert h
  other _ _ _ hw h := holds_other hw h

/-! ### Who is waited for -/

/-- **Whoever is waited for** is past the level of the one that waits. -/
theorem level_of_waits {ids ids' : List UUID} {past past' : List Stmt} {s' : Stmt}
    (hids : ∀ id ∈ ids, id ∉ ids') (hkeys : (d.accounts.map (·.id)).Nodup)
    (hm : Own d m) (ha : ∀ r ∈ l.locks, r ∉ m.locks) (ho : Ok ids past s l)
    (ho' : Ok ids' past' s' m) (h : Holds ids' d past' m) (hw : waits s d l m) :
    level s < level s' := by
  cases s with
  | selectIntentForUpdate publicId merchantId =>
    obtain ⟨i, -, -, hr⟩ := hw
    obtain ⟨s'', hs, hl⟩ := h.intent i.id hr
    exact (Nat.le_of_eq hl.symm).trans_lt (ho'.climbs s'' hs (by omega))
  | selectIntentById id =>
    obtain ⟨i, -, -, hr⟩ := hw
    obtain ⟨s'', hs, hl⟩ := h.intent i.id hr
    exact (Nat.le_of_eq hl.symm).trans_lt (ho'.climbs s'' hs (by omega))
  | selectTransactionByPsp psp =>
    obtain ⟨t, -, -, hr⟩ := hw
    obtain ⟨s'', hs, hl⟩ := h.transaction t.id hr
    exact (Nat.le_of_eq hl.symm).trans_lt (ho'.climbs s'' hs (by omega))
  | insertAccount id accountType identifier merchantId =>
    obtain ⟨a, hin, hkey⟩ := hw
    obtain ⟨mid, hpast⟩ := h.inserted a hin
    obtain ⟨hid, ht⟩ := ho.insert _ _ _ _ rfl
    obtain ⟨hid', ht'⟩ := h.offered _ _ _ _ hpast
    have hident : a.identifier = identifier := by
      rcases hkey with hkey | hkey
      · exact congrArg Prod.fst hkey
      · exact absurd (hkey ▸ hid') (hids id hid)
    have hclimb := ho'.climbs _ hpast
    rw [hident] at ht'
    -- a payer's and a merchant's account differ in their identifiers
    rcases ht with ⟨rfl, hat⟩ | ⟨rfl, hat⟩ <;> rcases ht' with ⟨e, hat'⟩ | ⟨e, hat'⟩
    · simp only [level, e, if_true] at hclimb ⊢
      omega
    · exact absurd hat hat'
    · exact absurd hat' hat
    · simp only [level, e] at hclimb ⊢
      exact hclimb (by decide)
  | selectAccount identifier accountType =>
    obtain ⟨a, had, ⟨-, ht⟩, hr⟩ := hw
    obtain ⟨b, hb, he, x, hx⟩ := h.account a.id hr
    have hba : b = a := by
      rcases List.mem_append.mp hb with hb | hb
      · exact eq_of_key hkeys hb had he
      · exact absurd he.symm (hm.ids_new b hb a had)
    have hlevel : level (.selectAccount x b.accountType) =
        level (.selectAccount identifier accountType) := by rw [hba, ht]; rfl
    rw [← hlevel]
    refine ho'.climbs _ hx ?_
    simp only [level]
    split_ifs <;> omega
  | commit =>
    obtain ⟨w, hw, r, hr, hrm⟩ := hw
    exact absurd hrm (ha r (ho.commit rfl w hw r hr))
  | _ => exact hw.elim

/-! ### Sessions that hold nothing -/

/-- The session has locked and inserted nothing. -/
def Idle (l : Session) : Prop := l.locks = [] ∧ l.inserted = []

instance (l : Session) : Decidable (Idle l) := inferInstanceAs (Decidable (_ ∧ _))

theorem not_waits_idle (h : Idle m) : ¬ waits s d l m := by
  obtain ⟨hlocks, hinserted⟩ := h
  cases s with
  | selectIntentForUpdate publicId merchantId => rintro ⟨i, -, -, h⟩; rw [hlocks] at h; cases h
  | selectIntentById id => rintro ⟨i, -, -, h⟩; rw [hlocks] at h; cases h
  | selectTransactionByPsp psp => rintro ⟨t, -, -, h⟩; rw [hlocks] at h; cases h
  | insertAccount id accountType identifier merchantId =>
    rintro ⟨a, h, -⟩; rw [hinserted] at h; cases h
  | selectAccount identifier accountType => rintro ⟨a, -, -, h⟩; rw [hlocks] at h; cases h
  | commit => rintro ⟨w, -, r, -, h⟩; rw [hlocks] at h; cases h
  | _ => exact id

/-- A session that holds nothing may commit whatever it has staged: it may have to wait for others,
but none waits for it. -/
def relaxed (ids : List UUID) : Trail exclusive where
  Ok past s l := Ok ids past s l ∨ s = .commit ∧ Idle l
  Holds := Holds ids
  closed _ := holds_of_nil (fun _ _ _ _ h => by cases h) rfl rfl
  exec {s d l past} _ ho h := by
    refine holds_exec (fun id t x m hs => ?_) h
    rcases ho with ho | ⟨hc, -⟩
    · exact ho.insert id t x m hs
    · cases hc.symm.trans hs
  other _ _ _ hw h := holds_other hw h

theorem level_pos (s : Stmt) : 0 < level s := by
  cases s with
  | insertAccount id accountType identifier merchantId =>
    simp only [level]
    split_ifs <;> decide
  | selectAccount identifier accountType =>
    simp only [level]
    split_ifs <;> decide
  | _ => exact Nat.succ_pos _

/-- How high a process is: the lowest is one that holds nothing. -/
def height {α : Type} (p : Proc sql Session α) : ℕ := if Idle p.loc then 0 else next level p.prog

/-- On relaxed trails the processes rise. -/
theorem rising_of_onTrail {α ι : Type} {J : Db → Prop} {ids : ι → List UUID}
    {c : Config sql Db Session ι α} (h : OnTrail J (fun i => relaxed (ids i)) c)
    (hset : Machine.Settled database c) (hids : ∀ i j, i ≠ j → ∀ id ∈ ids i, id ∉ ids j)
    (hkeys : (c.shared.accounts.map (·.id)).Nodup) (hpool : exclusive.Pool c) :
    Rising database (fun i => height (c.procs i)) c := by
  refine h.rising hset (fun _ _ _ => not_waits_idle ⟨rfl, rfl⟩)
    fun {i j s s' _ _ _ _} hne hp hp' ho ho' hholds hw => ?_
  have hbusy : ¬ Idle (c.procs j).loc := fun hidle => not_waits_idle hidle hw
  unfold height
  rw [if_neg hbusy, hp']
  split_ifs with hi
  · exact level_pos s'
  · rw [hp]
    -- both hold something, so that neither is about to commit as an idle session may
    exact level_of_waits (hids i j hne) hkeys (hpool.own j).1 (hpool.apart i j hne).2
      (ho.resolve_right fun hc => hi hc.2) (ho'.resolve_right fun hc => hbusy hc.2) hholds hw

end PaymentGateway.Db.LockOrder
