import PaymentGateway.Specs.Callback

/-! # The accounts by their keys

Where the ledger stands after a callback that is applied, read by the identifier and the currency of
an account: the payer's and the merchant's accounts have the amount more, opened if they were not
there, and all others are as they were (`accountAt_settled`). The entries name their accounts by id,
and the key of an id does not change (`keyOf_settled`). -/

namespace PaymentGateway.Specs.Accounts

open PaymentGateway.Core.Ids PaymentGateway.Models PaymentGateway.Schemas PaymentGateway.Lib.Tables
open PaymentGateway.Db.Statements PaymentGateway.Db.Locking
open PaymentGateway.Services.Webhook PaymentGateway.Outlines.Webhook
open PaymentGateway.State.Changes PaymentGateway.State.Invariant PaymentGateway.Specs.Callback

/-- The account of the key. -/
def accountAt (key : Key) (d : Db) : Option LedgerAccount := d.accounts.find? (·.key = key)

/-- The key of the account. -/
def keyOf (id : UUID) (d : Db) : Option Key := (d.accounts.find? (·.id = id)).map (·.key)

/-- The account with `amount` more. -/
def deposited (amount : Money) (a : LedgerAccount) : LedgerAccount :=
  { a with balance := addMoney a.balance amount }

variable {d : Db} {t : Transaction} {i : PaymentIntent} {ids : CallbackIds} {psp : String}
  {event : BankCallbackEvent} {as : List LedgerAccount} {row a : LedgerAccount} {key : Key}

/-! ### Opened accounts -/

theorem accountOf_eq (row : LedgerAccount) (d : Db) :
    accountOf row d.accounts = (accountAt row.key d).getD row := rfl

theorem find_opened (row : LedgerAccount) (as : List LedgerAccount) (key : Key) :
    (as ++ openedBy row as).find? (·.key = key) =
      if key = row.key then some (accountOf row as) else as.find? (·.key = key) := by
  rw [List.find?_append]
  by_cases h : ∃ a ∈ as, a.key = row.key
  · have hopened : openedBy row as = [] := if_pos h
    rw [hopened, List.find?_nil, Option.or_none]
    split_ifs with hkey
    · subst hkey
      unfold accountOf
      cases hf : as.find? (·.key = row.key) with
      | some a => rfl
      | none =>
        obtain ⟨a, ha, hk⟩ := h
        exact absurd (decide_eq_true hk) (List.find?_eq_none.mp hf a ha)
    · rfl
  · have hopened : openedBy row as = [row] := if_neg h
    rw [hopened, accountOf_new h]
    split_ifs with hkey
    · subst hkey
      have hnone : as.find? (·.key = row.key) = none :=
        List.find?_eq_none.mpr fun a ha hk => h ⟨a, ha, of_decide_eq_true hk⟩
      rw [hnone, Option.none_or]
      exact List.find?_cons_of_pos (decide_eq_true rfl)
    · rw [List.find?_cons_of_neg (by simpa using Ne.symm hkey), List.find?_nil, Option.or_none]

theorem find_withBalance (hids : (as.map (·.id)).Nodup) (hkeys : (as.map (·.key)).Nodup)
    (ha : a ∈ as) (b : Money) (key : Key) : (as.map (withBalance a.id b)).find? (·.key = key) =
      if key = a.key then some { a with balance := b } else as.find? (·.key = key) := by
  split_ifs with hkey
  · subst hkey
    rw [find_updated (fun _ => withBalance_key) hkeys ha, withBalance_self]
  · refine find_map (by simp) fun x hx hk => withBalance_of_ne fun e => hkey ?_
    rw [← hk, eq_of_key hids hx ha e]

/-- An account that is opened is the payer's or the merchant's, which was not there. -/
theorem mem_opened (ha : a ∈ (posting t i ids as).opened) :
    (a = payerRow t ids ∨ a = payeeRow i ids) ∧ ∀ b ∈ as, b.key ≠ a.key := by
  have hrow : ∀ row, a ∈ openedBy row as → a = row ∧ ∀ b ∈ as, b.key ≠ row.key := by
    intro row ha
    refine ⟨openedBy_key ha, fun b hb hk => ?_⟩
    unfold openedBy at ha
    rw [if_pos ⟨b, hb, hk⟩] at ha
    cases ha
  rcases List.mem_append.mp ha with ha | ha
  · obtain ⟨rfl, hk⟩ := hrow _ ha
    exact ⟨.inl rfl, hk⟩
  · obtain ⟨rfl, hk⟩ := hrow _ ha
    exact ⟨.inr rfl, hk⟩

/-- The accounts that a posting opens are new. -/
theorem newAccounts_posting (hd : Consistent d) (ht : t ∈ d.transactions) (hids : Fresh ids d) :
    NewAccounts d (posting t i ids d.accounts).opened := by
  have hnodup : ∀ {β : Type} (f : LedgerAccount → β), f (payerRow t ids) ≠ f (payeeRow i ids) →
      ((posting t i ids d.accounts).opened.map f).Nodup := by
    intro β f hne
    unfold posting openedBy
    split_ifs <;> simp [hne]
  refine ⟨hnodup _ hids.accounts, hnodup _ (payerKey_ne_payeeKey hd ht), fun a ha b hb => ?_,
    fun a ha => (mem_opened ha).2, fun a ha => ?_⟩
  · rcases (mem_opened ha).1 with rfl | rfl
    · exact hids.payer b hb
    · exact hids.payee b hb
  · rcases (mem_opened ha).1 with rfl | rfl <;> rfl

/-! ### After a success -/

theorem accountAt_opened (hd : Consistent d) (ht : t ∈ d.transactions) :
    (d.accounts ++ (posting t i ids d.accounts).opened).find? (·.key = key) =
      if key = payeeKey i then some (accountOf (payeeRow i ids) d.accounts)
      else if key = payerKey t then some (accountOf (payerRow t ids) d.accounts)
      else accountAt key d := by
  have h := find_opened (payeeRow i ids) (d.accounts ++ openedBy (payerRow t ids) d.accounts) key
  rw [(payee_append i ids hd ht).1, (payee_append i ids hd ht).2, find_opened,
    List.append_assoc] at h
  exact h

/-- **The accounts after a success.** -/
theorem accountAt_settled (hd : Consistent d) (ht : t ∈ d.transactions) (hids : Fresh ids d) :
    accountAt key (settled t i .paymentSuccess ids d) =
      if key = payeeKey i then
        some (deposited i.amount (accountOf (payeeRow i ids) d.accounts))
      else if key = payerKey t then
        some (deposited i.amount (accountOf (payerRow t ids) d.accounts))
      else accountAt key d := by
  have hnew := newAccounts_posting (i := i) hd ht hids
  have hnodup := nodup_opened_ids hd.keys hnew
  have hkeys := nodup_opened_keys hd.keys hnew
  obtain ⟨hpayer, hpayee⟩ := mem_posting i ids hd ht
  have hne : (posting t i ids d.accounts).payee.key ≠ (posting t i ids d.accounts).payer.key := by
    intro e
    exact payerKey_ne_payeeKey hd ht (accountOf_key.symm.trans (e.symm.trans accountOf_key))
  -- the second update finds the payee as it was
  have hpayee' : (posting t i ids d.accounts).payee ∈
      (d.accounts ++ (posting t i ids d.accounts).opened).map
        (withBalance (posting t i ids d.accounts).payer.id
          (posting t i ids d.accounts).payerBalance) := by
    refine List.mem_map.mpr ⟨_, hpayee, withBalance_of_ne fun e => hne ?_⟩
    rw [eq_of_key hnodup hpayee hpayer e]
  have hfind := find_withBalance (by rw [map_key (by simp)]; exact hnodup)
    (by rw [map_key (by simp)]; exact hkeys) hpayee' (posting t i ids d.accounts).payeeBalance key
  rw [find_withBalance hnodup hkeys hpayer, accountAt_opened hd ht] at hfind
  have hkp : (posting t i ids d.accounts).payer.key = payerKey t := accountOf_key
  have hkq : (posting t i ids d.accounts).payee.key = payeeKey i := accountOf_key
  rw [hkp, hkq] at hfind
  refine hfind.trans ?_
  split_ifs <;> rfl

/-- An account keeps its key. -/
theorem keyOf_settled (hd : Consistent d) (ht : t ∈ d.transactions) (hids : Fresh ids d)
    (ha : a ∈ d.accounts ++ (posting t i ids d.accounts).opened) :
    keyOf a.id (settled t i .paymentSuccess ids d) = some a.key := by
  have hnodup := nodup_opened_ids hd.keys (newAccounts_posting (i := i) hd ht hids)
  have hstep : ∀ (as : List LedgerAccount) (x : UUID) (b : Money),
      ((as.map (withBalance x b)).find? (·.id = a.id)).map (·.key) =
        (as.find? (·.id = a.id)).map (·.key) := by
    intro as x b
    have hf : (fun y : LedgerAccount => decide (y.id = a.id)) ∘ withBalance x b =
        fun y => decide (y.id = a.id) := by
      funext y
      simp
    rw [List.find?_map, hf, Option.map_map]
    congr 1
    funext y
    simp
  unfold keyOf settled
  simp only [Posting.accounts]
  rw [hstep, hstep, find_key hnodup ha]
  rfl

/-- The entries on the account of the key. -/
def entriesAt (key : Key) (d : Db) : List LedgerEntry :=
  d.entries.filter fun e => keyOf e.accountId d = some key

theorem keyOf_mem (hd : Consistent d) (ha : a ∈ d.accounts) : keyOf a.id d = some a.key := by
  unfold keyOf
  rw [find_key hd.keys.accounts ha]
  rfl

/-- The accounts of the entries keep their keys. -/
theorem keyOf_entry (hd : Consistent d) (ht : t ∈ d.transactions) (hids : Fresh ids d)
    {e : LedgerEntry} (he : e ∈ d.entries) :
    keyOf e.accountId (settled t i .paymentSuccess ids d) = keyOf e.accountId d := by
  obtain ⟨a, ha, hae⟩ := hd.keys.account_of e he
  rw [← hae, keyOf_mem hd ha, keyOf_settled hd ht hids (List.mem_append_left _ ha)]

/-- The debit of the payer. -/
def debitOf (t : Transaction) (i : PaymentIntent) (ids : CallbackIds) (d : Db) : LedgerEntry :=
  ⟨ids.debitEntryId, (accountOf (payerRow t ids) d.accounts).id, t.id, i.amount, .debit,
    defaultCurrency⟩

/-- The credit of the merchant. -/
def creditOf (t : Transaction) (i : PaymentIntent) (ids : CallbackIds) (d : Db) : LedgerEntry :=
  ⟨ids.creditEntryId, (accountOf (payeeRow i ids) d.accounts).id, t.id, i.amount, .credit,
    defaultCurrency⟩

/-- **The entries after a success.** -/
theorem entriesAt_settled (hd : Consistent d) (ht : t ∈ d.transactions) (hids : Fresh ids d) :
    entriesAt key (settled t i .paymentSuccess ids d) = entriesAt key d ++
      ((if payerKey t = key then [debitOf t i ids d] else []) ++
        if payeeKey i = key then [creditOf t i ids d] else []) := by
  obtain ⟨hpayer, hpayee⟩ := mem_posting i ids hd ht
  have hdebit := keyOf_settled (i := i) hd ht hids hpayer
  have hcredit := keyOf_settled (i := i) hd ht hids hpayee
  have hkp : (posting t i ids d.accounts).payer.key = payerKey t := accountOf_key
  have hkq : (posting t i ids d.accounts).payee.key = payeeKey i := accountOf_key
  have hold : (d.entries.filter fun e =>
      keyOf e.accountId (settled t i .paymentSuccess ids d) = some key) = entriesAt key d :=
    List.filter_congr fun e he => by rw [keyOf_entry hd ht hids he]
  change (d.entries ++ (posting t i ids d.accounts).entries t i).filter _ = _
  rw [List.filter_append, hold]
  unfold Posting.entries
  simp only [List.filter_cons, List.filter_nil, hdebit, hcredit, hkp, hkq, Option.some.injEq,
    decide_eq_true_eq]
  split_ifs <;> rfl

/-! ### The ids that are drawn -/

/-- The ids that the callback may give to an account. -/
def accountIds (ids : CallbackIds) : List UUID := [ids.payerAccountId, ids.merchantAccountId]

/-- The ids that it may give to an entry. -/
def entryIds (ids : CallbackIds) : List UUID := [ids.debitEntryId, ids.creditEntryId]

theorem account_settled (ha : a ∈ (settled t i event ids d).accounts) :
    (∃ b ∈ d.accounts, b.id = a.id) ∨ a.id ∈ accountIds ids := by
  cases event with
  | paymentFailed => exact .inl ⟨a, ha, rfl⟩
  | paymentSuccess =>
    obtain ⟨b, hb, rfl⟩ := Posting.mem_accounts.mp ha
    rw [withBalance_id, withBalance_id]
    rcases List.mem_append.mp hb with hb | hb
    · exact .inl ⟨b, hb, rfl⟩
    · rcases (mem_opened hb).1 with rfl | rfl
      · exact .inr List.mem_cons_self
      · exact .inr (List.mem_cons_of_mem _ List.mem_cons_self)

theorem entry_settled {e : LedgerEntry} (he : e ∈ (settled t i event ids d).entries) :
    e ∈ d.entries ∨ e.id ∈ entryIds ids := by
  cases event with
  | paymentFailed => exact .inl he
  | paymentSuccess =>
    refine (List.mem_append.mp he).imp_right fun he => ?_
    simp only [Posting.entries, List.mem_cons, List.not_mem_nil, or_false] at he
    rcases he with rfl | rfl
    · exact List.mem_cons_self
    · exact List.mem_cons_of_mem _ List.mem_cons_self

/-- Ids that are new stay so while others are drawn. -/
theorem fresh_settled {ids' : CallbackIds} (h : Fresh ids' d)
    (haccounts : (accountIds ids).Disjoint (accountIds ids'))
    (hentries : (entryIds ids).Disjoint (entryIds ids')) :
    Fresh ids' (settled t i event ids d) := by
  have hacc : ∀ id ∈ accountIds ids', (∀ a ∈ d.accounts, a.id ≠ id) →
      ∀ a ∈ (settled t i event ids d).accounts, a.id ≠ id := by
    intro id hid hold a ha e
    rcases account_settled ha with ⟨b, hb, hba⟩ | hin
    · exact hold b hb (hba.trans e)
    · exact haccounts hin (e ▸ hid)
  have hent : ∀ id ∈ entryIds ids', (∀ e ∈ d.entries, e.id ≠ id) →
      ∀ e ∈ (settled t i event ids d).entries, e.id ≠ id := by
    intro id hid hold e he heq
    rcases entry_settled he with he | hin
    · exact hold e he heq
    · exact hentries hin (heq ▸ hid)
  exact ⟨hacc _ List.mem_cons_self h.payer,
    hacc _ (List.mem_cons_of_mem _ List.mem_cons_self) h.payee, h.accounts,
    hent _ List.mem_cons_self h.debit,
    hent _ (List.mem_cons_of_mem _ List.mem_cons_self) h.credit, h.entries⟩

end PaymentGateway.Specs.Accounts
