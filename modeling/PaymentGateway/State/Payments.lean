import PaymentGateway.State.Invariant

/-! # Balances and payments

The balance of an account is the total of the successful payments that it stands for: a payer's, of
those from its vpa, and a merchant's, of those to the merchant (`Funded`). Every change that the
services commit keeps this. -/

namespace PaymentGateway.State.Payments

open PaymentGateway.Core.Ids PaymentGateway.Models PaymentGateway.Db.Statements
open PaymentGateway.Db.Locking PaymentGateway.Lib.Tables PaymentGateway.State.Changes
open PaymentGateway.State.Invariant

/-- The payment of `i` comes from the vpa. -/
def From (vpa : String) (d : Db) (i : PaymentIntent) : Prop :=
  ∃ t ∈ d.transactions, t.intentId = i.id ∧ t.vpa = vpa

instance (vpa : String) (d : Db) : DecidablePred (From vpa d) := fun i =>
  inferInstanceAs (Decidable (∃ t ∈ d.transactions, t.intentId = i.id ∧ t.vpa = vpa))

/-- The total of the successful payments of a class, in units of `10 ^ -4`. -/
def paid (c : PaymentIntent → Prop) [DecidablePred c] (d : Db) : ℤ :=
  ((d.intents.filter fun i => i.status = .success ∧ c i).map (·.amount.units)).sum

def paidFrom (vpa : String) (d : Db) : ℤ := paid (From vpa d) d

def paidTo (merchantId : UUID) (d : Db) : ℤ := paid (·.merchantId = merchantId) d

/-- The account stands for the payment of `i`. -/
def Owed (d : Db) (a : LedgerAccount) (i : PaymentIntent) : Prop :=
  (a.accountType = .virtual ∧ From a.identifier d i) ∨ IsPayee i a

instance (d : Db) (a : LedgerAccount) : DecidablePred (Owed d a) := fun _ =>
  inferInstanceAs (Decidable (_ ∨ (_ ∧ _)))

/-- The total of the successful payments that the account stands for. -/
def owed (a : LedgerAccount) (d : Db) : ℤ := paid (Owed d a) d

/-- Every balance is the total of its payments; where there is no account there are none. -/
structure Funded (d : Db) : Prop where
  balance : ∀ a ∈ d.accounts, a.balance.units = owed a d
  none : ∀ a : LedgerAccount, (∀ b ∈ d.accounts, b.accountType = a.accountType →
    b.identifier ≠ a.identifier) → owed a d = 0

theorem funded_empty (ms : List Merchant) : Funded (Db.empty ms) :=
  ⟨fun _ ha => (by cases ha), fun _ _ => rfl⟩

variable {d d' : Db} {t : Transaction} {i : PaymentIntent} {p : Posting} {a b : LedgerAccount}

/-- Classes of the same payments have one total. -/
theorem paid_congr {c c' : PaymentIntent → Prop} [DecidablePred c] [DecidablePred c']
    (h : ∀ i ∈ d.intents, c i ↔ c' i) : paid c d = paid c' d := by
  have hsame : d.intents.filter (fun i => i.status = .success ∧ c i) =
      d.intents.filter fun i => i.status = .success ∧ c' i :=
    List.filter_congr fun i hi => decide_eq_decide.mpr (and_congr_right fun _ => h i hi)
  exact congrArg (fun js => (js.map (·.amount.units)).sum) hsame

/-- Only the type and the identifier matter. -/
theorem owed_congr (htype : a.accountType = b.accountType) (hident : a.identifier = b.identifier)
    (d : Db) : owed a d = owed b d :=
  paid_congr fun i _ => by unfold Owed IsPayee; rw [htype, hident]

/-! ### Steps that pay nothing -/

theorem owed_ordered (h : Ordered i d d') (a : LedgerAccount) : owed a d' = owed a d := by
  obtain rfl := h.db
  unfold owed paid
  rw [filter_append_of_neg fun hc => by rw [h.created] at hc; cases hc.1]
  rfl

/-- An intent that is not successful takes another status than SUCCESS. -/
theorem owed_update {status : PaymentStatus} {ts : List Transaction} (k : Keys d)
    (hi : i ∈ d.intents) (hold : i.status ≠ .success) (hnew : status ≠ .success)
    (hfrom : ∀ j ∈ d.intents, j.id ≠ i.id →
      (Owed { d with transactions := ts } a j ↔ Owed d a j)) :
    owed a { d with
      intents := d.intents.map (withStatus i.id status)
      transactions := ts } = owed a d := by
  unfold owed paid
  have hsame : (d.intents.map (withStatus i.id status)).filter
      (fun j => j.status = .success ∧ Owed { d with transactions := ts } a j) =
      d.intents.filter fun j => j.status = .success ∧ Owed d a j := by
    refine filter_map_fixed (fun j hj => ?_) fun j hj hs => ?_
    · by_cases hid : j.id = i.id
      · obtain rfl := eq_of_key k.intents hj hi hid
        rw [withStatus_self]
        exact ⟨fun hc => absurd hc.1 hnew, fun hc => absurd hc.1 hold⟩
      · rw [withStatus_of_ne hid, hfrom j hj hid]
    · refine withStatus_of_ne fun hid => hold ?_
      rw [← eq_of_key k.intents hj hi hid]
      exact hs.1
  exact congrArg (fun js => (js.map (·.amount.units)).sum) hsame

theorem from_append {vpa : String} (h : t.intentId ≠ i.id) :
    From vpa { d with transactions := d.transactions ++ [t] } i ↔ From vpa d i := by
  refine ⟨fun ⟨u, hu, hui, hv⟩ => ?_, fun ⟨u, hu, hui, hv⟩ =>
    ⟨u, List.mem_append_left _ hu, hui, hv⟩⟩
  rcases List.mem_append.mp hu with hu | hu
  · exact ⟨u, hu, hui, hv⟩
  · rw [List.mem_singleton.mp hu] at hui
    exact absurd hui h

theorem from_withState {vpa : String} {id : UUID} {state : TransactionState} :
    From vpa { d with transactions := d.transactions.map (withState id state) } i ↔
      From vpa d i := by
  refine ⟨fun ⟨u', hu', hui, hv⟩ => ?_, fun ⟨u, hu, hui, hv⟩ =>
    ⟨_, List.mem_map_of_mem hu, by rw [withState_intentId, hui], by rw [withState_vpa, hv]⟩⟩
  obtain ⟨u, hu, rfl⟩ := List.mem_map.mp hu'
  rw [withState_intentId] at hui
  rw [withState_vpa] at hv
  exact ⟨u, hu, hui, hv⟩

theorem owed_initiated (k : Keys d) (h : Initiated t i d d') (a : LedgerAccount) :
    owed a d' = owed a d := by
  obtain rfl := h.db
  refine owed_update k h.intent (by rw [h.created]; decide) (by decide) fun j _ hid => ?_
  have hne : t.intentId ≠ j.id := fun e => hid (e.symm.trans h.intentId)
  exact or_congr_left (and_congr_right fun _ => from_append hne)

theorem owed_failed (k : Keys d) (h : Failed t i d d') (a : LedgerAccount) :
    owed a d' = owed a d := by
  obtain rfl := h.db
  refine owed_update k h.intent (by rw [h.processing]; decide) (by decide) fun j _ _ => ?_
  exact or_congr_left (and_congr_right fun _ => from_withState)

/-! ### A success -/

/-- The account stands for the payment of `t`. -/
theorem owed_iff (c : Coupled d) (h : Open t i d) :
    Owed d a i ↔ IsPayer t a ∨ IsPayee i a := by
  refine or_congr_left (and_congr_right fun _ => ⟨fun ⟨u, hu, hui, hv⟩ => ?_, fun hv =>
    ⟨t, h.txn, h.intentId.symm, hv.symm⟩⟩)
  rw [eq_of_key c.one hu h.txn (hui.trans h.intentId)] at hv
  exact hv.symm

/-- What a payment counts for an account. -/
def share (a : LedgerAccount) (d : Db) (i : PaymentIntent) : ℤ :=
  if i.status = .success ∧ Owed d a i then i.amount.units else 0

theorem owed_eq (a : LedgerAccount) (d : Db) : owed a d = (d.intents.map (share a d)).sum :=
  sum_filter

/-- A success adds the amount to what its two accounts stand for. -/
theorem owed_succeeded (k : Keys d) (h : Succeeded t i p d d') (a : LedgerAccount) :
    owed a d' = owed a d + if Owed d a i then i.amount.units else 0 := by
  have hintents : d'.intents = d.intents.map (withStatus i.id .success) := by rw [h.db]
  have howed : ∀ j, Owed d' a j ↔ Owed d a j := fun j => by
    rw [h.db]
    exact or_congr_left (and_congr_right fun _ => from_withState)
  have hother : ∀ j ∈ d.intents, j ≠ i →
      share a d' (withStatus i.id .success j) = share a d j := fun j hj hne => by
    rw [withStatus_of_ne fun e => hne (eq_of_key k.intents hj h.intent e)]
    simp only [share, howed]
  have hnew : share a d' (withStatus i.id .success i) =
      if Owed d a i then i.amount.units else 0 := by
    rw [withStatus_self]
    simp only [share, howed, true_and]
    rfl
  have hold : share a d i = 0 := if_neg fun hc => by rw [h.processing] at hc; cases hc.1
  calc owed a d' = (d.intents.map fun j => share a d' (withStatus i.id .success j)).sum := by
        rw [owed_eq, hintents, List.map_map]; rfl
    _ = (d.intents.map (share a d)).sum + (share a d' (withStatus i.id .success i) - share a d i) :=
        sum_map_update (List.Nodup.of_map _ k.intents) h.intent hother
    _ = owed a d + if Owed d a i then i.amount.units else 0 := by
        rw [hnew, hold, sub_zero, owed_eq]

/-! ### The invariant -/

theorem Funded.kept (h : Funded d) (hacc : d'.accounts = d.accounts)
    (howed : ∀ a, owed a d' = owed a d) : Funded d' :=
  ⟨fun a ha => by rw [howed]; exact h.balance a (hacc ▸ ha),
    fun a ha => by rw [howed]; exact h.none a (hacc ▸ ha)⟩

/-- An account that is opened stands for nothing yet. -/
theorem Funded.opened (h : Funded d) (c : Chart d) (hs : Succeeded t i p d d')
    (hb : b ∈ d.accounts ++ p.opened) : b.balance.units = owed b d := by
  rcases List.mem_append.mp hb with hb | hb
  · exact h.balance b hb
  · have hmade := hs.opened.made b hb
    rw [h.none b fun x hx _ hident => hs.opened.keys_new b hb x hx (Prod.ext hident ?_), hmade]
    · rfl
    · exact (c.currency x hx).trans (by rw [hmade]; rfl)

/-- There is one account of an identifier. -/
theorem opened_inj (hd : Consistent d) (hs : Succeeded t i p d d') (ha : a ∈ d.accounts ++ p.opened)
    (hb : b ∈ d.accounts ++ p.opened) (h : a.identifier = b.identifier) : a = b := by
  have hcurrency := fun x hx => (hd.chart.opened hs.txn hs.opened hs.openedFor (a := x) hx).1
  exact eq_of_key (nodup_opened_keys hd.keys hs.opened) ha hb
    (Prod.ext h ((hcurrency a ha).trans (hcurrency b hb).symm))

theorem Funded.balance_succeeded (h : Funded d) (hd : Consistent d) (hs : Succeeded t i p d d')
    (ha : a ∈ d'.accounts) : a.balance.units = owed a d' := by
  have hne := payer_ne_payee hd.keys hs
  rw [hs.db] at ha
  obtain ⟨b, hb, rfl⟩ := Posting.mem_accounts.mp ha
  have hbal := h.opened hd.chart hs hb
  rw [owed_congr (b := b) (by simp) (by simp), owed_succeeded hd.keys hs]
  have howed : Owed d b i ↔ IsPayer t b ∨ IsPayee i b := owed_iff hd.coupled hs.toOpen
  by_cases hpayer : b = p.payer
  · subst hpayer
    rw [withBalance_self, withBalance_of_ne (by exact hne), if_pos (howed.mpr (.inl hs.payer)),
      ← hbal]
    exact hs.payerBalance
  by_cases hpayee : b = p.payee
  · subst hpayee
    rw [withBalance_of_ne (Ne.symm hne), withBalance_self, if_pos (howed.mpr (.inr hs.payee)),
      ← hbal]
    exact hs.payeeBalance
  have hids := nodup_opened_ids hd.keys hs.opened
  have hnone : ¬ (IsPayer t b ∨ IsPayee i b) := by
    rintro (hb' | hb')
    · exact hpayer (opened_inj hd hs hb hs.payer_mem (hb'.2.trans hs.payer.2.symm))
    · exact hpayee (opened_inj hd hs hb hs.payee_mem (hb'.2.trans hs.payee.2.symm))
  rw [withBalance_of_ne fun e => hpayer (eq_of_key hids hb hs.payer_mem e),
    withBalance_of_ne fun e => hpayee (eq_of_key hids hb hs.payee_mem e),
    if_neg fun ho => hnone (howed.mp ho), add_zero]
  exact hbal

theorem Funded.none_succeeded (h : Funded d) (hd : Consistent d) (hs : Succeeded t i p d d')
    (ha : ∀ b ∈ d'.accounts, b.accountType = a.accountType → b.identifier ≠ a.identifier) :
    owed a d' = 0 := by
  have hold : ∀ b ∈ d.accounts ++ p.opened, b.accountType = a.accountType →
      b.identifier ≠ a.identifier := fun b hb htype hident => by
    obtain ⟨b', hb', -, htype', hident'⟩ := Posting.exists_account hb
    exact ha b' (by rw [hs.db]; exact hb') (htype'.trans htype) (hident'.trans hident)
  have hnone : ¬ (IsPayer t a ∨ IsPayee i a) := by
    rintro (ha' | ha')
    · exact hold _ hs.payer_mem (hs.payer.1.trans ha'.1.symm) (hs.payer.2.trans ha'.2.symm)
    · exact hold _ hs.payee_mem (hs.payee.1.trans ha'.1.symm) (hs.payee.2.trans ha'.2.symm)
  rw [owed_succeeded hd.keys hs, if_neg fun ho => hnone ((owed_iff hd.coupled hs.toOpen).mp ho),
    add_zero]
  exact h.none a fun b hb => hold b (List.mem_append_left _ hb)

theorem Funded.change (h : Funded d) (hd : Consistent d) (hc : Change d d') : Funded d' := by
  cases hc with
  | ordered hc => exact h.kept (by rw [hc.db]) (owed_ordered hc)
  | initiated hc => exact h.kept (by rw [hc.db]) (owed_initiated hd.keys hc)
  | failed hc => exact h.kept (by rw [hc.db]) (owed_failed hd.keys hc)
  | succeeded hs =>
    exact ⟨fun _ ha => h.balance_succeeded hd hs ha, fun _ ha => h.none_succeeded hd hs ha⟩

/-! ### Payment by payment -/

/-- What a payment is worth: the amount of its intent. -/
def worth (d : Db) (t : Transaction) : ℤ :=
  ((d.intents.find? (·.id = t.intentId)).map (·.amount.units)).getD 0

/-- The payment succeeded, and the account is its payer's or its merchant's. -/
def Counts (d : Db) (a : LedgerAccount) (t : Transaction) : Prop :=
  t.state = .success ∧ (IsPayer t a ∨ ∃ i ∈ d.intents, i.id = t.intentId ∧ IsPayee i a)

instance (d : Db) (a : LedgerAccount) : DecidablePred (Counts d a) := fun t =>
  inferInstanceAs (Decidable (_ ∧ ((_ ∧ _) ∨ ∃ i ∈ d.intents, i.id = t.intentId ∧ (_ ∧ _))))

/-- The total of the payments that succeeded and are the account's. An order may be paid twice. -/
def received (d : Db) (a : LedgerAccount) : ℤ :=
  ((d.transactions.filter (Counts d a)).map (worth d)).sum

/-- What the entries of a payment add to an account. -/
theorem sum_entriesOf (h : Balanced d) (ha : a ∈ d.accounts) (ht : t ∈ d.transactions) :
    ((entriesOf d t).map fun e => if e.accountId = a.id then e.amount.units else 0).sum =
      if Counts d a t then worth d t else 0 := by
  by_cases hs : t.state = .success
  · obtain ⟨i, hi, hit⟩ := h.keys.intent_of t ht
    obtain ⟨x, y, hxy, ⟨-, hx, -, b, hb, hbx, hpayer⟩, ⟨-, hy, -, c, hc, hcy, hpayee⟩⟩ :=
      h.posted.pair t ht hs i hi hit
    have hworth : worth d t = i.amount.units := by
      have hfind : d.intents.find? (·.id = i.id) = some i := find_key h.keys.intents hi
      rw [hit] at hfind
      unfold worth
      rw [hfind]
      rfl
    -- an account is determined by its identifier, since there is one currency
    have hsame : ∀ b ∈ d.accounts, b.identifier = a.identifier → b = a := fun b hb he =>
      eq_of_key h.keys.accountKeys hb ha
        (Prod.ext he ((h.chart.currency b hb).trans (h.chart.currency a ha).symm))
    have hpayerId : x.accountId = a.id ↔ IsPayer t a := by
      rw [← hbx]
      refine ⟨fun e => eq_of_key h.keys.accounts hb ha e ▸ hpayer, fun hp => ?_⟩
      rw [hsame b hb (hpayer.2.trans hp.2.symm)]
    have hpayeeId : y.accountId = a.id ↔ IsPayee i a := by
      rw [← hcy]
      refine ⟨fun e => eq_of_key h.keys.accounts hc ha e ▸ hpayee, fun hp => ?_⟩
      rw [hsame c hc (hpayee.2.trans hp.2.symm)]
    have hcounts : Counts d a t ↔ IsPayer t a ∨ IsPayee i a := by
      refine ⟨fun ⟨_, ho⟩ => ho.imp id fun ⟨j, hj, hjt, hp⟩ => ?_, fun ho =>
        ⟨hs, ho.imp id fun hp => ⟨i, hi, hit, hp⟩⟩⟩
      rw [eq_of_key h.keys.intents hi hj (hit.trans hjt.symm)]
      exact hp
    have hboth : IsPayer t a → ¬ IsPayee i a := fun hp hq => by cases hp.1.symm.trans hq.1
    rw [hxy, hworth]
    simp only [List.map_cons, List.map_nil, List.sum_cons, List.sum_nil, hx, hy, add_zero]
    by_cases hp : IsPayer t a
    · rw [if_pos (hpayerId.mpr hp), if_neg (mt hpayeeId.mp (hboth hp)),
        if_pos (hcounts.mpr (.inl hp)), add_zero]
    · rw [if_neg (mt hpayerId.mp hp), zero_add]
      by_cases hq : IsPayee i a
      · rw [if_pos (hpayeeId.mpr hq), if_pos (hcounts.mpr (.inr hq))]
      · rw [if_neg (mt hpayeeId.mp hq), if_neg fun hc => (hcounts.mp hc).elim hp hq]
  · rw [h.posted.none t ht hs, if_neg fun hc => hs hc.1]
    rfl

/-- **Balances are a view of the payments**: what is on an account is what the payments add up to. -/
theorem balance_received (h : Balanced d) (ha : a ∈ d.accounts) :
    a.balance.units = received d a := by
  have hrefs : ∀ e ∈ d.entries, ∃ t ∈ d.transactions, t.id = e.transactionId := h.posted.txn_of
  calc a.balance.units = posted d a.id := h.posted.balance a ha
    _ = (d.entries.map fun e => if e.accountId = a.id then e.amount.units else 0).sum := sum_filter
    _ = (d.transactions.map fun t => ((entriesOf d t).map fun e =>
          if e.accountId = a.id then e.amount.units else 0).sum).sum :=
        sum_by_key h.keys.transactions hrefs _
    _ = (d.transactions.map fun t => if Counts d a t then worth d t else 0).sum :=
        congrArg List.sum (List.map_congr_left fun t ht => sum_entriesOf h ha ht)
    _ = received d a := sum_filter.symm

end PaymentGateway.State.Payments
