import PaymentGateway.Lib.Commutation
import PaymentGateway.Specs.Accounts
import Mathlib.Data.Multiset.Basic

/-! # The books

What the callbacks keep, less the ids of the accounts: the intents and transactions, a balance for
each identifier and currency, and the entries in no order, each with the key of its account. A
callback acts on the books by itself (`Book.serve`), with sums that never leave their range, and what
`process_bank_callback` does to a reachable database is just this as long as the balances fit
(`serve_book`). On the books, callbacks of different references commute. -/

namespace PaymentGateway.Specs.Books

open PaymentGateway.Core.Ids PaymentGateway.Models PaymentGateway.Schemas
open PaymentGateway.Lib.DecimalArith PaymentGateway.Lib.Tables PaymentGateway.Lib.Commutation
open PaymentGateway.Db.Statements PaymentGateway.Services.Webhook PaymentGateway.Outlines.Webhook
open PaymentGateway.State.Changes PaymentGateway.State.Invariant PaymentGateway.Runs.Serial
open PaymentGateway.Specs.Callback PaymentGateway.Specs.Accounts

/-! ### Books -/

/-- An entry, with the key of its account. -/
structure Line where
  id : UUID
  account : Option Key
  transactionId : UUID
  amount : Money
  entryType : EntryType
  currency : String

@[ext]
structure Book where
  intents : List PaymentIntent
  transactions : List Transaction
  balances : Key → Option ℤ
  lines : Multiset Line

def line (d : Db) (e : LedgerEntry) : Line :=
  ⟨e.id, keyOf e.accountId d, e.transactionId, e.amount, e.entryType, e.currency⟩

/-- The books of a database. -/
def book (d : Db) : Book where
  intents := d.intents
  transactions := d.transactions
  balances key := (accountAt key d).map (·.balance.units)
  lines := (d.entries.map (line d) : List Line)

/-! ### A callback on the books -/

/-- `amount` is added to the balance of the key. -/
def deposit (key : Key) (amount : ℤ) (balances : Key → Option ℤ) : Key → Option ℤ :=
  Function.update balances key (some ((balances key).getD 0 + amount))

/-- The debit and the credit. -/
def posted (t : Transaction) (i : PaymentIntent) (ids : CallbackIds) : List Line :=
  [⟨ids.debitEntryId, some (payerKey t), t.id, i.amount, .debit, defaultCurrency⟩,
   ⟨ids.creditEntryId, some (payeeKey i), t.id, i.amount, .credit, defaultCurrency⟩]

/-- The books after a callback that is applied. -/
def Book.settle (t : Transaction) (i : PaymentIntent) (event : BankCallbackEvent) (ids : CallbackIds)
    (b : Book) : Book where
  intents := b.intents.map (withStatus i.id (targetIntent event))
  transactions := b.transactions.map (withState t.id (targetTxn event))
  balances := if event = .paymentSuccess then
      deposit (payeeKey i) i.amount.units (deposit (payerKey t) i.amount.units b.balances)
    else b.balances
  lines := if event = .paymentSuccess then b.lines + posted t i ids else b.lines

/-- How the callback is answered. -/
def answer (t : Transaction) (i : PaymentIntent) (event : BankCallbackEvent) (amount : Decimal) :
    Except Exc CallbackResult :=
  match verdict t i event amount with
  | .refused exc => .error exc
  | .replayed => .ok (replayedResult t)
  | .applied =>
    if event = .paymentSuccess ∧ 128 < t.vpa.length then .error .dataError
    else .ok (settledResult t i event)

/-- The callback settles the payment. -/
def Settling (t : Transaction) (i : PaymentIntent) (event : BankCallbackEvent) (amount : Decimal) :
    Prop :=
  verdict t i event amount = .applied ∧ (event = .paymentSuccess → t.vpa.length ≤ 128)

instance (t : Transaction) (i : PaymentIntent) (event : BankCallbackEvent) (amount : Decimal) :
    Decidable (Settling t i event amount) := inferInstanceAs (Decidable (_ ∧ _))

/-- The transaction of the reference, and its intent. -/
def Book.lookup (psp : String) (b : Book) : Option (Transaction × PaymentIntent) := do
  let t ← b.transactions.find? (·.pspReference = some psp)
  let i ← b.intents.find? (·.id = t.intentId)
  return (t, i)

/-- **The callback on the books.** -/
def Book.serve (c : BankCallback) (b : Book) : Except Exc CallbackResult × Book :=
  match b.lookup c.pspReference with
  | none => (.error (.transactionNotFound c.pspReference), b)
  | some (t, i) => (answer t i c.event c.amount,
      if Settling t i c.event c.amount then b.settle t i c.event c.ids else b)

variable {d : Db} {b : Book} {t u : Transaction} {i j : PaymentIntent} {ids : CallbackIds}
  {psp : String} {event : BankCallbackEvent} {amount : Decimal} {key : Key} {c c' : BankCallback}

theorem outcome_eq (t : Transaction) (i : PaymentIntent) (event : BankCallbackEvent)
    (amount : Decimal) (ids : CallbackIds) (d : Db) : outcome t i event amount ids d =
      (answer t i event amount, if Settling t i event amount then settled t i event ids d else d) := by
  unfold outcome answer
  cases hv : verdict t i event amount with
  | refused exc =>
    have hs : ¬ Settling t i event amount := fun hc => by cases hv.symm.trans hc.1
    simp only [if_neg hs]
  | replayed =>
    have hs : ¬ Settling t i event amount := fun hc => by cases hv.symm.trans hc.1
    simp only [if_neg hs]
  | applied =>
    by_cases h : event = .paymentSuccess ∧ 128 < t.vpa.length
    · have hs : ¬ Settling t i event amount := fun hc => absurd (hc.2 h.1) (Nat.not_le.mpr h.2)
      simp only [if_pos h, if_neg hs]
    · have hs : Settling t i event amount :=
        ⟨hv, fun he => Nat.not_lt.mp fun hl => h ⟨he, hl⟩⟩
      simp only [if_neg h, if_pos hs]

/-! ### The books of a database after a callback -/

theorem balance_accountOf (row : LedgerAccount) (h0 : row.balance.units = 0) :
    (accountOf row d.accounts).balance.units = ((book d).balances row.key).getD 0 := by
  have hb : (book d).balances row.key = (accountAt row.key d).map (·.balance.units) := rfl
  rw [accountOf_eq, hb]
  cases accountAt row.key d with
  | none => exact h0
  | some a => rfl

theorem balances_settled (hd : Consistent d) (ht : t ∈ d.transactions) (hids : Fresh ids d)
    (hr : InRange t i d) : (book (settled t i .paymentSuccess ids d)).balances =
      deposit (payeeKey i) i.amount.units (deposit (payerKey t) i.amount.units (book d).balances) := by
  have hne : payeeKey i ≠ payerKey t := (payerKey_ne_payeeKey hd ht).symm
  have hpayer : (deposited i.amount (accountOf (payerRow t ids) d.accounts)).balance.units =
      ((book d).balances (payerKey t)).getD 0 + i.amount.units :=
    (addMoney_units (payer_inRange ids hd ht hr)).trans
      (congrArg (· + i.amount.units) (balance_accountOf (payerRow t ids) rfl))
  have hpayee : (deposited i.amount (accountOf (payeeRow i ids) d.accounts)).balance.units =
      ((book d).balances (payeeKey i)).getD 0 + i.amount.units :=
    (addMoney_units (payee_inRange ids hd hr)).trans
      (congrArg (· + i.amount.units) (balance_accountOf (payeeRow i ids) rfl))
  funext key
  change (accountAt key (settled t i .paymentSuccess ids d)).map (·.balance.units) = _
  rw [accountAt_settled hd ht hids]
  unfold deposit
  by_cases hkey : key = payeeKey i
  · subst hkey
    rw [if_pos rfl, Function.update_self, Function.update_of_ne hne]
    exact congrArg some hpayee
  rw [if_neg hkey, Function.update_of_ne hkey]
  by_cases hkey : key = payerKey t
  · subst hkey
    rw [if_pos rfl, Function.update_self]
    exact congrArg some hpayer
  · rw [if_neg hkey, Function.update_of_ne hkey]
    rfl

theorem lines_settled (hd : Consistent d) (ht : t ∈ d.transactions) (hids : Fresh ids d) :
    (book (settled t i .paymentSuccess ids d)).lines = (book d).lines + posted t i ids := by
  obtain ⟨hpayer, hpayee⟩ := mem_posting i ids hd ht
  have hold : d.entries.map (line (settled t i .paymentSuccess ids d)) = d.entries.map (line d) := by
    refine List.map_congr_left fun e he => ?_
    unfold line
    rw [keyOf_entry hd ht hids he]
  have hnew : ((posting t i ids d.accounts).entries t i).map
      (line (settled t i .paymentSuccess ids d)) = posted t i ids := by
    unfold Posting.entries line
    simp only [List.map_cons, List.map_nil]
    rw [keyOf_settled hd ht hids hpayer, keyOf_settled hd ht hids hpayee]
    unfold posting posted
    rw [accountOf_key, accountOf_key]
    rfl
  change (((d.entries ++ (posting t i ids d.accounts).entries t i).map
    (line (settled t i .paymentSuccess ids d)) : List Line) : Multiset Line) = _
  rw [List.map_append, hold, hnew, ← Multiset.coe_add]
  rfl

theorem book_settled (hd : Consistent d) (ht : t ∈ d.transactions)
    (hnew : event = .paymentSuccess → Fresh ids d ∧ InRange t i d) :
    book (settled t i event ids d) = (book d).settle t i event ids := by
  cases event with
  | paymentFailed => rfl
  | paymentSuccess =>
    obtain ⟨hids, hr⟩ := hnew rfl
    exact Book.ext rfl rfl (balances_settled hd ht hids hr) (lines_settled hd ht hids)

/-! ### The lookup -/

theorem lookup_of_found (hd : Reachable d) (h : Found psp t i d) :
    (book d).lookup psp = some (t, i) := by
  have ht := find_key hd.pspUnique h.txn
  have hi := find_key hd.consistent.keys.intents h.intent
  rw [h.psp] at ht
  rw [h.intentId] at hi
  unfold Book.lookup
  rw [show (book d).transactions = d.transactions from rfl, ht]
  change ((book d).intents.find? (·.id = t.intentId) >>= _) = _
  rw [show (book d).intents = d.intents from rfl, hi]
  rfl

theorem exists_found (hd : Reachable d) (ht : t ∈ d.transactions)
    (hpsp : t.pspReference = some psp) : ∃ i, Found psp t i d := by
  obtain ⟨i, hi, hit⟩ := hd.consistent.keys.intent_of t ht
  exact ⟨i, ht, hpsp, hi, hit⟩

/-- What the callback needs of the database. -/
def Postable (c : BankCallback) (d : Db) : Prop :=
  ∀ t i, Found c.pspReference t i d → Settling t i c.event c.amount → c.event = .paymentSuccess →
    InRange t i d

theorem mem_of_lookup (h : b.lookup psp = some (t, i)) :
    t ∈ b.transactions ∧ t.pspReference = some psp ∧ i ∈ b.intents ∧ i.id = t.intentId := by
  unfold Book.lookup at h
  obtain ⟨u, hu, h⟩ := Option.bind_eq_some_iff.mp h
  obtain ⟨j, hj, h⟩ := Option.bind_eq_some_iff.mp h
  cases h
  exact ⟨List.mem_of_find?_eq_some hu, by simpa using List.find?_some hu,
    List.mem_of_find?_eq_some hj, by simpa using List.find?_some hj⟩

theorem found_of_lookup (h : (book d).lookup psp = some (t, i)) : Found psp t i d := by
  obtain ⟨ht, hpsp, hi, hit⟩ := mem_of_lookup h
  exact ⟨ht, hpsp, hi, hit⟩

/-- A callback, alone, in terms of what its reference is in the books. -/
theorem serve_eq (hd : Reachable d) (hids : Fresh c.ids d) (hr : Postable c d) : c.serve d =
    match (book d).lookup c.pspReference with
    | none => (.error (.transactionNotFound c.pspReference), d)
    | some (t, i) => (answer t i c.event c.amount,
        if Settling t i c.event c.amount then settled t i c.event c.ids d else d) := by
  unfold BankCallback.serve
  cases hl : (book d).lookup c.pspReference with
  | none =>
    refine serve_unknown fun t ht hpsp => ?_
    obtain ⟨i, hf⟩ := exists_found hd ht hpsp
    cases hl.symm.trans (lookup_of_found hd hf)
  | some ti =>
    have hf : Found c.pspReference ti.1 ti.2 d := found_of_lookup hl
    exact (serve_reachable hd hf fun hv he hlen =>
      ⟨hids, hr _ _ hf ⟨hv, fun _ => hlen⟩ he⟩).trans (outcome_eq _ _ _ _ _ _)

/-- Every sum is small. -/
theorem postable_of_small (h : ∀ a ∈ d.accounts, ∀ i ∈ d.intents,
    (a.balance.units + i.amount.units).natAbs < 10 ^ 18) : Postable c d :=
  fun _ i hf _ _ a ha _ => h a ha i hf.intent

/-- **A callback, alone, acts on the books as it should.** -/
theorem serve_book (hd : Reachable d) (hids : Fresh c.ids d) (hr : Postable c d) :
    (c.serve d).1 = ((book d).serve c).1 ∧ book (c.serve d).2 = ((book d).serve c).2 := by
  rw [serve_eq hd hids hr]
  unfold Book.serve
  cases hl : (book d).lookup c.pspReference with
  | none => exact ⟨rfl, rfl⟩
  | some ti =>
    have hf : Found c.pspReference ti.1 ti.2 d := found_of_lookup hl
    refine ⟨rfl, ?_⟩
    dsimp only
    split_ifs with hs
    · exact book_settled hd.consistent hf.txn fun he => ⟨hids, hr _ _ hf hs he⟩
    · rfl

/-! ### Sound books -/

/-- An intent has one transaction, and nothing is negative. -/
structure Book.Sound (b : Book) : Prop where
  intents : (b.intents.map (·.id)).Nodup
  transactions : (b.transactions.map (·.id)).Nodup
  psp : (b.transactions.map (·.pspReference)).Nodup
  one : (b.transactions.map (·.intentId)).Nodup
  amounts : ∀ i ∈ b.intents, 0 ≤ i.amount.units
  balances : ∀ key, ∀ x ∈ b.balances key, 0 ≤ x

theorem sound_book (hd : Reachable d) : (book d).Sound := by
  have hc := hd.consistent
  refine ⟨hc.keys.intents, hc.keys.transactions, hd.pspUnique, hc.coupled.one,
    fun i hi => (hc.posted.amount_pos i hi).le, fun key x hx => ?_⟩
  obtain ⟨a, ha, rfl⟩ := Option.map_eq_some_iff.mp hx
  rw [hc.posted.balance a (List.mem_of_find?_eq_some ha)]
  exact posted_nonneg hc a

/-- A balance is not less after a deposit. -/
theorem le_deposit {balances : Key → Option ℤ} {x n : ℤ} (k : Key) (hn : 0 ≤ n)
    (hx : x ∈ balances key) : ∃ y ∈ deposit k n balances key, x ≤ y := by
  unfold deposit
  by_cases hk : key = k
  · subst hk
    rw [Function.update_self, Option.mem_def.mp hx]
    exact ⟨x + n, rfl, by simpa using hn⟩
  · rw [Function.update_of_ne hk]
    exact ⟨x, hx, le_rfl⟩

theorem deposit_nonneg {balances : Key → Option ℤ} {n : ℤ} (k : Key) (hn : 0 ≤ n)
    (h : ∀ key, ∀ x ∈ balances key, 0 ≤ x) : ∀ key, ∀ x ∈ deposit k n balances key, 0 ≤ x := by
  intro key x hx
  unfold deposit at hx
  by_cases hk : key = k
  · subst hk
    rw [Function.update_self] at hx
    cases hx
    cases hb : balances key with
    | none => simpa using hn
    | some y => exact add_nonneg (h key y hb) hn
  · rw [Function.update_of_ne hk] at hx
    exact h key x hx

/-- Every balance of `f` is there in `g`, and no less. -/
def Below (f g : Key → Option ℤ) : Prop := ∀ key, ∀ x ∈ f key, ∃ y ∈ g key, x ≤ y

theorem Below.le_deposit {f g : Key → Option ℤ} {n : ℤ} (h : Below f g) (k : Key) (hn : 0 ≤ n) :
    Below f (deposit k n g) := by
  intro key x hx
  obtain ⟨y, hy, hxy⟩ := h key x hx
  obtain ⟨z, hz, hyz⟩ := Books.le_deposit k hn hy
  exact ⟨z, hz, hxy.trans hyz⟩

theorem Below.deposit {f g : Key → Option ℤ} {n : ℤ} (h : Below f g) (k : Key)
    (hg : ∀ key, ∀ y ∈ g key, 0 ≤ y) : Below (deposit k n f) (deposit k n g) := by
  intro key x hx
  unfold Books.deposit at hx ⊢
  by_cases hk : key = k
  · subst hk
    rw [Function.update_self] at hx ⊢
    cases hx
    refine ⟨_, rfl, add_le_add_left ?_ n⟩
    cases hf : f key with
    | some x =>
      obtain ⟨y, hy, hxy⟩ := h key x hf
      rwa [Option.mem_def.mp hy]
    | none =>
      cases hgk : g key with
      | none => exact le_rfl
      | some y => exact hg key y hgk
  · rw [Function.update_of_ne hk] at hx ⊢
    exact h key x hx

theorem Below.settle {b b' : Book} (h : Below b'.balances b.balances) (hb : b.Sound)
    (hi : i ∈ b.intents) :
    Below (b'.settle t i event ids).balances (b.settle t i event ids).balances := by
  unfold Book.settle
  dsimp only
  split_ifs
  · exact (h.deposit _ hb.balances).deposit _ (deposit_nonneg _ (hb.amounts i hi) hb.balances)
  · exact h

theorem Book.Sound.settle (h : b.Sound) (hi : i ∈ b.intents) :
    (b.settle t i event ids).Sound := by
  refine ⟨?_, ?_, ?_, ?_, fun j' hj' => ?_, ?_⟩
  · exact (congrArg List.Nodup (map_key (fun _ => withStatus_id) b.intents)).mpr h.intents
  · exact (congrArg List.Nodup (map_key (fun _ => withState_id) b.transactions)).mpr h.transactions
  · exact (congrArg List.Nodup
      (map_key (fun _ => withState_pspReference) b.transactions)).mpr h.psp
  · exact (congrArg List.Nodup (map_key (fun _ => withState_intentId) b.transactions)).mpr h.one
  · obtain ⟨j, hj, rfl⟩ := List.mem_map.mp hj'
    rw [withStatus_amount]
    exact h.amounts j hj
  · have hn := h.amounts i hi
    unfold Book.settle
    dsimp only
    split_ifs
    · exact deposit_nonneg _ hn (deposit_nonneg _ hn h.balances)
    · exact h.balances

theorem Book.Sound.serve (h : b.Sound) : (b.serve c).2.Sound := by
  unfold Book.serve
  cases hl : b.lookup c.pspReference with
  | none => exact h
  | some ti =>
    dsimp only
    split_ifs
    · exact h.settle (mem_of_lookup hl).2.2.1
    · exact h

/-! ### Two callbacks -/

theorem deposit_comm (k k' : Key) (n n' : ℤ) (balances : Key → Option ℤ) :
    deposit k n (deposit k' n' balances) = deposit k' n' (deposit k n balances) := by
  unfold deposit
  by_cases hk : k = k'
  · subst hk
    simp only [Function.update_idem, Function.update_self, Option.getD_some]
    rw [add_right_comm]
  · rw [Function.update_of_ne hk, Function.update_of_ne (Ne.symm hk), Function.update_comm hk]

/-- Two payments settle in any order. -/
theorem settle_comm (event event' : BankCallbackEvent) (ids ids' : CallbackIds) (b : Book)
    (ht : t.id ≠ u.id) (hi : i.id ≠ j.id) :
    (b.settle t i event ids).settle u j event' ids' =
      (b.settle u j event' ids').settle t i event ids := by
  refine Book.ext ?_ ?_ ?_ ?_
  · change (b.intents.map _).map _ = (b.intents.map _).map _
    rw [List.map_map, List.map_map]
    exact List.map_congr_left fun x _ => withStatus_comm (Ne.symm hi)
  · change (b.transactions.map _).map _ = (b.transactions.map _).map _
    rw [List.map_map, List.map_map]
    exact List.map_congr_left fun x _ => withState_comm (Ne.symm ht)
  · unfold Book.settle
    dsimp only
    split_ifs
    · rw [deposit_comm (payerKey u) (payeeKey i), deposit_comm (payeeKey j) (payeeKey i),
        deposit_comm (payerKey u) (payerKey t), deposit_comm (payeeKey j) (payerKey t)]
    all_goals rfl
  · unfold Book.settle
    dsimp only
    split_ifs
    · exact add_right_comm _ _ _
    all_goals rfl

/-- A callback of another reference does not change what is found. -/
theorem lookup_settle {psp' : String} (h : b.Sound) (hl : b.lookup psp = some (t, i))
    (hne : psp ≠ psp') : (b.settle t i event ids).lookup psp' = b.lookup psp' := by
  obtain ⟨ht, hpsp, -, hit⟩ := mem_of_lookup hl
  have htxn : (b.settle t i event ids).transactions.find? (·.pspReference = some psp') =
      b.transactions.find? (·.pspReference = some psp') := by
    refine find_map (by simp) fun u hu hup => withState_of_ne fun e => hne ?_
    rw [eq_of_key h.transactions hu ht e, hpsp] at hup
    exact Option.some.inj hup
  unfold Book.lookup
  rw [htxn]
  cases hu : b.transactions.find? (·.pspReference = some psp') with
  | none => rfl
  | some u =>
    have hup : u.pspReference = some psp' := by simpa using List.find?_some hu
    have hintent : (b.settle t i event ids).intents.find? (·.id = u.intentId) =
        b.intents.find? (·.id = u.intentId) := by
      refine find_map (by simp) fun j _ hj => withStatus_of_ne fun e => hne ?_
      -- one transaction for an intent
      have hut := eq_of_key h.one (List.mem_of_find?_eq_some hu) ht (hj.symm.trans (e.trans hit))
      rw [hut, hpsp] at hup
      exact Option.some.inj hup
    change (Book.intents _).find? _ >>= _ = b.intents.find? _ >>= _
    rw [hintent]

/-- The books after the callback, once it is looked up. -/
def Book.applied (c : BankCallback) (found : Option (Transaction × PaymentIntent)) (b : Book) :
    Book :=
  match found with
  | none => b
  | some (t, i) => if Settling t i c.event c.amount then b.settle t i c.event c.ids else b

theorem serve_snd (c : BankCallback) (b : Book) :
    (b.serve c).2 = b.applied c (b.lookup c.pspReference) := by
  unfold Book.serve Book.applied
  cases b.lookup c.pspReference <;> rfl

theorem serve_fst {b' : Book} (h : b'.lookup c.pspReference = b.lookup c.pspReference) :
    (b'.serve c).1 = (b.serve c).1 := by
  unfold Book.serve
  rw [h]
  cases b.lookup c.pspReference <;> rfl

theorem lookup_applied (h : b.Sound) (hne : c.pspReference ≠ psp) :
    (b.applied c (b.lookup c.pspReference)).lookup psp = b.lookup psp := by
  unfold Book.applied
  cases hl : b.lookup c.pspReference with
  | none => rfl
  | some ti =>
    dsimp only
    split_ifs
    · exact lookup_settle h hl hne
    · rfl

theorem applied_comm (h : b.Sound) (hne : c.pspReference ≠ c'.pspReference) :
    (b.applied c (b.lookup c.pspReference)).applied c' (b.lookup c'.pspReference) =
      (b.applied c' (b.lookup c'.pspReference)).applied c (b.lookup c.pspReference) := by
  cases hl : b.lookup c.pspReference with
  | none => rfl
  | some ti =>
    cases hl' : b.lookup c'.pspReference with
    | none => rfl
    | some uj =>
      obtain ⟨ht, hpsp, -, hit⟩ := mem_of_lookup hl
      obtain ⟨hu, hpsp', -, hju⟩ := mem_of_lookup hl'
      have htu : ti.1 ≠ uj.1 := by
        rintro e
        rw [e, hpsp'] at hpsp
        exact hne (Option.some.inj hpsp).symm
      have hti : ti.1.id ≠ uj.1.id := fun e => htu (eq_of_key h.transactions ht hu e)
      have hij : ti.2.id ≠ uj.2.id := fun e =>
        htu (eq_of_key h.one ht hu (hit.symm.trans (e.trans hju)))
      unfold Book.applied
      dsimp only
      split_ifs
      · exact settle_comm _ _ _ _ b hti hij
      all_goals rfl

/-! ### Callbacks that are apart -/

/-- They are for different payments, and draw different ids. -/
structure Apart (c c' : BankCallback) : Prop where
  psp : c.pspReference ≠ c'.pspReference
  accounts : (accountIds c.ids).Disjoint (accountIds c'.ids)
  entries : (entryIds c.ids).Disjoint (entryIds c'.ids)

theorem Apart.symm (h : Apart c c') : Apart c' c := ⟨h.psp.symm, h.accounts.symm, h.entries.symm⟩

theorem commuting_serve : Commuting Book.serve Book.Sound Apart where
  sound _ _ h := h.serve
  symm _ _ h := h.symm
  answer c c' b h happ := serve_fst (by rw [serve_snd, lookup_applied h happ.psp])
  state c c' b h happ := by
    rw [serve_snd c', serve_snd c, serve_snd c, serve_snd c', lookup_applied h happ.psp,
      lookup_applied h happ.symm.psp]
    exact applied_comm h happ.psp

/-- The balances are in the range of their column. -/
def Book.Fits (b : Book) : Prop := ∀ key, ∀ x ∈ b.balances key, x < 10 ^ 18

theorem fits_book (d : Db) : (book d).Fits := by
  intro key x hx
  obtain ⟨a, -, rfl⟩ := Option.map_eq_some_iff.mp hx
  have := a.balance.fits
  norm_num at this ⊢
  omega

theorem fits_of_settle (h : b.Sound) (hi : i ∈ b.intents)
    (hfits : (b.settle t i event ids).Fits) : b.Fits := by
  intro key x hx
  have hn := h.amounts i hi
  have hle : ∃ y ∈ (b.settle t i event ids).balances key, x ≤ y := by
    unfold Book.settle
    dsimp only
    split_ifs
    · obtain ⟨y, hy, hxy⟩ := le_deposit (payerKey t) hn hx
      obtain ⟨z, hz, hyz⟩ := le_deposit (payeeKey i) hn hy
      exact ⟨z, hz, hxy.trans hyz⟩
    · exact ⟨x, hx, le_rfl⟩
  obtain ⟨y, hy, hxy⟩ := hle
  exact hxy.trans_lt (hfits key y hy)

theorem fits_of_serve (h : b.Sound) (hfits : (b.serve c).2.Fits) : b.Fits := by
  unfold Book.serve at hfits
  cases hl : b.lookup c.pspReference with
  | none => rwa [hl] at hfits
  | some ti =>
    rw [hl] at hfits
    dsimp only at hfits
    split_ifs at hfits
    · exact fits_of_settle h (mem_of_lookup hl).2.2.1 hfits
    · exact hfits

theorem mem_deposit {balances : Key → Option ℤ} {x n : ℤ} (hx : x ∈ balances key) :
    x + n ∈ deposit key n balances key := by
  unfold deposit
  rw [Function.update_self, Option.mem_def.mp hx]
  rfl

theorem balances_mem (hd : Consistent d) {a : LedgerAccount} (ha : a ∈ d.accounts) :
    a.balance.units ∈ (book d).balances a.key := by
  have hfind : accountAt a.key d = some a := find_key hd.keys.accountKeys ha
  change (accountAt a.key d).map (·.balance.units) = _
  rw [hfind]
  rfl

/-- What fits the books fits the database. -/
theorem postable_of_fits (hd : Reachable d) (hfits : ((book d).serve c).2.Fits) :
    Postable c d := by
  intro t i hf hs he a ha hkind
  have hserve : ((book d).serve c).2 = (book d).settle t i c.event c.ids := by
    rw [serve_snd, lookup_of_found hd hf]
    exact if_pos hs
  have hcur := hd.consistent.chart.currency a ha
  have hx := balances_mem hd.consistent ha
  have hn := (sound_book hd).amounts i hf.intent
  have hpos := (sound_book hd).balances _ _ hx
  have hle : ∃ y ∈ ((book d).settle t i c.event c.ids).balances a.key,
      a.balance.units + i.amount.units ≤ y := by
    unfold Book.settle
    dsimp only
    rw [if_pos he]
    rcases hkind with ⟨-, hident⟩ | ⟨-, hident⟩
    · have hkey : a.key = payerKey t := Prod.ext hident hcur
      rw [hkey] at hx ⊢
      exact le_deposit _ hn (mem_deposit hx)
    · have hkey : a.key = payeeKey i := Prod.ext hident hcur
      rw [hkey] at hx ⊢
      obtain ⟨y, hy, hxy⟩ := le_deposit (payerKey t) hn hx
      exact ⟨_, mem_deposit hy, by simpa using hxy⟩
  obtain ⟨y, hy, hle⟩ := hle
  rw [hserve] at hfits
  have hlt := hle.trans_lt (hfits _ y hy)
  norm_num at hlt ⊢
  omega

theorem fresh_serve (hd : Reachable d) (hids : Fresh c.ids d) (hr : Postable c d)
    (happ : Apart c c') (h : Fresh c'.ids d) : Fresh c'.ids (c.serve d).2 := by
  rw [serve_eq hd hids hr]
  cases (book d).lookup c.pspReference with
  | none => exact h
  | some ti =>
    dsimp only
    split_ifs
    · exact fresh_settled h happ.accounts happ.entries
    · exact h

/-- **The databases stand for their books.** -/
def books : Abstraction BankCallback.serve Book.serve Apart where
  abs := book
  Inv := Reachable
  New c d := Fresh c.ids d
  Ok := Postable
  Sound := Book.Sound
  Fits := Book.Fits
  inv c _ hd := reachable_after hd c
  new _ _ _ hd hids hr happ h := fresh_serve hd hids hr happ h
  sound _ hd := sound_book hd
  commuting := commuting_serve
  refines _ _ hd hids hr := serve_book hd hids hr
  fits := fits_book
  fits_of_step _ _ h hfits := fits_of_serve h hfits
  ok_of_fits _ _ hd _ hfits := postable_of_fits hd hfits

end PaymentGateway.Specs.Books
