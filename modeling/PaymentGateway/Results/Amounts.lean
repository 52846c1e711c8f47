import PaymentGateway.Results.AccountLookups

/-! # Money is exact

From the body of a request to the rows of the ledger no amount is rounded. The amount of an order
is quantized to the scale of its column, which changes nothing in an amount that is admitted. The
amount of a callback is posted as the bank wrote it, in whatever representation, but only if it
equals the amount of the intent, and then its sum with a balance and its entries are exact. -/

namespace PaymentGateway.Results.Amounts

open PaymentGateway.Core.Ids PaymentGateway.Models PaymentGateway.Schemas
open PaymentGateway.Lib.DecimalArith PaymentGateway.Db.Statements PaymentGateway.Db.Flush
open PaymentGateway.Services.Webhook PaymentGateway.Outlines.Webhook PaymentGateway.Specs.Callback
open PaymentGateway.Results.AccountLookups

variable {v amount : Decimal} {a : LedgerAccount} {i : PaymentIntent}

/-- What a posting writes at the commit: the balances of the two accounts it has found, each higher
by the amount of the intent, and an entry on either of them. -/
structure PostsExactly (t : Transaction) (i : PaymentIntent) (amount : Decimal) (ids : CallbackIds)
    (d : Db) (l l' : Session) (payer payee : LedgerAccount) (payerBalance payeeBalance : Decimal) :
    Prop where
  found : ∃ l₁, database.run (ensurePayer t ids) d l = (.ok payer, d, l₁) ∧
    ∃ l₂, database.run (ensurePayee i ids) d l₁ = (.ok payee, d, l₂)
  payerSum : payerBalance.value? = some (payer.balance.value + i.amount.value)
  payeeSum : payeeBalance.value? = some (payee.balance.value + i.amount.value)
  pending : l'.pending = l.pending ++
    [.setBalance payer.id payerBalance, .setBalance payee.id payeeBalance,
      .addEntry ids.debitEntryId payer.id t.id amount .debit defaultCurrency,
      .addEntry ids.creditEntryId payee.id t.id amount .credit defaultCurrency]

/-- Quantizing does not raise, and keeps the value, which is one of the column. -/
theorem amountScale_exact (h : Admitted v) :
    ∃ m : Money, amountScale v = .ok m.toDecimal ∧ v.value? = some m.value := by
  obtain ⟨u, hscale, -, hfits, hvalue⟩ := amountScale_eq h
  refine ⟨⟨u, hfits⟩, ?_, hvalue⟩
  rw [hscale, Numeric.toDecimal, decide_eq_false (by simp)]
  rfl

theorem addBalance_exact (h : amountDiffers i amount = .ok false) :
    ∃ r, addBalance a amount = .ok r ∧ r.value? = some (a.balance.value + i.amount.value) := by
  obtain ⟨r, hr, hv⟩ := addBalance_ok a h
  refine ⟨r, hr, ?_⟩
  rw [hv, Numeric.value, Numeric.value, ← add_mul, Int.cast_add]

/-- The entry that is stored has the amount of the intent. -/
theorem addEntry_exact {id accountId transactionId : UUID} {entryType : EntryType}
    {currency : String} {d d' : Db} (h : amountDiffers i amount = .ok false)
    (hw : (Write.addEntry id accountId transactionId amount entryType currency).apply d = .ok d') :
    d'.entries =
      d.entries ++ [⟨id, accountId, transactionId, i.amount, entryType, currency⟩] := by
  obtain ⟨money, hm, -, rfl⟩ := addEntry_ok hw
  rw [stored_amount h hm]

/-- The program adds and stores nothing else. -/
theorem posts_exactly {t : Transaction} {ids : CallbackIds} {d d' : Db} {l l' : Session} {u : Unit}
    (h : amountDiffers i amount = .ok false)
    (hrun : database.run (postLedger t i amount ids) d l = (.ok u, d', l')) :
    ∃ payer payee payerBalance payeeBalance,
      PostsExactly t i amount ids d l l' payer payee payerBalance payeeBalance := by
  obtain ⟨payer, l₁, payee, l₂, payerBalance, payeeBalance, hpayer, hpayee, hp, hq, hpending⟩ :=
    postLedger_ok hrun
  obtain ⟨r, hr, hpv⟩ := addBalance_exact (a := payer) h
  obtain ⟨r', hr', hqv⟩ := addBalance_exact (a := payee) h
  cases hp.symm.trans hr
  cases hq.symm.trans hr'
  exact ⟨payer, payee, payerBalance, payeeBalance, ⟨l₁, hpayer, l₂, hpayee⟩, hpv, hqv, hpending⟩

/-- **Money is exact from the request to the ledger**: the amount of an order, the balances that a
callback assigns, whatever they were before, and the entries it stores. -/
theorem money_exact (hv : Admitted v) (h : amountDiffers i amount = .ok false) :
    (∃ m : Money, amountScale v = .ok m.toDecimal ∧ v.value? = some m.value) ∧
    (∃ r, addBalance a amount = .ok r ∧ r.value? = some (a.balance.value + i.amount.value)) ∧
    (∀ id accountId transactionId entryType d d',
      (Write.addEntry id accountId transactionId amount entryType defaultCurrency).apply d =
          .ok d' →
        d'.entries = d.entries ++
          [⟨id, accountId, transactionId, i.amount, entryType, defaultCurrency⟩]) ∧
    ∀ t ids d l d' l',
      database.run (postLedger t i amount ids) d l = (.ok (), d', l') →
        ∃ payer payee payerBalance payeeBalance,
          PostsExactly t i amount ids d l l' payer payee payerBalance payeeBalance :=
  ⟨amountScale_exact hv, addBalance_exact h, fun _ _ _ _ _ _ => addEntry_exact h,
    fun _ _ _ _ _ _ => posts_exactly h⟩

namespace Sample

/-- `100.00`, as an order may give it. -/
def hundred : Decimal := .finite false 10000 (-2)

/-- A hundred rupees with 40 zeros after the point. -/
def zeros : Decimal := .finite false (10 ^ 42) (-40)

/-- An account with the largest balance a column holds. -/
def full : LedgerAccount :=
  ⟨Runs.Serial.Sample.uuid 4, none, .virtual, "alice@bank", "INR", ⟨10 ^ 18 - 1, by norm_num⟩⟩

/-- Alice's payment is pending, and her account is full. -/
def rich : Db :=
  { Specs.Callback.Sample.waiting Runs.Serial.Sample.alicePays with accounts := [full] }

end Sample

open Specs.Callback.Sample Runs.Serial.Sample in
/-- A coefficient of 43 digits is added without rounding to a balance of 18 digits, and stored as the
amount of the order; Alice's callback with this amount posts so. -/
theorem money_exact_zeros :
    (∃ m : Money, amountScale Sample.hundred = .ok m.toDecimal ∧
      Sample.hundred.value? = some m.value) ∧
    (∃ r, addBalance Sample.full Sample.zeros = .ok r ∧
      r.value? = some (Sample.full.balance.value + intent.amount.value)) ∧
    (∃ d', (Write.addEntry (uuid 6) (uuid 4) (uuid 3) Sample.zeros .debit defaultCurrency).apply
        Sample.rich = .ok d' ∧
      d'.entries = [⟨uuid 6, uuid 4, uuid 3, intent.amount, .debit, "INR"⟩]) ∧
    ∃ l' payer payee payerBalance payeeBalance,
      database.run (postLedger (transaction "alice@bank") intent Sample.zeros drawn)
          (waiting alicePays) .closed = (.ok (), waiting alicePays, l') ∧
        PostsExactly (transaction "alice@bank") intent Sample.zeros drawn (waiting alicePays)
          .closed l' payer payee payerBalance payeeBalance := by
  have hv : Admitted Sample.hundred := by
    refine ⟨.inr ⟨100, ?_, by norm_num⟩, false, 1, 4, -2, rfl, by norm_num, by decide, ?_⟩
    · norm_num [Sample.hundred, Decimal.value?, signed]
    · norm_num [wholeDigits, numDigits]
  have h : amountDiffers intent Sample.zeros = .ok false := by decide +kernel
  obtain ⟨hscale, hsum, hentry, hposts⟩ := money_exact (a := Sample.full) hv h
  have hreach : Runs.Serial.Reachable (waiting alicePays) :=
    Runs.Serial.reachable_serveAll (Runs.Serial.reachable_empty _) (by decide)
  have hfound : Found (newId "psp" "token") (transaction "alice@bank") intent (waiting alicePays) :=
    ⟨by decide, rfl, by decide, rfl⟩
  obtain ⟨l', pb, qb, hrun, -⟩ := run_postLedger hreach.consistent hfound (fresh alicePays)
    (by decide) h (by decide) (l := .closed) rfl
  obtain ⟨payer, payee, payerBalance, payeeBalance, hp⟩ := hposts _ _ _ _ _ _ hrun
  obtain ⟨d', hstored⟩ : ∃ d', (Write.addEntry (uuid 6) (uuid 4) (uuid 3) Sample.zeros .debit
      defaultCurrency).apply Sample.rich = .ok d' :=
    ⟨_, addEntry_eq (ofDecimal_amount h) (by decide) (by decide) (by decide) (by decide)⟩
  exact ⟨hscale, hsum, ⟨d', hstored, hentry _ _ _ _ _ _ hstored⟩, l', payer, payee, payerBalance,
    payeeBalance, hrun, hp⟩

end PaymentGateway.Results.Amounts
