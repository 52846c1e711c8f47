import PaymentGateway.Specs.Callback
import PaymentGateway.State.Payments

/-! # How far balances go

A balance is the total of the payments from one vpa, or to one merchant, and nothing takes from it.
Its column is as wide as that of a single amount, so that payments add up to more than it holds. The
success that would bring a balance out of range is refused, and leaves the database as it was. -/

namespace PaymentGateway.Results.Balances

open PaymentGateway.Core.Ids PaymentGateway.Models PaymentGateway.Schemas
open PaymentGateway.Lib.Sessions PaymentGateway.Lib.DecimalArith PaymentGateway.Db.Statements
open PaymentGateway.Services.Webhook PaymentGateway.Outlines.Webhook
open PaymentGateway.State.Changes PaymentGateway.State.Invariant PaymentGateway.State.Payments
open PaymentGateway.Runs.Serial PaymentGateway.Specs.Callback

variable {d : Db} {t : Transaction} {i : PaymentIntent} {ids : CallbackIds} {psp : String}
  {amount : Decimal} {row a : LedgerAccount}

theorem funded (h : Reachable d) : Funded d :=
  (h.change (P := fun d => Consistent d ∧ Funded d)
    (fun ms => ⟨consistent_empty ms, funded_empty ms⟩)
    fun _ _ hd hc => ⟨hd.1.change hc, hd.2.change hd.1 hc⟩).2

/-! ### What an account stands for -/

theorem owed_payer (htype : a.accountType = .virtual) : owed a d = paidFrom a.identifier d := by
  refine paid_congr fun j _ => ⟨fun ho => ?_, fun hv => .inl ⟨htype, hv⟩⟩
  rcases ho with ⟨-, hv⟩ | ⟨hm, -⟩
  · exact hv
  · rw [htype] at hm
    cases hm

theorem owed_payee {m : UUID} (htype : a.accountType = .merchantSettlement)
    (hident : a.identifier = merchantIdentifier m) : owed a d = paidTo m d := by
  refine paid_congr fun j _ => ⟨fun ho => ?_, fun hm => .inr ⟨htype, by rw [hident, hm]⟩⟩
  rcases ho with ⟨hv, -⟩ | ⟨-, hm⟩
  · rw [htype] at hv
    cases hv
  · exact merchantIdentifier_inj (hm.symm.trans hident)

/-- The balance to which the amount is added, of an account that is there or opened. -/
theorem balance_accountOf (hd : Consistent d) (hf : Funded d) (hc : row.currency = defaultCurrency)
    (hk : Kind row) (h0 : row.balance.units = 0) :
    (accountOf row d.accounts).balance.units = owed row d := by
  by_cases h : ∃ b ∈ d.accounts, b.key = row.key
  · obtain ⟨hmem, hkey⟩ := accountOf_mem h
    have hident := congrArg Prod.fst hkey
    have htype := ((charted_accounts hd).same hc hk hmem hident).2
    rw [hf.balance _ hmem, owed_congr htype hident]
  · rw [accountOf_new h, h0, hf.none]
    exact fun b hb _ hident => h ⟨b, hb, ((charted_accounts hd).same hc hk hb hident).1⟩

theorem paid_nonneg (hd : Consistent d) (c : PaymentIntent → Prop) [DecidablePred c] :
    0 ≤ paid c d := by
  refine List.sum_nonneg fun x hx => ?_
  obtain ⟨j, hj, rfl⟩ := List.mem_map.mp hx
  exact (hd.posted.amount_pos j (List.mem_filter.mp hj).1).le

/-! ### The sums that a success assigns -/

theorem payer_balance (ids : CallbackIds) (hd : Consistent d) (hf : Funded d)
    (ht : t ∈ d.transactions) :
    (accountOf (payerRow t ids) d.accounts).balance.units = paidFrom t.vpa d :=
  (balance_accountOf hd hf rfl (kind_payerRow ids hd ht) rfl).trans (owed_payer rfl)

theorem payee_balance (ids : CallbackIds) (hd : Consistent d) (hf : Funded d) (i : PaymentIntent) :
    (accountOf (payeeRow i ids) d.accounts).balance.units = paidTo i.merchantId d :=
  (balance_accountOf hd hf rfl (kind_payeeRow i ids) rfl).trans (owed_payee rfl rfl)

/-- They are in range if the payments, with this one, are less than `10 ^ 14` in total. -/
theorem inRange_iff (ids : CallbackIds) (hd : Consistent d) (hf : Funded d)
    (ht : t ∈ d.transactions) (hi : i ∈ d.intents) :
    InRange t i d ↔ paidFrom t.vpa d + i.amount.units < 10 ^ 18 ∧
      paidTo i.merchantId d + i.amount.units < 10 ^ 18 := by
  have hpos := hd.posted.amount_pos i hi
  have hfrom : 0 ≤ paidFrom t.vpa d := paid_nonneg hd _
  have hto : 0 ≤ paidTo i.merchantId d := paid_nonneg hd _
  have hpayer := payer_balance ids hd hf ht
  have hpayee := payee_balance ids hd hf i
  refine ⟨fun hr => ?_, fun hsum => ?_⟩
  · have h1 := payer_inRange ids hd ht hr
    have h2 := payee_inRange ids hd hr
    rw [hpayer] at h1
    rw [hpayee] at h2
    omega
  · by_contra hr
    have hover := overflow_of_not_inRange ids hd hr
    unfold posting at hover
    rw [hpayer, hpayee] at hover
    omega

/-- The value that the callback assigns. -/
def Assigns (row : LedgerAccount) (amount : Decimal) (units : ℤ) (d : Db) : Prop :=
  ∃ r, addBalance (accountOf row d.accounts) amount = .ok r ∧
    r.value? = some ((units : ℚ) * 10 ^ (-4 : ℤ))

theorem assigns {units : ℤ} (ha : amountDiffers i amount = .ok false)
    (h : (accountOf row d.accounts).balance.units = units) :
    Assigns row amount (units + i.amount.units) d := by
  obtain ⟨r, hr, hsum⟩ := addBalance_ok (accountOf row d.accounts) ha
  refine ⟨r, hr, ?_⟩
  rw [← h]
  exact hsum

/-- **Balances are totals of payments, and are refused beyond the range.** In every state that
calls reach a payer's balance is the total of the successful payments from its vpa, and a merchant's
that of those to the merchant. The success of a pending payment assigns these totals with its own
amount; it is applied if both are below `10 ^ 14`, and else refused, and nothing changes. -/
theorem balances_bounded (h : Reachable d) :
    (∀ a ∈ d.accounts, a.accountType = .virtual → a.balance.units = paidFrom a.identifier d) ∧
    (∀ a ∈ d.accounts, ∀ m, a.accountType = .merchantSettlement →
      a.identifier = merchantIdentifier m → a.balance.units = paidTo m d) ∧
    ∀ psp t i amount ids, Found psp t i d → t.state = .pending → t.vpa.length ≤ 128 →
      Fresh ids d → amountDiffers i amount = .ok false →
      Assigns (payerRow t ids) amount (paidFrom t.vpa d + i.amount.units) d ∧
      Assigns (payeeRow i ids) amount (paidTo i.merchantId d + i.amount.units) d ∧
      database.serve (processBankCallback .paymentSuccess psp amount ids) d =
        if paidFrom t.vpa d + i.amount.units < 10 ^ 18 ∧
            paidTo i.merchantId d + i.amount.units < 10 ^ 18 then
          (.ok (settledResult t i .paymentSuccess), settled t i .paymentSuccess ids d)
        else (.error .dataError, d) := by
  have hd := h.consistent
  have hf := funded h
  refine ⟨fun a ha htype => (hf.balance a ha).trans (owed_payer htype),
    fun a ha m htype hident => (hf.balance a ha).trans (owed_payee htype hident),
    fun psp t i amount ids hfound ht hlen hids ha => ⟨?_, ?_, ?_⟩⟩
  · exact assigns ha (payer_balance ids hd hf hfound.txn)
  · exact assigns ha (payee_balance ids hd hf i)
  · have hrange := inRange_iff ids hd hf hfound.txn hfound.intent
    split_ifs with hsum
    · rw [serve_pending .paymentSuccess h hfound hids (hrange.mpr hsum) ha ht,
        if_neg fun hc => Nat.not_lt.mpr hlen hc.2]
    · exact serve_overflow h hfound hids (fun hr => hsum (hrange.mp hr)) ha ht hlen

/-! ### A column that is full -/

namespace Sample

open PaymentGateway.Runs.Serial.Sample

/-- The largest amount of an order, 99999999999999.9999. -/
def largest : Decimal := .finite false (10 ^ 18 - 1) (-4)

/-- An order of it. -/
def orderOf (key : String) (h : 8 ≤ key.length ∧ key.length ≤ 128) : CreateOrderRequest :=
  { rupees with
    amount := largest
    amount_valid := ⟨10 ^ 18 - 1, rfl, by norm_num, by norm_num⟩
    idempotencyKey := key
    idempotencyKey_valid := h }

theorem orderId_valid : 1 ≤ (newId "ord" "second").length := by decide

def secondPays : UpiInitiateRequest :=
  { alicePays with
    orderId := newId "ord" "second"
    orderId_valid := orderId_valid }

theorem key_valid : 8 ≤ "order-0002".length ∧ "order-0002".length ≤ 128 := by decide

/-- The first is paid, the second is initiated. -/
def calls : List Call :=
  [ordering (orderOf "order-0001" rupees.idempotencyKey_valid), initiating,
    .processBankCallback .paymentSuccess (newId "psp" "token") largest Specs.Callback.Sample.drawn,
    .createOrder shop (orderOf "order-0002" key_valid) ⟨uuid 8, "second"⟩,
    .initiateUpi shop secondPays ⟨uuid 9, "second", "second"⟩]

def full : Db := serveAll calls (Db.empty [shop])

theorem largest_fits : (10 ^ 18 - 1 : ℤ).natAbs < 10 ^ 18 := by norm_num

def intent : PaymentIntent :=
  ⟨uuid 8, newId "ord" "second", uuid 1, ⟨10 ^ 18 - 1, largest_fits⟩, "INR", .processing,
    "order-0002", none⟩

def transaction : Transaction :=
  ⟨uuid 9, newId "txn" "second", uuid 8, "alice@bank", .upi, .pending, some (newId "psp" "second")⟩

def drawn : CallbackIds := ⟨uuid 10, uuid 11, uuid 12, uuid 13⟩

theorem fresh : Fresh drawn full := by
  constructor <;> decide +kernel

end Sample

/-- The success of the second payment assigns twice the amount, which the column does not hold. -/
theorem not_bounded_twice : Reachable Sample.full ∧
    Found (newId "psp" "second") Sample.transaction Sample.intent Sample.full ∧
    Sample.transaction.state = .pending ∧ Sample.transaction.vpa.length ≤ 128 ∧
    Fresh Sample.drawn Sample.full ∧ amountDiffers Sample.intent Sample.largest = .ok false ∧
    Assigns (payerRow Sample.transaction Sample.drawn) Sample.largest (2 * (10 ^ 18 - 1))
      Sample.full ∧
    database.serve (processBankCallback .paymentSuccess (newId "psp" "second") Sample.largest
      Sample.drawn) Sample.full = (.error .dataError, Sample.full) := by
  have ha : amountDiffers Sample.intent Sample.largest = .ok false := by decide +kernel
  have hbalance : (accountOf (payerRow Sample.transaction Sample.drawn)
      Sample.full.accounts).balance.units = 10 ^ 18 - 1 := by decide +kernel
  refine ⟨reachable_serveAll (reachable_empty _) (by decide +kernel),
    ⟨by decide +kernel, rfl, by decide +kernel, rfl⟩, rfl, by decide, Sample.fresh, ha,
    assigns ha hbalance, by decide +kernel⟩

/-- Alice's first payment is applied. -/
theorem balances_bounded_alice :
    database.serve (processBankCallback .paymentSuccess (newId "psp" "token")
        Specs.Callback.Sample.hundred Specs.Callback.Sample.drawn)
      (Specs.Callback.Sample.waiting Runs.Serial.Sample.alicePays) =
    (.ok (settledResult (Specs.Callback.Sample.transaction "alice@bank")
        Specs.Callback.Sample.intent .paymentSuccess),
      settled (Specs.Callback.Sample.transaction "alice@bank") Specs.Callback.Sample.intent
        .paymentSuccess Specs.Callback.Sample.drawn
        (Specs.Callback.Sample.waiting Runs.Serial.Sample.alicePays)) := by
  have h : Reachable (Specs.Callback.Sample.waiting Runs.Serial.Sample.alicePays) :=
    reachable_serveAll (reachable_empty _) (by decide)
  obtain ⟨-, -, hserve⟩ := balances_bounded h
  have hfound : Found (newId "psp" "token") (Specs.Callback.Sample.transaction "alice@bank")
      Specs.Callback.Sample.intent (Specs.Callback.Sample.waiting Runs.Serial.Sample.alicePays) :=
    ⟨by decide, rfl, by decide, rfl⟩
  obtain ⟨-, -, hrun⟩ := hserve _ _ _ Specs.Callback.Sample.hundred Specs.Callback.Sample.drawn
    hfound rfl (by decide) (Specs.Callback.Sample.fresh _) (by decide)
  exact hrun.trans (if_pos (by decide +kernel))

end PaymentGateway.Results.Balances
