import PaymentGateway.Results.Malformed

/-! # The amount that was signed

`Decimal(str(value))` is exact where the bank signs the amount as a text or as an integer. A number
with a point or an exponent has been a float by then: what is compared is the shortest decimal of
that float. Fifteen digits survive this (`keeps_of_hasDigits`), an amount of an order has up to
eighteen. -/

namespace PaymentGateway.Results.SignedAmounts

open PaymentGateway.Core.Ids PaymentGateway.Models PaymentGateway.Schemas
open PaymentGateway.Lib.Numerals PaymentGateway.Lib.DecimalText PaymentGateway.Lib.DecimalArith
open PaymentGateway.Lib.ShortestDecimal PaymentGateway.Lib.Floats PaymentGateway.Lib.JsonLoads
open PaymentGateway.Db.Statements PaymentGateway.Services.Webhook PaymentGateway.Api.Verification
open PaymentGateway.Api.Callbacks PaymentGateway.Runs.Serial PaymentGateway.Specs.Callback
open PaymentGateway.Results.Replays PaymentGateway.Results.Statuses PaymentGateway.Results.Malformed

variable {signPayload : List UInt8 → String → String} {settings : Settings} {depth : ℕ} {now : ℚ}
  {request : SignedRequest} {event : BankCallbackEvent} {psp : String} {value : Json} {a : ℚ}

/-- The member is a string or a number literal that denotes `a`. A string may have white space
around the number, underscores in it, and the digits of any script. -/
inductive Denoted : Json → ℚ → Prop
  | string {t u : Text} {a : ℚ} (ht : numericAsAscii t = some u) (h : Denotes u a) :
    Denoted (.str t) a
  | integer (n : ℤ) : Denoted (.int n) n
  | number (n : Numeral) : Denoted (.float n) n.value

/-- A callback that passes the checks, with a known event, a reference and an amount. -/
structure Received (signPayload : List UInt8 → String → String) (settings : Settings) (depth : ℕ)
    (now : ℚ) (request : SignedRequest) (event : BankCallbackEvent) (psp : String) (value : Json) :
    Prop where
  passes : Passes signPayload settings now request
  document : ∃ members, loads depth request.body = .ok (.obj members) ∧
    get members "event" = .str (text event.value) ∧ get members "psp_reference" = .str (text psp) ∧
    get members "amount" = value
  psp_ne : psp ≠ ""

/-- The callback is passed on with this amount. -/
def PassedOn (signPayload : List UInt8 → String → String) (settings : Settings) (depth : ℕ)
    (now : ℚ) (request : SignedRequest) (event : BankCallbackEvent) (psp : String)
    (amount : Decimal) : Prop :=
  receivePayload signPayload settings depth now request = .ok ⟨event, .str (text psp), amount⟩

/-- The call raises `AmountMismatch`. -/
def Mismatch (event : BankCallbackEvent) (psp : String) (amount : Decimal) (ids : CallbackIds)
    (d : Db) : Prop :=
  ∃ x y, (database.serve (processBankCallback event psp amount ids) d).1 =
    .error (.amountMismatch x y)

/-- **The amount `a` is compared**: the conversion is exact, and the call raises `AmountMismatch`
just if the amount of the intent is another. -/
structure Compares (signPayload : List UInt8 → String → String) (settings : Settings) (depth : ℕ)
    (now : ℚ) (request : SignedRequest) (event : BankCallbackEvent) (psp : String) (a : ℚ) :
    Prop where
  conversion : ∃ amount,
    PassedOn signPayload settings depth now request event psp amount ∧ amount.value? = some a
  mismatch : ∀ d t i ids, Reachable d → Found psp t i d →
    ((∃ amount, PassedOn signPayload settings depth now request event psp amount ∧
      Mismatch event psp amount ids d) ↔ a ≠ i.amount.value)

/-- **What keeps its value**: a string within the limits of `Decimal`, an integer, and a number that
is zero or the shortest decimal of its float. -/
def Keeps : Json → Prop
  | .str t => ∃ n : Numeral, n.Valid ∧ numericAsAscii t = some n.text ∧
    InLimits n.coefficient n.scale
  | .int n => numDigits n.natAbs ≤ maxStrDigits
  | .float n => Survives (magnitude n)
  | _ => False

/-! ### The conversion -/

theorem toDecimal_iff (n : Numeral) :
    (∃ d, n.toDecimal = some d ∧ d.value? = some n.value) ↔ InLimits n.coefficient n.scale := by
  unfold Numeral.toDecimal
  split_ifs with h
  · exact iff_of_true ⟨_, rfl, rfl⟩ h
  · exact iff_of_false (fun ⟨d, hd, _⟩ => by cases hd) h

/-- A numeral in white space, or with underscores, is converted as it is. -/
theorem parseDecimal_of_ascii {n : Numeral} {t : Text} (hn : n.Valid)
    (ht : numericAsAscii t = some n.text) : parseDecimal t = n.toDecimal := by
  have hself : numericAsAscii n.text = some n.text := numericAsAscii_plain (plain_text hn)
  rw [← parseDecimal_text hn]
  unfold parseDecimal
  rw [ht, hself]

theorem text_inj {n n' : Numeral} (hn : n.Valid) (hn' : n'.Valid) (h : n.text = n'.text) :
    n = n' := by
  have hread := Numeral.readNumeral_text hn
  rw [h, Numeral.readNumeral_text hn'] at hread
  exact (Option.some.inj hread).symm

theorem decimal_iff {t : Text} :
    (∃ d, decimal t = .ok d ∧ d.value? = some a) ↔
      ∃ d, parseDecimal t = some d ∧ d.value? = some a := by
  unfold decimal
  cases parseDecimal t with
  | none => exact iff_of_false (fun ⟨d, hd, _⟩ => by cases hd) fun ⟨d, hd, _⟩ => by cases hd
  | some d => simp

theorem decimalOf_iff (ha : Denoted value a) :
    (∃ d, decimalOf value = .ok d ∧ d.value? = some a) ↔ Keeps value := by
  cases ha with
  | string ht h =>
    obtain ⟨n, hn, rfl, rfl⟩ := h
    refine decimal_iff.trans ?_
    rw [parseDecimal_of_ascii hn ht, toDecimal_iff]
    constructor
    · exact fun hlimits => ⟨n, hn, ht, hlimits⟩
    · rintro ⟨n', hn', ht', hlimits⟩
      have htext : n'.text = n.text := Option.some.inj (ht'.symm.trans ht)
      rwa [text_inj hn' hn htext] at hlimits
  | integer n =>
    change (∃ d, (strInt n).bind decimal = .ok d ∧ _) ↔ numDigits n.natAbs ≤ maxStrDigits
    unfold strInt
    split_ifs with h
    · exact iff_of_true (decimal_iff.mpr (parseDecimal_int h)) h
    · exact iff_of_false (fun ⟨d, hd, _⟩ => by cases hd) h
  | number n => exact decimal_iff.trans (parseDecimal_parseFloat n)

/-- An amount of fifteen digits keeps its value as a number, too. -/
theorem keeps_of_hasDigits {n : Numeral} {x : Models.Money} (h : n.value = x.value)
    (hx : 0 < x.units) (hd : HasDigits 15 x.value) : Keeps (.float n) := by
  have hpos : (0 : ℚ) < x.units := by exact_mod_cast hx
  have hvalue : x.value = x.units * 10 ^ (-4 : ℤ) := rfl
  have hmagnitude : magnitude n = x.value := by
    rw [value_eq] at h
    unfold withSign at h
    split_ifs at h
    · have hneg := magnitude_nonneg n
      have hxpos : 0 < x.value := by
        rw [hvalue]
        positivity
      linarith
    · exact h
  have hone : (1 : ℚ) ≤ x.units := by exact_mod_cast hx
  have hlt : (x.units : ℚ) < 10 ^ 18 := by
    have hfits := x.fits
    exact_mod_cast (show x.units < 10 ^ 18 by omega)
  change Survives (magnitude n)
  rw [hmagnitude]
  refine survives_of_hasDigits ?_ ?_ hd
  · rw [hvalue]
    calc (2 : ℚ) ^ (-1022 : ℤ) ≤ 2 ^ (-14 : ℤ) := zpow_le_zpow_right₀ one_le_two (by norm_num)
      _ ≤ 1 * 10 ^ (-4 : ℤ) := by norm_num
      _ ≤ x.units * 10 ^ (-4 : ℤ) := by gcongr
  · rw [hvalue]
    calc (x.units : ℚ) * 10 ^ (-4 : ℤ) ≤ 10 ^ 18 * 10 ^ (-4 : ℤ) := by gcongr
      _ ≤ 2 ^ (47 : ℤ) := by norm_num
      _ ≤ 2 ^ (1023 : ℤ) := zpow_le_zpow_right₀ one_le_two (by norm_num)

/-- A callback that is received is passed on, if its amount can be converted. -/
theorem receivePayload_eq (h : Received signPayload settings depth now request event psp value) :
    receivePayload signPayload settings depth now request =
      (decimalOf value).map fun amount => ⟨event, .str (text psp), amount⟩ := by
  obtain ⟨members, hloads, hevent, hpsp, hamount⟩ := h.document
  have hknown : knownEvent (.str (text event.value)) = .ok (some event) := by
    cases event <;> rfl
  have htruthy : truthy (.str (text psp)) = true := by
    have hne : text psp ≠ [] := by
      unfold text
      simpa using h.psp_ne
    exact decide_eq_true hne
  have hcheck : checkMembers (.str (text event.value)) (.str (text psp)) value =
      (decimalOf value).map fun amount => ⟨event, .str (text psp), amount⟩ := by
    unfold checkMembers
    rw [hknown, htruthy]
    cases decimalOf value <;> rfl
  have hread : readPayload depth request.body =
      checkMembers (get members "event") (get members "psp_reference") (get members "amount") := by
    unfold readPayload eventData Core.Loads.loadsBody
    rw [hloads]
    rfl
  have hpasses : verify signPayload settings now request = .ok () := h.passes
  unfold receivePayload
  rw [hpasses, ← hcheck, ← hevent, ← hpsp, ← hamount]
  exact hread

theorem not_fails_mismatch {x y : Decimal} : ¬ Fails (.amountMismatch x y) := by
  rintro (h | h | h)
  · exact h
  · cases h
  · cases h

/-- With an amount that is a number, a payment that is found is refused just if its own amount is
another. -/
theorem mismatch_iff {d : Db} {t : Transaction} {i : PaymentIntent} {ids : CallbackIds}
    {amount : Decimal} (hd : Reachable d) (h : Found psp t i d) (hv : amount.value? = some a) :
    Mismatch event psp amount ids d ↔ a ≠ i.amount.value := by
  have hamount : HasAmount i amount ↔ a = i.amount.value := by
    unfold HasAmount
    rw [hv, Numeric.value_toDecimal, Option.some.injEq]
    rfl
  by_cases ha : HasAmount i amount
  · refine iff_of_false ?_ fun hne => hne (hamount.mp ha)
    rintro ⟨x, y, he⟩
    by_cases hstate : t.state = .pending ∨ t.state = targetTxn event
    · exact not_fails_mismatch (found_error hd h ha hstate he)
    · obtain ⟨hpending, htarget⟩ := not_or.mp hstate
      obtain ⟨first, hfirst⟩ := h.finished hd.consistent hpending
      have hfinal := verdict_final ha hfirst fun e : event = first => htarget (e ▸ hfirst)
      rw [serve_refused hd h hfinal] at he
      cases he
  · have hs : amount ≠ .snan := by
      rintro rfl
      cases hv
    have hserve : database.serve (processBankCallback event psp amount ids) d =
        (.error (.amountMismatch amount i.amount.toDecimal), d) :=
      serve_refused hd h (verdict_differs hs ha)
    exact iff_of_true ⟨_, _, congrArg Prod.fst hserve⟩ fun heq => ha (hamount.mpr heq)

/-- **The amount that was signed is compared** just if it keeps its value. -/
theorem compares_iff (h : Received signPayload settings depth now request event psp value)
    (ha : Denoted value a) :
    Compares signPayload settings depth now request event psp a ↔ Keeps value := by
  have hpassed : ∀ amount, PassedOn signPayload settings depth now request event psp amount ↔
      decimalOf value = .ok amount := fun amount => by
    unfold PassedOn
    rw [receivePayload_eq h]
    cases decimalOf value with
    | error exc => exact iff_of_false (fun hc => by cases hc) fun hc => by cases hc
    | ok d => exact ⟨fun hc => by cases hc; rfl, fun hc => by cases hc; rfl⟩
  rw [← decimalOf_iff ha]
  constructor
  · intro hc
    obtain ⟨amount, hp, hv⟩ := hc.conversion
    exact ⟨amount, (hpassed amount).mp hp, hv⟩
  · rintro ⟨amount, hok, hv⟩
    refine ⟨⟨amount, (hpassed amount).mpr hok, hv⟩, fun d t i ids hd hfound => ?_⟩
    have hiff : Mismatch event psp amount ids d ↔ a ≠ i.amount.value := mismatch_iff hd hfound hv
    rw [← hiff]
    constructor
    · rintro ⟨amount', hp, hm⟩
      have heq := (hpassed amount').mp hp
      rw [hok] at heq
      cases heq
      exact hm
    · exact fun hm => ⟨amount, (hpassed amount).mpr hok, hm⟩

/-! ### Two callbacks -/

/-- The members of a document, as far as they are texts and a number. -/
def members (r : Except LoadsError Json) : Option (Text × Text × Numeral) :=
  match r with
  | .ok (.obj members) =>
    match get members "event", get members "psp_reference", get members "amount" with
    | .str event, .str psp, .float n => some (event, psp, n)
    | _, _, _ => none
  | _ => none

theorem members_eq_some {r : Except LoadsError Json} {t u : Text} {n : Numeral}
    (h : members r = some (t, u, n)) : ∃ ms, r = .ok (.obj ms) ∧ get ms "event" = .str t ∧
      get ms "psp_reference" = .str u ∧ get ms "amount" = .float n := by
  unfold members at h
  split at h
  · rename_i ms
    split at h
    · rename_i hevent hpsp hamount
      cases h
      exact ⟨ms, rfl, hevent, hpsp, hamount⟩
    · cases h
  · cases h

namespace Sample

open PaymentGateway.Results.Malformed.Sample

/-- The largest amount of an order. -/
def largest : Numeral := ⟨none, [9, 9, 9, 9, 9, 9, 9, 9, 9, 9, 9, 9, 9, 9], some [9, 9, 9, 9], none⟩

def largestText : String :=
  "\x7b\"event\": \"payment.success\", \"psp_reference\": \"psp_1\", \"amount\": 99999999999999.9999\x7d"

/-- The HMAC-SHA256 of `largestText` under the default secret. -/
def largestDigest : String := "8d3aebdde4bba04363c25b83d24e680dd3962364b3fa9e81f2f27449159c07e4"

def largestRequest : SignedRequest := ⟨Lib.Utf8.encode largestText, some largestDigest, none⟩

def rupees : Numeral := ⟨none, [1, 5, 0, 0], some [0, 0, 0, 0], none⟩

def rupeesText : String :=
  "\x7b\"event\": \"payment.success\", \"psp_reference\": \"psp_1\", \"amount\": 1500.0000\x7d"

/-- The HMAC-SHA256 of `rupeesText` under the default secret. -/
def rupeesDigest : String := "08d50c7b071589cc58c99a19cd2d87344268ea360758757086d360ffbabbd084"

def rupeesRequest : SignedRequest := ⟨Lib.Utf8.encode rupeesText, some rupeesDigest, none⟩

theorem received_largest : Received (fun _ _ => largestDigest) defaults 1000 0 largestRequest
    .paymentSuccess "psp_1" (.float largest) := by
  refine ⟨?_, members_eq_some ?_, by decide⟩
  · unfold Passes
    decide +kernel
  · decide +kernel

theorem received_rupees : Received (fun _ _ => rupeesDigest) defaults 1000 0 rupeesRequest
    .paymentSuccess "psp_1" (.float rupees) := by
  refine ⟨?_, members_eq_some ?_, by decide⟩
  · unfold Passes
    decide +kernel
  · decide +kernel

end Sample

/-- The largest amount, signed as a number literal, becomes one that no order has. -/
theorem not_compares_largest : (∃ x : Models.Money, x.value = Sample.largest.value) ∧
    Received (fun _ _ => Sample.largestDigest) Malformed.Sample.defaults 1000 0
      Sample.largestRequest .paymentSuccess "psp_1" (.float Sample.largest) ∧
    ¬ Compares (fun _ _ => Sample.largestDigest) Malformed.Sample.defaults 1000 0
      Sample.largestRequest .paymentSuccess "psp_1" Sample.largest.value := by
  refine ⟨⟨⟨999999999999999999, by decide⟩, by decide +kernel⟩, Sample.received_largest,
    fun h => ?_⟩
  obtain ⟨amount, hp, hv⟩ := h.conversion
  have hconverted : decimalOf (.float Sample.largest) =
      .ok (.finite false 1000000000000000 (-1)) := by decide +kernel
  have hother : Decimal.value? (.finite false 1000000000000000 (-1)) ≠
      some Sample.largest.value := by decide +kernel
  unfold PassedOn at hp
  rw [receivePayload_eq Sample.received_largest, hconverted] at hp
  cases hp
  exact hother hv

/-- An amount of four digits is compared, also as a number literal. -/
theorem compares_rupees : Compares (fun _ _ => Sample.rupeesDigest) Malformed.Sample.defaults 1000 0
    Sample.rupeesRequest .paymentSuccess "psp_1" Sample.rupees.value := by
  have hkeeps : Keeps (.float Sample.rupees) := by
    have hvalue : Sample.rupees.value = (⟨15000000, by decide⟩ : Models.Money).value := by
      decide +kernel
    exact keeps_of_hasDigits hvalue (by decide) ⟨1500, 0, by norm_num, by decide +kernel⟩
  exact (compares_iff Sample.received_rupees (.number _)).mpr hkeeps

end PaymentGateway.Results.SignedAmounts
