import PaymentGateway.Lib.DecimalText
import PaymentGateway.Models

/-! # Requests and responses

The request schemas as their validators leave them: a value of a request type is one the schema
admits. -/

namespace PaymentGateway.Schemas

open PaymentGateway.Models PaymentGateway.Lib.Numerals PaymentGateway.Lib.DecimalArith
open PaymentGateway.Lib.DecimalText

/-! ### Amounts -/

/-- The digits after the point, of a coefficient at exponent `e`. -/
def decimalPlaces (e : ℤ) : ℕ := (-e).toNat

/-- The digits before it. -/
def wholeDigits (c : ℕ) (e : ℤ) : ℕ := (numDigits c + e).toNat

/-- What `Field(..., gt=Decimal("0"), max_digits=18, decimal_places=4)` admits: trailing zeros are
dropped before the digits are counted. -/
structure Admitted (amount : Decimal) : Prop where
  positive : amount.Positive
  digits : ∃ (neg : Bool) (c zeros : ℕ) (e : ℤ), amount = .finite neg (c * 10 ^ zeros) e ∧
    ¬ 10 ∣ c ∧ decimalPlaces (e + zeros) ≤ 4 ∧ wholeDigits c (e + zeros) ≤ 14

/-- `Money._amount_scale` -/
def amountScale (v : Decimal) : Except Signal Decimal :=
  Decimal.quantize 28 v (.finite false 1 (-4))

/-- An amount that is admitted is a number of units of the column, and quantizing it only writes it
so. -/
theorem amountScale_eq {v : Decimal} (h : Admitted v) : ∃ u : ℕ,
    amountScale v = .ok (.finite false u (-4)) ∧ 0 < u ∧ u < 10 ^ 18 ∧
      v.value? = some ((u : ℚ) * 10 ^ (-4 : ℤ)) := by
  obtain ⟨neg, c, zeros, e, rfl, hc, hplaces, hwhole⟩ := h.digits
  obtain hinf | ⟨q, hq, hpos⟩ := h.positive
  · cases hinf
  have hneg : neg = false := by
    cases neg with
    | false => rfl
    | true =>
      have hle : q ≤ 0 := by
        rw [← Option.some.inj hq]
        exact mul_nonpos_of_nonpos_of_nonneg (by simp [signed]) (by positivity)
      exact absurd hpos (not_lt.mpr hle)
  subst hneg
  have hc0 : c ≠ 0 := by rintro rfl; exact hc (dvd_zero 10)
  unfold decimalPlaces at hplaces
  unfold wholeDigits at hwhole
  -- the exponent without the zeros is at least that of the column
  have hvalue : ((c * 10 ^ zeros : ℕ) : ℚ) * 10 ^ e =
      ((c * 10 ^ (e + zeros + 4).toNat : ℕ) : ℚ) * 10 ^ (-4 : ℤ) := by
    have hs := scaled_value (c := c) (show (-4 : ℤ) ≤ e + zeros by omega)
    have hexp : e + zeros - (-4) = e + zeros + 4 := by ring
    rw [scaled, hexp, zpow_add₀ (by norm_num : (10 : ℚ) ≠ 0), zpow_natCast] at hs
    push_cast at hs ⊢
    rw [hs]
    ring
  have hfits : c * 10 ^ (e + zeros + 4).toNat < 10 ^ 18 := by
    rw [← numDigits_le_iff, numDigits_mul_pow hc0]
    omega
  refine ⟨c * 10 ^ (e + zeros + 4).toNat, ?_, by positivity, hfits, congrArg some ?_⟩
  · exact quantize_eq (hfits.trans (by norm_num)) hvalue
  · simpa [signed] using hvalue

/-! ### Orders -/

/-- `CreateOrderRequest`. The amount is positive, has at most 18 digits, 14 of them before the
point, and is quantized to 4 places. -/
structure CreateOrderRequest where
  amount : Decimal
  currency : String
  idempotencyKey : String
  description : Option String
  amount_valid : ∃ u : ℕ, amount = .finite false u (-4) ∧ 0 < u ∧ u < 10 ^ 18
  currency_valid : currency.length = 3
  idempotencyKey_valid : 8 ≤ idempotencyKey.length ∧ idempotencyKey.length ≤ 128
  description_valid : ∀ s ∈ description, s.length ≤ 512

structure CreateOrderResponse where
  orderId : String
  idempotencyKey : String
  amount : Money
  currency : String
  status : PaymentStatus
  deriving DecidableEq

/-! ### Initiations -/

/-- `str.strip` -/
def stripped (s : String) : String := String.ofList (strip (isUnicodeSpace ·.toNat) s.toList)

/-- `_validate_vpa`. The tables of `str.lower` are those of the interpreter. -/
def validateVpa (lower : String → String) (v : String) : Except String String :=
  let v := lower (stripped v)
  if '@' ∉ v.toList ∨ v.length < 5 ∨ 255 < v.length then
    .error "vpa must be a valid UPI address like name@bank"
  else .ok v

theorem validateVpa_iff {lower : String → String} {v vpa : String} :
    validateVpa lower v = .ok vpa ↔ lower (stripped v) = vpa ∧
      '@' ∈ vpa.toList ∧ 5 ≤ vpa.length ∧ vpa.length ≤ 255 := by
  unfold validateVpa
  constructor
  · intro h
    dsimp only at h
    split_ifs at h with hbad
    cases h
    push Not at hbad
    exact ⟨rfl, hbad⟩
  · rintro ⟨rfl, hat, hmin, hmax⟩
    refine if_neg ?_
    push Not
    exact ⟨hat, hmin, hmax⟩

/-- `UpiInitiateRequest`, with the vpa that the validator returns. -/
structure UpiInitiateRequest where
  idempotencyKey : String
  orderId : String
  vpa : String
  idempotencyKey_valid : 8 ≤ idempotencyKey.length ∧ idempotencyKey.length ≤ 128
  orderId_valid : 1 ≤ orderId.length
  vpa_valid : '@' ∈ vpa.toList ∧ 5 ≤ vpa.length ∧ vpa.length ≤ 255

/-- The members of the body of an initiation. -/
structure UpiInitiateBody where
  idempotencyKey : String
  orderId : String
  vpa : String

/-- The request of a body, if the schema admits it. -/
def UpiInitiateBody.validated (lower : String → String) (body : UpiInitiateBody) :
    Option UpiInitiateRequest :=
  if hkey : 8 ≤ body.idempotencyKey.length ∧ body.idempotencyKey.length ≤ 128 then
    if horder : 1 ≤ body.orderId.length then
      match hvpa : validateVpa lower body.vpa with
      | .error _ => none
      | .ok vpa => some ⟨body.idempotencyKey, body.orderId, vpa, hkey, horder,
          (validateVpa_iff.mp hvpa).2⟩
    else none
  else none

/-- A request is made of a body with its key and its order, and a vpa that is validated to its
own. -/
theorem UpiInitiateBody.validated_iff {lower : String → String} {body : UpiInitiateBody}
    {payload : UpiInitiateRequest} : body.validated lower = some payload ↔
      payload.idempotencyKey = body.idempotencyKey ∧ payload.orderId = body.orderId ∧
        validateVpa lower body.vpa = .ok payload.vpa := by
  obtain ⟨key, orderId, vpa⟩ := body
  obtain ⟨key', orderId', vpa', hkey', horder', hvpa'⟩ := payload
  unfold UpiInitiateBody.validated
  constructor
  · intro h
    split_ifs at h with hkey horder
    split at h
    · cases h
    · rename_i hvpa
      cases h
      exact ⟨rfl, rfl, hvpa⟩
  · rintro ⟨rfl, rfl, hvpa⟩
    rw [dif_pos hkey', dif_pos horder']
    split
    · rename_i he
      cases he.symm.trans hvpa
    · rename_i he
      cases he.symm.trans hvpa
      rfl

structure UpiInitiateResponse where
  transactionId : String
  orderId : String
  status : TransactionState
  pspReference : Option String
  deriving DecidableEq

/-! ### Callbacks -/

/-- The `Literal` of the same name: `"payment.success"` or `"payment.failed"`. -/
inductive BankCallbackEvent
  | paymentSuccess
  | paymentFailed
  deriving DecidableEq

def BankCallbackEvent.value : BankCallbackEvent → String
  | .paymentSuccess => "payment.success"
  | .paymentFailed => "payment.failed"

structure WebhookAck where
  accepted : Bool
  reason : Option String
  deriving DecidableEq

end PaymentGateway.Schemas
