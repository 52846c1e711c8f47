import Mathlib.Algebra.Order.Field.Basic
import Mathlib.Algebra.Order.Field.Power
import Mathlib.Data.Nat.Digits.Lemmas
import Mathlib.Data.Rat.Cast.Order
import Mathlib.Tactic.FieldSimp
import Mathlib.Tactic.Linarith
import Mathlib.Tactic.Positivity
import Mathlib.Tactic.Ring

/-! # Decimal floating point and fixed-point columns

`Decimal` is decimal floating point as the general decimal arithmetic has it: a sign, a coefficient
and an exponent, the infinities, and quiet and signaling NaNs. Comparison is exact; `add` rounds its
exact sum half to even to the precision of the context (`fix`). The limits on exponents are not
modelled. `Numeric p s` is a fixed-point database column of `p` digits, `s` of them after the point.

* `fix_value`: a number that fits the precision is not changed by rounding, however many zeros its
  coefficient carries;
* `add_exact`: hence a sum of two column values is exact, also when one of them is given in another
  representation;
* `Numeric.ofDecimal_eq_some`: a decimal is stored exactly when its value is one of the column. -/

namespace PaymentGateway.Lib.DecimalArith

/-- A decimal floating-point number: `(-1) ^ neg * coeff * 10 ^ exp`, or a special value. -/
inductive Decimal
  | finite (neg : Bool) (coeff : ℕ) (exp : ℤ)
  | infinity (neg : Bool)
  | nan
  | snan
  deriving DecidableEq

/-- The signal of an invalid operation, trapped by default. -/
inductive Signal
  | invalidOperation
  deriving DecidableEq

/-- The coefficient with its sign. -/
def signed (neg : Bool) (c : ℕ) : ℤ := if neg then -c else c

/-- An integer coefficient at exponent `e`, brought to the exponent `m ≤ e`. -/
def scaled (c e m : ℤ) : ℤ := c * 10 ^ (e - m).toNat

/-- The number of decimal digits; `0` for the coefficient `0`. -/
def numDigits (c : ℕ) : ℕ := (Nat.digits 10 c).length

/-- The last `k` digits dropped, half to even. -/
def roundHalfEven (c k : ℕ) : ℕ :=
  if 2 * (c % 10 ^ k) < 10 ^ k then c / 10 ^ k
  else if 10 ^ k < 2 * (c % 10 ^ k) then c / 10 ^ k + 1
  else if c / 10 ^ k % 2 = 0 then c / 10 ^ k else c / 10 ^ k + 1

/-- The last `k` digits dropped, half away from zero. -/
def roundHalfUp (c k : ℕ) : ℕ :=
  if 2 * (c % 10 ^ k) < 10 ^ k then c / 10 ^ k else c / 10 ^ k + 1

namespace Decimal

/-- A finite number rounded to the precision of the context. -/
def fix (prec : ℕ) (neg : Bool) (c : ℕ) (e : ℤ) : Decimal :=
  if numDigits c ≤ prec then finite neg c e
  else if roundHalfEven c (numDigits c - prec) = 10 ^ prec then
    finite neg (10 ^ (prec - 1)) (e + (numDigits c - prec : ℕ) + 1)
  else finite neg (roundHalfEven c (numDigits c - prec)) (e + (numDigits c - prec : ℕ))

/-- `x == y`. Only a signaling NaN signals. -/
def eq : Decimal → Decimal → Except Signal Bool
  | snan, _ => .error .invalidOperation
  | _, snan => .error .invalidOperation
  | finite s c e, finite t c' e' =>
    .ok (scaled (signed s c) e (min e e') == scaled (signed t c') e' (min e e'))
  | infinity s, infinity t => .ok (s == t)
  | _, _ => .ok false

/-- `x != y`. -/
def ne (x y : Decimal) : Except Signal Bool := (eq x y).map not

/-- `x <= y`. Every NaN signals. -/
def le : Decimal → Decimal → Except Signal Bool
  | finite s c e, finite t c' e' =>
    .ok (scaled (signed s c) e (min e e') ≤ scaled (signed t c') e' (min e e'))
  | finite _ _ _, infinity t => .ok !t
  | infinity s, finite _ _ _ => .ok s
  | infinity s, infinity t => .ok (s || !t)
  | _, _ => .error .invalidOperation

/-- `x + y` in a context of precision `prec`. -/
def add (prec : ℕ) : Decimal → Decimal → Except Signal Decimal
  | snan, _ => .error .invalidOperation
  | _, snan => .error .invalidOperation
  | nan, _ => .ok nan
  | _, nan => .ok nan
  | infinity s, infinity t => if s = t then .ok (infinity s) else .error .invalidOperation
  | infinity s, finite _ _ _ => .ok (infinity s)
  | finite _ _ _, infinity t => .ok (infinity t)
  | finite s c e, finite t c' e' =>
    let n := scaled (signed s c) e (min e e') + scaled (signed t c') e' (min e e')
    .ok (fix prec (if n = 0 then s && t else n < 0) n.natAbs (min e e'))

/-- `x.quantize(y)` in a context of precision `prec`: `x` with the exponent of `y`, half to even. It
signals if that takes more digits than the precision. -/
def quantize (prec : ℕ) : Decimal → Decimal → Except Signal Decimal
  | snan, _ => .error .invalidOperation
  | _, snan => .error .invalidOperation
  | nan, _ => .ok nan
  | _, nan => .ok nan
  | infinity s, infinity _ => .ok (infinity s)
  | infinity _, finite _ _ _ => .error .invalidOperation
  | finite _ _ _, infinity _ => .error .invalidOperation
  | finite s c e, finite _ _ t =>
    if c = 0 then .ok (finite s 0 t)
    else if prec < e + numDigits c - t then .error .invalidOperation
    else
      let n := if t ≤ e then c * 10 ^ (e - t).toNat else roundHalfEven c (t - e).toNat
      if prec < numDigits n then .error .invalidOperation else .ok (finite s n t)

/-- The value of a finite number. -/
def value? : Decimal → Option ℚ
  | finite s c e => some (signed s c * 10 ^ e)
  | _ => none

/-- A number above zero. -/
def Positive (x : Decimal) : Prop :=
  x = infinity false ∨ ∃ q, value? x = some q ∧ 0 < q

end Decimal

/-! ### Values -/

open Decimal

theorem scaled_value {c e m : ℤ} (h : m ≤ e) : (scaled c e m : ℚ) * 10 ^ m = c * 10 ^ e := by
  unfold scaled
  have he : ((e - m).toNat : ℤ) = e - m := Int.toNat_of_nonneg (by omega)
  push_cast
  rw [mul_assoc, ← zpow_natCast, he, ← zpow_add₀ (by norm_num : (10 : ℚ) ≠ 0), sub_add_cancel]

theorem natAbs_signed (s : Bool) (c : ℕ) : (signed s c).natAbs = c := by
  cases s <;> simp [signed]

theorem signed_natAbs (n : ℤ) : signed (n < 0) n.natAbs = n := by
  by_cases h : n < 0
  · simp only [signed, h, decide_true, if_true]; omega
  · simp only [signed, h, decide_false]; simp; omega

/-- **Equality is equality of values.** -/
theorem eq_finite {s t : Bool} {c c' : ℕ} {e e' : ℤ} :
    eq (finite s c e) (finite t c' e') = .ok true ↔
      value? (finite s c e) = value? (finite t c' e') := by
  have h1 := scaled_value (c := signed s c) (min_le_left e e')
  have h2 := scaled_value (c := signed t c') (min_le_right e e')
  have h0 : (10 : ℚ) ^ (min e e') ≠ 0 := zpow_ne_zero _ (by norm_num)
  simp only [Decimal.eq, value?, Except.ok.injEq, beq_iff_eq, Option.some.injEq, ← h1, ← h2]
  rw [mul_left_inj' h0, Int.cast_inj]

/-- A finite number differs from everything of another value; a signaling NaN signals. -/
theorem ne_finite {s : Bool} {c : ℕ} {e : ℤ} {y : Decimal} : ne (finite s c e) y =
    if y = snan then .error .invalidOperation
    else .ok (! decide (value? y = value? (finite s c e))) := by
  cases y with
  | finite t c' e' =>
    rw [if_neg (by simp)]
    have hiff : eq (finite s c e) (finite t c' e') = .ok true ↔
        value? (finite s c e) = value? (finite t c' e') := eq_finite
    unfold ne
    by_cases h : value? (finite s c e) = value? (finite t c' e')
    · rw [hiff.mpr h, decide_eq_true h.symm]
      rfl
    · rw [decide_eq_false fun hc => h hc.symm]
      cases hb : scaled (signed s c) e (min e e') == scaled (signed t c') e' (min e e') with
      | true => exact absurd (hiff.mp (congrArg Except.ok hb)) h
      | false =>
        rw [show eq (finite s c e) (finite t c' e') = .ok false from congrArg Except.ok hb]
        rfl
  | infinity t => rfl
  | nan => rfl
  | snan => rfl

theorem eq_some_value {x y : Decimal} {q : ℚ} (hx : value? x = some q) (h : eq x y = .ok true) :
    value? y = some q := by
  cases x with
  | finite s c e =>
    cases y with
    | finite t c' e' => rw [← eq_finite.mp h]; exact hx
    | infinity t => cases h
    | nan => cases h
    | snan => cases h
  | infinity s => cases hx
  | nan => cases hx
  | snan => cases hx

/-- **The order is the order of values.** -/
theorem le_finite {s t : Bool} {c c' : ℕ} {e e' : ℤ} :
    le (finite s c e) (finite t c' e') =
      .ok (decide ((signed s c : ℚ) * 10 ^ e ≤ signed t c' * 10 ^ e')) := by
  have h1 := scaled_value (c := signed s c) (min_le_left e e')
  have h2 := scaled_value (c := signed t c') (min_le_right e e')
  have h0 : (0 : ℚ) < 10 ^ min e e' := zpow_pos (by norm_num) _
  refine congrArg Except.ok (decide_eq_decide.mpr ?_)
  rw [← h1, ← h2, mul_le_mul_iff_left₀ h0, Int.cast_le]

/-- `x <= 0` is false of what is above zero; a NaN signals. -/
theorem le_zero_iff {x : Decimal} : le x (finite false 0 0) = .ok false ↔ Positive x := by
  cases x with
  | finite s c e => simp [le_finite, Positive, value?, signed]
  | infinity s => cases s <;> simp [le, Positive, value?]
  | nan => simp [le, Positive, value?]
  | snan => simp [le, Positive, value?]

/-! ### Rounding -/

theorem roundHalfEven_dvd {c k : ℕ} (h : 10 ^ k ∣ c) : roundHalfEven c k = c / 10 ^ k := by
  unfold roundHalfEven
  rw [Nat.mod_eq_zero_of_dvd h, if_pos (by positivity)]

theorem roundHalfUp_dvd {c k : ℕ} (h : 10 ^ k ∣ c) : roundHalfUp c k = c / 10 ^ k := by
  unfold roundHalfUp
  rw [Nat.mod_eq_zero_of_dvd h, if_pos (by positivity)]

theorem lt_pow_numDigits (c : ℕ) : c < 10 ^ numDigits c :=
  Nat.lt_base_pow_length_digits (by norm_num)

theorem pow_numDigits_le {c : ℕ} (h : c ≠ 0) : 10 ^ numDigits c ≤ 10 * c :=
  Nat.base_pow_length_digits_le 10 c (by norm_num) h

theorem numDigits_le_iff {c k : ℕ} : numDigits c ≤ k ↔ c < 10 ^ k :=
  Nat.digits_length_le_iff (by norm_num) c

/-- Each trailing zero is a digit. -/
theorem numDigits_mul_pow {c : ℕ} (h : c ≠ 0) (k : ℕ) :
    numDigits (c * 10 ^ k) = numDigits c + k := by
  unfold numDigits
  rw [mul_comm, Nat.digits_base_pow_mul (by norm_num) (Nat.pos_of_ne_zero h), List.length_append,
    List.length_replicate, Nat.add_comm]

/-- A coefficient at exponent `e` that is `n` at a higher exponent `t` ends in `t - e` zeros. -/
theorem coeff_eq {c n : ℕ} {e t : ℤ} (h : (c : ℚ) * 10 ^ e = n * 10 ^ t) (het : e ≤ t) :
    c = n * 10 ^ (t - e).toNat := by
  have hs := scaled_value (c := n) het
  have h0 : (10 : ℚ) ^ e ≠ 0 := zpow_ne_zero _ (by norm_num)
  rw [Int.cast_natCast, ← h, mul_left_inj' h0] at hs
  have : scaled n t e = (c : ℤ) := by exact_mod_cast hs
  unfold scaled at this
  exact_mod_cast this.symm

/-- **A number that fits the precision is not rounded**, whatever its representation. -/
theorem fix_value {prec : ℕ} {neg : Bool} {c n : ℕ} {e t : ℤ} (hn : n < 10 ^ prec)
    (h : (c : ℚ) * 10 ^ e = n * 10 ^ t) :
    value? (fix prec neg c e) = value? (finite neg c e) := by
  unfold fix
  by_cases hk : numDigits c ≤ prec
  · rw [if_pos hk]
  rw [if_neg hk]
  obtain ⟨k, hk'⟩ : ∃ k, numDigits c = prec + k := ⟨numDigits c - prec, by omega⟩
  have hkk : numDigits c - prec = k := by omega
  rw [hkk]
  have hc0 : c ≠ 0 := by rintro rfl; simp [numDigits] at hk
  have hlow := pow_numDigits_le hc0
  have hhigh := lt_pow_numDigits c
  rw [hk', pow_add] at hlow hhigh
  have hpos : 0 < 10 ^ prec := by positivity
  -- the representation has a higher exponent than `e`, so `c` ends in enough zeros
  have hk10 : 10 ≤ 10 ^ k := by
    calc 10 = 10 ^ 1 := by norm_num
      _ ≤ 10 ^ k := Nat.pow_le_pow_right (by norm_num) (by omega)
  have het : e ≤ t := by
    by_contra hlt
    have := coeff_eq h.symm (by omega)
    have hge : c ≤ n := by rw [this]; exact Nat.le_mul_of_pos_right _ (by positivity)
    nlinarith
  have hc := coeff_eq h het
  have hkt : k ≤ (t - e).toNat := by
    by_contra hlt
    have h1 : 10 * 10 ^ (t - e).toNat ≤ 10 ^ k := by
      rw [← pow_succ']; exact Nat.pow_le_pow_right (by norm_num) (by omega)
    nlinarith
  have hdvd : 10 ^ k ∣ c := by
    rw [hc]; exact Dvd.dvd.mul_left (pow_dvd_pow 10 hkt) n
  rw [roundHalfEven_dvd hdvd, if_neg]
  · obtain ⟨q, rfl⟩ := hdvd
    rw [Nat.mul_div_cancel_left _ (by positivity)]
    have hz : (10 : ℚ) ^ (e + (k : ℤ)) = 10 ^ k * 10 ^ e := by
      rw [zpow_add₀ (by norm_num : (10 : ℚ) ≠ 0), zpow_natCast, mul_comm]
    cases neg <;> simp only [value?, signed, hz] <;> push_cast <;> congr 1 <;> ring
  · intro hq
    have := Nat.div_mul_cancel hdvd
    rw [hq] at this
    omega

/-- **A number with a coefficient at the exponent of `y` is quantized to it exactly** if the
coefficient fits the precision. -/
theorem quantize_eq {prec : ℕ} {neg s : Bool} {c c' n : ℕ} {e t : ℤ} (hn : n < 10 ^ prec)
    (h : (c : ℚ) * 10 ^ e = n * 10 ^ t) :
    quantize prec (finite neg c e) (finite s c' t) = .ok (finite neg n t) := by
  have hdigits : numDigits n ≤ prec := numDigits_le_iff.mpr hn
  have h0 : ∀ k : ℤ, (10 : ℚ) ^ k ≠ 0 := fun k => zpow_ne_zero k (by norm_num)
  unfold quantize
  dsimp only
  by_cases hc : c = 0
  · have hn0 : n = 0 := by
      rw [hc, Nat.cast_zero, zero_mul, eq_comm, mul_eq_zero] at h
      exact_mod_cast h.resolve_right (h0 t)
    rw [if_pos hc, hn0]
  have hn0 : n ≠ 0 := by
    rintro rfl
    rw [Nat.cast_zero, zero_mul, mul_eq_zero] at h
    exact hc (by exact_mod_cast h.resolve_right (h0 e))
  rw [if_neg hc]
  by_cases het : t ≤ e
  · have hpad : n = c * 10 ^ (e - t).toNat := coeff_eq h.symm het
    have hlen := numDigits_mul_pow hc (e - t).toNat
    rw [← hpad] at hlen
    rw [if_neg (by omega), if_pos het, ← hpad, if_neg (Nat.not_lt.mpr hdigits)]
  · have hzeros : c = n * 10 ^ (t - e).toNat := coeff_eq h (by omega)
    have hlen := numDigits_mul_pow hn0 (t - e).toNat
    rw [← hzeros] at hlen
    have hround : roundHalfEven c (t - e).toNat = n := by
      rw [roundHalfEven_dvd ⟨n, by rw [hzeros, mul_comm]⟩, hzeros,
        Nat.mul_div_cancel _ (by positivity)]
    rw [if_neg (by omega), if_neg het, hround, if_neg (Nat.not_lt.mpr hdigits)]

/-! ### Fixed-point columns -/

/-- A value of a `NUMERIC(p, s)` column: an integer number of units `10 ^ -s`. -/
@[ext]
structure Numeric (p s : ℕ) where
  units : ℤ
  fits : units.natAbs < 10 ^ p
  deriving DecidableEq

namespace Numeric

variable {p s : ℕ}

/-- The column value as the driver returns it, with exponent `-s`. -/
def toDecimal (x : Numeric p s) : Decimal := .finite (x.units < 0) x.units.natAbs (-s)

/-- The number in the column. -/
def value (x : Numeric p s) : ℚ := x.units * 10 ^ (-s : ℤ)

/-- The units of a decimal rounded to the scale of the column, half away from zero. -/
def unitsOf (s : ℕ) (neg : Bool) (c : ℕ) (e : ℤ) : ℤ :=
  signed neg (if 0 ≤ e + s then c * 10 ^ (e + s).toNat else roundHalfUp c (-(e + s)).toNat)

/-- The column value that a decimal is stored as; none if it is out of range. -/
def ofDecimal (p s : ℕ) : Decimal → Option (Numeric p s)
  | .finite neg c e =>
    if h : (unitsOf s neg c e).natAbs < 10 ^ p then some ⟨unitsOf s neg c e, h⟩ else none
  | _ => none

theorem value_toDecimal (x : Numeric p s) :
    value? x.toDecimal = some (x.units * 10 ^ (-s : ℤ) : ℚ) := by
  simp only [toDecimal, value?]
  rw [signed_natAbs]

theorem unitsOf_eq {neg : Bool} {c : ℕ} {e u : ℤ}
    (h : (signed neg c : ℚ) * 10 ^ e = u * 10 ^ (-s : ℤ)) : unitsOf s neg c e = u := by
  unfold unitsOf
  by_cases he : 0 ≤ e + s
  · rw [if_pos he]
    have hs := scaled_value (c := signed neg c) (show (-s : ℤ) ≤ e by omega)
    have h0 : (10 : ℚ) ^ (-s : ℤ) ≠ 0 := zpow_ne_zero _ (by norm_num)
    rw [h, mul_left_inj' h0, Int.cast_inj] at hs
    rw [← hs]
    cases neg <;> simp [scaled, signed]
  · rw [if_neg he]
    have hs := scaled_value (c := u) (show e ≤ (-s : ℤ) by omega)
    have h0 : (10 : ℚ) ^ e ≠ 0 := zpow_ne_zero _ (by norm_num)
    rw [← h, mul_left_inj' h0, Int.cast_inj] at hs
    have hn : (-(s : ℤ) - e).toNat = (-(e + s)).toNat := by congr 1; omega
    have hc : c = u.natAbs * 10 ^ (-(e + s)).toNat := by
      have := congrArg Int.natAbs hs
      rw [natAbs_signed] at this
      rw [← this, scaled, Int.natAbs_mul, Int.natAbs_pow, hn]
      rfl
    rw [roundHalfUp_dvd ⟨u.natAbs, by rw [hc]; ring⟩, hc,
      Nat.mul_div_cancel _ (by positivity)]
    have hpos : (0 : ℤ) < 10 ^ (-(s : ℤ) - e).toNat := by positivity
    unfold scaled at hs
    cases neg with
    | false =>
      have : 0 ≤ u := by
        by_contra hu
        have : u * 10 ^ (-(s : ℤ) - e).toNat < 0 := mul_neg_of_neg_of_pos (by omega) hpos
        simp only [signed] at hs
        simp at hs
        omega
      simp only [signed]; simp; omega
    | true =>
      have : u ≤ 0 := by
        by_contra hu
        have : 0 < u * 10 ^ (-(s : ℤ) - e).toNat := mul_pos (by omega) hpos
        simp only [signed] at hs
        simp at hs
        omega
      simp only [signed, if_true]; omega

/-- **A decimal whose value is one of the column is stored exactly.** -/
theorem ofDecimal_eq_some {x : Decimal} {u : ℤ} (h : value? x = some (u * 10 ^ (-s : ℤ) : ℚ))
    {z : Numeric p s} : ofDecimal p s x = some z ↔ z.units = u := by
  cases x with
  | finite neg c e =>
    have hu := unitsOf_eq (s := s) (by simpa [value?] using h)
    simp only [ofDecimal, hu]
    constructor
    · intro hz
      split_ifs at hz with hf
      cases hz; rfl
    · rintro rfl
      rw [dif_pos z.fits]
  | infinity neg => cases h
  | nan => cases h
  | snan => cases h

/-- A decimal of a value beyond the range of the column is not stored. -/
theorem ofDecimal_eq_none {x : Decimal} {u : ℤ} (h : value? x = some (u * 10 ^ (-s : ℤ) : ℚ)) :
    ofDecimal p s x = none ↔ 10 ^ p ≤ u.natAbs := by
  constructor
  · intro hnone
    by_contra hlt
    have hsome : ofDecimal p s x = some ⟨u, Nat.not_le.mp hlt⟩ := (ofDecimal_eq_some h).mpr rfl
    rw [hnone] at hsome
    cases hsome
  · intro hle
    cases hz : ofDecimal p s x with
    | none => rfl
    | some z =>
      have hu : z.units = u := (ofDecimal_eq_some h).mp hz
      exact absurd (hu ▸ z.fits) (Nat.not_lt.mpr hle)

/-- **Exact addition.** If `a` has the value of the column value `y`, in any representation, then
`x + a` is computed without rounding as soon as the sum fits the precision. -/
theorem add_exact {prec : ℕ} {x y : Numeric p s} {a : Decimal}
    (ha : Decimal.eq y.toDecimal a = .ok true) (hfit : (x.units + y.units).natAbs < 10 ^ prec) :
    ∃ r, Decimal.add prec x.toDecimal a = .ok r ∧
      value? r = some ((x.units + y.units : ℤ) * 10 ^ (-s : ℤ) : ℚ) := by
  have hv := eq_some_value y.value_toDecimal ha
  cases a with
  | finite t c e =>
    refine ⟨_, rfl, ?_⟩
    have h1 := scaled_value (c := signed (x.units < 0) x.units.natAbs) (min_le_left (-s : ℤ) e)
    have h2 := scaled_value (c := signed t c) (min_le_right (-s : ℤ) e)
    have hv' : (signed t c : ℚ) * 10 ^ e = y.units * 10 ^ (-s : ℤ) := by simpa [value?] using hv
    rw [signed_natAbs] at h1 ⊢
    set m := min (-s : ℤ) e with hm
    set n := scaled x.units (-s) m + scaled (signed t c) e m with hn
    have hsum : (n : ℚ) * 10 ^ m = (x.units + y.units : ℤ) * 10 ^ (-s : ℤ) := by
      rw [hn]; push_cast; rw [add_mul, h1, h2, hv']; ring
    have hexact : value? (.finite (if n = 0 then (decide (x.units < 0) && t) else n < 0) n.natAbs m)
        = some ((x.units + y.units : ℤ) * 10 ^ (-s : ℤ) : ℚ) := by
      have hsg : signed (if n = 0 then (decide (x.units < 0) && t) else n < 0) n.natAbs = n := by
        by_cases h0 : n = 0
        · simp [h0, signed]
        · rw [if_neg h0]; exact signed_natAbs n
      simp only [value?, hsg, hsum]
    rw [fix_value hfit, hexact]
    have habs := congrArg abs hsum
    rw [abs_mul, abs_mul, abs_of_pos (zpow_pos (by norm_num : (0 : ℚ) < 10) m),
      abs_of_pos (zpow_pos (by norm_num : (0 : ℚ) < 10) (-s : ℤ))] at habs
    rw [Nat.cast_natAbs, Nat.cast_natAbs, Int.cast_abs, Int.cast_abs]
    exact habs
  | infinity t => cases hv
  | nan => cases hv
  | snan => cases hv

end Numeric

end PaymentGateway.Lib.DecimalArith
