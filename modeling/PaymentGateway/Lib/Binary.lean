import Mathlib.Algebra.Order.Field.Power
import Mathlib.Data.Int.Log
import Mathlib.Data.Rat.Floor
import Mathlib.Tactic.FieldSimp
import Mathlib.Tactic.Linarith
import Mathlib.Tactic.Positivity

/-! # Binary floating point

The numbers of a binary format, without a bound above, are the multiples of the unit in the last
place; `nearest` rounds to them, ties to even. It is for numbers that are not negative: the others are
rounded as their absolute values.

* `nearest_mono`: rounding is monotone, so that the numbers that are rounded to the same one are an
  interval;
* `nearest_nearest`: what is rounded is not changed by rounding. -/

namespace PaymentGateway.Lib.Binary

/-! ### Integers -/

/-- The nearest integer, ties to even. -/
def roundEven (q : ℚ) : ℤ :=
  if Int.fract q < 1 / 2 then ⌊q⌋
  else if 1 / 2 < Int.fract q then ⌊q⌋ + 1
  else if ⌊q⌋ % 2 = 0 then ⌊q⌋ else ⌊q⌋ + 1

theorem floor_le_roundEven (q : ℚ) : ⌊q⌋ ≤ roundEven q := by
  unfold roundEven
  split_ifs <;> omega

theorem roundEven_le_floor (q : ℚ) : roundEven q ≤ ⌊q⌋ + 1 := by
  unfold roundEven
  split_ifs <;> omega

theorem roundEven_mono {q r : ℚ} (h : q ≤ r) : roundEven q ≤ roundEven r := by
  obtain hlt | heq := (Int.floor_mono h).lt_or_eq
  · have hnext : ⌊q⌋ + 1 ≤ ⌊r⌋ := hlt
    exact (roundEven_le_floor q).trans (hnext.trans (floor_le_roundEven r))
  · have hfract : Int.fract q ≤ Int.fract r := by
      unfold Int.fract
      rw [heq]
      linarith
    unfold roundEven
    rw [heq]
    split_ifs <;> first | omega | (exfalso; linarith)

theorem roundEven_intCast (n : ℤ) : roundEven n = n := by
  unfold roundEven
  rw [Int.fract_intCast, Int.floor_intCast]
  norm_num

theorem abs_roundEven_sub (q : ℚ) : |roundEven q - q| ≤ 1 / 2 := by
  have hq : (⌊q⌋ : ℚ) + Int.fract q = q := Int.floor_add_fract q
  unfold roundEven
  rw [abs_le]
  split_ifs <;> push_cast <;> constructor <;> linarith [Int.fract_nonneg q, Int.fract_lt_one q]

/-! ### Formats -/

/-- The bits of the fraction, and the exponent of the smallest number. -/
structure Format where
  fractionBits : ℕ
  minExponent : ℤ

/-- The finite numbers of a float. -/
def binary64 : Format := ⟨52, -1074⟩

namespace Format

variable {F : Format} {q r : ℚ} {k : ℤ}

/-- The exponent of the unit in the last place. -/
def ulpExponent (F : Format) (q : ℚ) : ℤ := max (Int.log 2 q - F.fractionBits) F.minExponent

def ulp (F : Format) (q : ℚ) : ℚ := 2 ^ F.ulpExponent q

/-- The nearest number of the format, ties to even. -/
def nearest (F : Format) (q : ℚ) : ℚ := roundEven (q / F.ulp q) * F.ulp q

theorem ulp_pos (F : Format) (q : ℚ) : 0 < F.ulp q := zpow_pos two_pos _

/-- A power of two is a multiple of a smaller one. -/
theorem pow_div_ulp (h : F.ulpExponent q ≤ k) : ∃ n : ℤ, (2 : ℚ) ^ k / F.ulp q = n := by
  refine ⟨2 ^ (k - F.ulpExponent q).toNat, ?_⟩
  unfold ulp
  rw [← zpow_sub₀ two_ne_zero, Int.cast_pow, ← zpow_natCast,
    Int.toNat_of_nonneg (by omega)]
  rfl

theorem nearest_le_pow (h : q ≤ 2 ^ k) (hk : F.ulpExponent q ≤ k) : F.nearest q ≤ 2 ^ k := by
  obtain ⟨n, hn⟩ := pow_div_ulp hk
  have hpos := F.ulp_pos q
  have hround : roundEven (q / F.ulp q) ≤ n := by
    rw [← roundEven_intCast n, ← hn]
    exact roundEven_mono (div_le_div_of_nonneg_right h hpos.le)
  unfold nearest
  rw [← le_div_iff₀ hpos, hn]
  exact_mod_cast hround

theorem pow_le_nearest (h : 2 ^ k ≤ q) (hk : F.ulpExponent q ≤ k) : 2 ^ k ≤ F.nearest q := by
  obtain ⟨n, hn⟩ := pow_div_ulp hk
  have hpos := F.ulp_pos q
  have hround : n ≤ roundEven (q / F.ulp q) := by
    rw [← roundEven_intCast n, ← hn]
    exact roundEven_mono (div_le_div_of_nonneg_right h hpos.le)
  unfold nearest
  rw [← div_le_iff₀ hpos, hn]
  exact_mod_cast hround

theorem nearest_zero (F : Format) : F.nearest 0 = 0 := by
  unfold nearest
  rw [zero_div, ← Int.cast_zero, roundEven_intCast, Int.cast_zero, zero_mul]

theorem nearest_nonneg (h : 0 ≤ q) : 0 ≤ F.nearest q := by
  have hpos := F.ulp_pos q
  have hround : 0 ≤ roundEven (q / F.ulp q) := by
    rw [← roundEven_intCast 0, Int.cast_zero]
    exact roundEven_mono (div_nonneg h hpos.le)
  exact mul_nonneg (by exact_mod_cast hround) hpos.le

theorem ulpExponent_mono (hq : 0 < q) (h : q ≤ r) : F.ulpExponent q ≤ F.ulpExponent r :=
  max_le_max_right _ (sub_le_sub_right (Int.log_mono_right hq h) _)

/-- **Rounding is monotone.** -/
theorem nearest_mono (hq : 0 ≤ q) (h : q ≤ r) : F.nearest q ≤ F.nearest r := by
  obtain rfl | hpos := hq.eq_or_lt
  · rw [nearest_zero]
    exact nearest_nonneg h
  obtain hlt | heq := (ulpExponent_mono (F := F) hpos h).lt_or_eq
  · -- there is a power of two between them
    have hlog : F.ulpExponent r = Int.log 2 r - F.fractionBits := by
      unfold ulpExponent at hlt ⊢
      omega
    have hlogs : Int.log 2 q < Int.log 2 r := by
      unfold ulpExponent at hlt hlog
      omega
    have hq' : q ≤ 2 ^ Int.log 2 r := by
      refine (Int.lt_zpow_succ_log_self one_lt_two q).le.trans ?_
      exact zpow_le_zpow_right₀ one_le_two (by omega)
    have hr' : (2 : ℚ) ^ Int.log 2 r ≤ r := Int.zpow_log_le_self one_lt_two (hpos.trans_le h)
    exact (nearest_le_pow hq' (by omega)).trans (pow_le_nearest hr' (by omega))
  · unfold nearest
    have hulp : F.ulp q = F.ulp r := by
      unfold ulp
      rw [heq]
    rw [hulp]
    have hround := roundEven_mono (div_le_div_of_nonneg_right h (F.ulp_pos r).le)
    exact mul_le_mul_of_nonneg_right (by exact_mod_cast hround) (F.ulp_pos r).le

theorem nearest_of_multiple {n : ℤ} (h : q = n * F.ulp q) : F.nearest q = q := by
  unfold nearest
  have hdiv : q / F.ulp q = n := by
    rw [div_eq_iff (F.ulp_pos q).ne']
    exact h
  rw [hdiv, roundEven_intCast, ← h]

/-- **What is rounded** is a number of the format. -/
theorem nearest_nearest (hq : 0 ≤ q) : F.nearest (F.nearest q) = F.nearest q := by
  obtain hzero | hpos := (nearest_nonneg (F := F) hq).eq_or_lt
  · rw [← hzero, nearest_zero]
  have hmultiple : ∃ n : ℤ, F.nearest q = n * F.ulp (F.nearest q) := by
    obtain hle | hlt := le_or_gt (F.ulpExponent (F.nearest q)) (F.ulpExponent q)
    · obtain ⟨n, hn⟩ := pow_div_ulp hle
      refine ⟨roundEven (q / F.ulp q) * n, ?_⟩
      have hulp : F.ulp q = n * F.ulp (F.nearest q) := (div_eq_iff (F.ulp_pos _).ne').mp hn
      rw [Int.cast_mul, mul_assoc, ← hulp]
      rfl
    · -- rounding has reached the next power of two
      have hlow := Int.zpow_log_le_self one_lt_two hpos
      have hlogs : Int.log 2 q < Int.log 2 (F.nearest q) := by
        unfold ulpExponent at hlt
        omega
      have hexp : F.ulpExponent (F.nearest q) ≤ Int.log 2 (F.nearest q) := by
        unfold ulpExponent at hlt ⊢
        omega
      have hhigh : F.nearest q ≤ 2 ^ Int.log 2 (F.nearest q) := by
        refine nearest_le_pow ?_ (by omega)
        refine (Int.lt_zpow_succ_log_self one_lt_two q).le.trans ?_
        exact zpow_le_zpow_right₀ one_le_two (by omega)
      obtain ⟨n, hn⟩ := pow_div_ulp hexp
      exact ⟨n, (le_antisymm hhigh hlow).trans ((div_eq_iff (F.ulp_pos _).ne').mp hn)⟩
  obtain ⟨n, hn⟩ := hmultiple
  exact nearest_of_multiple hn

/-- A number between two that are rounded to the same is rounded to it, too. -/
theorem nearest_between {s : ℚ} (hq : 0 ≤ q) (h : q ≤ r) (h' : r ≤ s)
    (he : F.nearest q = F.nearest s) : F.nearest r = F.nearest q :=
  le_antisymm ((nearest_mono (hq.trans h) h').trans_eq he.symm) (nearest_mono hq h)

/-- Rounding to a number that is not subnormal moves by half a unit in its last place at most. -/
theorem abs_nearest_sub (hq : 0 < q) (hn : 2 ^ (F.minExponent + F.fractionBits) ≤ F.nearest q) :
    |F.nearest q - q| ≤ F.nearest q * 2 ^ (-(F.fractionBits : ℤ)) / 2 := by
  have hpos := F.ulp_pos q
  have hulp : F.ulp q ≤ F.nearest q * 2 ^ (-(F.fractionBits : ℤ)) := by
    rw [zpow_neg, ← div_eq_mul_inv, le_div_iff₀ (zpow_pos two_pos _)]
    unfold ulp
    rw [← zpow_add₀ two_ne_zero]
    obtain hle | hlt := le_or_gt (Int.log 2 q - F.fractionBits) F.minExponent
    · have hexp : F.ulpExponent q = F.minExponent := max_eq_right hle
      rwa [hexp]
    · have hexp : F.ulpExponent q = Int.log 2 q - F.fractionBits := max_eq_left hlt.le
      rw [hexp, sub_add_cancel]
      exact pow_le_nearest (Int.zpow_log_le_self one_lt_two hq) (by omega)
  have hround := abs_roundEven_sub (q / F.ulp q)
  calc |F.nearest q - q| = |roundEven (q / F.ulp q) - q / F.ulp q| * F.ulp q := by
        rw [← abs_of_pos hpos, ← abs_mul, abs_of_pos hpos, sub_mul, div_mul_cancel₀ _ hpos.ne']
        rfl
    _ ≤ 1 / 2 * F.ulp q := mul_le_mul_of_nonneg_right hround hpos.le
    _ ≤ F.nearest q * 2 ^ (-(F.fractionBits : ℤ)) / 2 := by linarith

end Format

end PaymentGateway.Lib.Binary
