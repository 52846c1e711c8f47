import PaymentGateway.Lib.DecimalText
import PaymentGateway.Lib.ShortestDecimal

/-! # Floats from text, and their text

`parseFloat` is Python's `float` of a numeral: it rounds to binary64. `repr` is the text of a float:
the shortest decimal that is rounded to it, with a point or an exponent.

* `reprNumeral_value`: the text denotes that decimal;
* `parseDecimal_parseFloat`: which numerals are still exact when they have been a float. -/

namespace PaymentGateway.Lib.Floats

open PaymentGateway.Lib.Numerals PaymentGateway.Lib.DecimalText PaymentGateway.Lib.DecimalArith
open PaymentGateway.Lib.Binary PaymentGateway.Lib.ShortestDecimal

/-- The absolute value of a finite float. -/
structure Magnitude where
  value : ℚ
  nonneg : 0 ≤ value
  rounded : binary64.nearest value = value
  lt : value < 2 ^ 1024

inductive Float64
  | finite (negative : Bool) (magnitude : Magnitude)
  | infinity (negative : Bool)
  | nan

/-- The absolute value of a numeral. -/
def magnitude (n : Numeral) : ℚ := n.coefficient * 10 ^ n.scale

theorem magnitude_nonneg (n : Numeral) : 0 ≤ magnitude n :=
  mul_nonneg (Nat.cast_nonneg _) (zpow_pos (by norm_num) _).le

/-- `float(s)` of a numeral. -/
def parseFloat (n : Numeral) : Float64 :=
  if h : binary64.nearest (magnitude n) < 2 ^ 1024 then
    .finite (n.sign = some .minus) ⟨binary64.nearest (magnitude n),
      Format.nearest_nonneg (magnitude_nonneg n), Format.nearest_nearest (magnitude_nonneg n), h⟩
  else .infinity (n.sign = some .minus)

/-- `bool(x)` -/
def Float64.truthy : Float64 → Bool
  | .finite _ m => m.value ≠ 0
  | .infinity _ => true
  | .nan => true

/-! ### Text -/

/-- The decimal digits of a number. -/
def digitsOf (c : ℕ) : List ℕ := (Nat.digits 10 c).reverse

/-- The exponent, in at least two digits. -/
def exponentOf (e : ℤ) : Exponent where
  mark := 0x65
  sign := some (if e < 0 then .minus else .plus)
  digits := if e.natAbs < 10 then [0, e.natAbs] else digitsOf e.natAbs

/-- The digits, with the point after `point` of them. -/
def layout (sign : Option Sign) (ds : List ℕ) (point : ℤ) : Numeral :=
  if 0 < point ∧ point ≤ 16 then
    if ds.length ≤ point.toNat then
      ⟨sign, ds ++ List.replicate (point.toNat - ds.length) 0, some [0], none⟩
    else ⟨sign, ds.take point.toNat, some (ds.drop point.toNat), none⟩
  else if -4 < point ∧ point ≤ 0 then
    ⟨sign, [0], some (List.replicate (-point).toNat 0 ++ ds), none⟩
  else if ds.length ≤ 1 then ⟨sign, ds, none, some (exponentOf (point - 1))⟩
  else ⟨sign, ds.take 1, some (ds.drop 1), some (exponentOf (point - 1))⟩

/-- The shortest decimal that is rounded to `m`: its digits, and their exponent. -/
def shortestOf (m : ℚ) : ℕ × ℤ :=
  match search binary64 m (steps binary64 m) 1 with
  | some (k, c) =>
    if c = 10 ^ k then (1, gridExponent m k + k) else (c, gridExponent m k)
  | none => (0, 0)

def signOf (negative : Bool) : Option Sign := if negative then some .minus else none

/-- The numeral of a finite float. -/
def reprNumeral (negative : Bool) (m : ℚ) : Numeral :=
  if m = 0 then ⟨signOf negative, [0], some [0], none⟩
  else
    let d := shortestOf m
    layout (signOf negative) (digitsOf d.1) (d.2 + (digitsOf d.1).length)

/-- `repr(x)` -/
def repr : Float64 → Text
  | .finite negative m => (reprNumeral negative m.value).text
  | .infinity negative => text (if negative then "-inf" else "inf")
  | .nan => text "nan"

/-! ### Digits -/

variable {ds es : List ℕ} {sign : Option Sign} {m : ℚ} {n : Numeral}

theorem ofDigits_snoc (ds : List ℕ) (d : ℕ) : ofDigits (ds ++ [d]) = 10 * ofDigits ds + d :=
  List.foldl_append ..

theorem ofDigits_append (ds es : List ℕ) :
    ofDigits (ds ++ es) = ofDigits ds * 10 ^ es.length + ofDigits es := by
  induction es using List.reverseRecOn with
  | nil => simp [ofDigits]
  | append_singleton es e ih =>
    rw [← List.append_assoc, ofDigits_snoc, ofDigits_snoc, ih, List.length_append,
      List.length_singleton]
    ring

theorem ofDigits_zeros (z : ℕ) : ofDigits (List.replicate z 0) = 0 := by
  induction z with
  | zero => rfl
  | succ z ih =>
    rw [List.replicate_succ', ofDigits_append, ih]
    rfl

theorem ofDigits_reverse (ds : List ℕ) : ofDigits ds.reverse = Nat.ofDigits 10 ds := by
  induction ds with
  | nil => rfl
  | cons d ds ih =>
    rw [List.reverse_cons, ofDigits_append, ih, Nat.ofDigits_cons]
    simp only [ofDigits, List.length_singleton, List.foldl_cons, List.foldl_nil]
    push_cast
    ring

theorem ofDigits_digitsOf (c : ℕ) : ofDigits (digitsOf c) = c := by
  unfold digitsOf
  rw [ofDigits_reverse, Nat.ofDigits_digits]

theorem digitsOf_lt (c : ℕ) : ∀ d ∈ digitsOf c, d < 10 := fun _ hd =>
  Nat.digits_lt_base (by norm_num) (List.mem_reverse.mp hd)

theorem digitsOf_ne_nil {c : ℕ} (h : c ≠ 0) : digitsOf c ≠ [] := by
  unfold digitsOf
  rw [ne_eq, List.reverse_eq_nil_iff]
  exact Nat.digits_ne_nil_iff_ne_zero.mpr h

theorem exponentOf_digits (e : ℤ) :
    (exponentOf e).digits ≠ [] ∧ ∀ d ∈ (exponentOf e).digits, d < 10 := by
  unfold exponentOf
  dsimp only
  split_ifs with hsmall
  · exact ⟨List.cons_ne_nil _ _, by simp [hsmall]⟩
  · exact ⟨digitsOf_ne_nil (by omega), digitsOf_lt _⟩

theorem exponentOf_value (e : ℤ) : (exponentOf e).value = e := by
  have hdigits : ofDigits (exponentOf e).digits = e.natAbs := by
    unfold exponentOf
    dsimp only
    split_ifs
    · simp [ofDigits]
    · exact ofDigits_digitsOf _
  have hsign : (exponentOf e).sign = some .minus ↔ e < 0 := by
    unfold exponentOf
    dsimp only
    split_ifs with h <;> simp [h]
  unfold Exponent.value signed
  rw [hdigits]
  simp only [hsign, decide_eq_true_eq]
  split_ifs <;> omega

/-! ### The layout -/

theorem layout_sign (sign : Option Sign) (ds : List ℕ) (point : ℤ) :
    (layout sign ds point).sign = sign := by
  unfold layout
  split_ifs <;> rfl

theorem layout_valid (hne : ds ≠ []) (hlt : ∀ d ∈ ds, d < 10) (sign : Option Sign) (point : ℤ) :
    (layout sign ds point).Valid := by
  have hexponent : ∀ e ∈ some (exponentOf (point - 1)), (e.mark = 0x65 ∨ e.mark = 0x45) ∧
      e.digits ≠ [] ∧ ∀ d ∈ e.digits, d < 10 := by
    rintro e ⟨⟩
    exact ⟨.inl rfl, exponentOf_digits _⟩
  have hnone : ∀ e ∈ (none : Option Exponent), (e.mark = 0x65 ∨ e.mark = 0x45) ∧
      e.digits ≠ [] ∧ ∀ d ∈ e.digits, d < 10 := fun e he => by cases he
  have hzeros : ∀ z, ∀ d ∈ List.replicate z 0, d < 10 := fun z d hd => by
    rw [(List.mem_replicate.mp hd).2]
    norm_num
  have hall : ∀ k, ∀ d ∈ ds.take k ++ ds.drop k, d < 10 := fun k => by
    rwa [List.take_append_drop]
  unfold layout
  split_ifs
  · refine ⟨fun d hd => ?_, ?_, hnone⟩
    · simp only [Numeral.digits, Option.getD_some, List.mem_append, List.mem_singleton] at hd
      rcases hd with (hd | hd) | rfl
      · exact hlt d hd
      · exact hzeros _ d hd
      · norm_num
    · simp [Numeral.digits]
  · exact ⟨hall _, by simpa [Numeral.digits] using hne, hnone⟩
  · refine ⟨fun d hd => ?_, by simp [Numeral.digits], hnone⟩
    simp only [Numeral.digits, Option.getD_some, List.mem_append, List.mem_singleton] at hd
    rcases hd with rfl | hd | hd
    · norm_num
    · exact hzeros _ d hd
    · exact hlt d hd
  · exact ⟨by simpa [Numeral.digits] using hlt, by simpa [Numeral.digits] using hne, hexponent⟩
  · refine ⟨hall _, ?_, hexponent⟩
    change ds.take 1 ++ ds.drop 1 ≠ []
    rwa [List.take_append_drop]

/-- The layout denotes the digits with the point after `point` of them. -/
theorem magnitude_layout (hne : ds ≠ []) (sign : Option Sign) (point : ℤ) :
    magnitude (layout sign ds point) = ofDigits ds * 10 ^ (point - ds.length) := by
  have hlen := List.length_pos_iff.mpr hne
  have hzero : ofDigits [0] = 0 := rfl
  unfold magnitude layout
  split_ifs with hpos hshort hsmall hone
  · -- zeros before the point, and one after it
    simp only [Numeral.coefficient, Numeral.digits, Numeral.scale, Option.getD_some,
      Option.map_none, Option.getD_none, List.length_singleton, ofDigits_append, ofDigits_zeros,
      List.length_replicate, hzero]
    have hexp : point - ds.length = (point.toNat - ds.length : ℕ) := by omega
    rw [hexp, zpow_natCast]
    push_cast
    norm_num
    ring
  · have hdrop : ofDigits (ds.take point.toNat ++ ds.drop point.toNat) = ofDigits ds := by
      rw [List.take_append_drop]
    simp only [Numeral.coefficient, Numeral.digits, Numeral.scale, Option.getD_some,
      Option.map_none, Option.getD_none, hdrop, List.length_drop]
    congr 2
    omega
  · simp only [Numeral.coefficient, Numeral.digits, Numeral.scale, Option.getD_some,
      Option.map_none, Option.getD_none, List.length_append, List.length_replicate, ofDigits_append,
      ofDigits_zeros]
    rw [hzero, zero_mul, zero_add, zero_mul, zero_add]
    congr 2
    push_cast
    omega
  · have hlen1 : ds.length = 1 := by omega
    simp only [Numeral.coefficient, Numeral.digits, Numeral.scale, Option.getD_some,
      Option.map_some, Option.getD_none, List.append_nil, List.length_nil, exponentOf_value, hlen1]
    norm_num
  · have hdrop : ofDigits (ds.take 1 ++ ds.drop 1) = ofDigits ds := by
      rw [List.take_append_drop]
    simp only [Numeral.coefficient, Numeral.digits, Numeral.scale, Option.getD_some,
      Option.map_some, hdrop, List.length_drop, exponentOf_value]
    congr 2
    omega

theorem layout_scale (sign : Option Sign) (ds : List ℕ) (point : ℤ) :
    (layout sign ds point).scale = -1 ∨
      (layout sign ds point).scale = point - ds.length ∨ ds = [] := by
  unfold layout
  split_ifs with hpos hshort hsmall hone
  · exact .inl rfl
  · refine .inr (.inl ?_)
    simp only [Numeral.scale, Option.map_none, Option.getD_none, Option.getD_some, List.length_drop]
    omega
  · refine .inr (.inl ?_)
    simp only [Numeral.scale, Option.map_none, Option.getD_none, Option.getD_some,
      List.length_append, List.length_replicate]
    omega
  · cases ds with
    | nil => exact .inr (.inr rfl)
    | cons d ds =>
      refine .inr (.inl ?_)
      simp only [Numeral.scale, Option.map_some, Option.getD_some, exponentOf_value,
        Option.getD_none, List.length_nil, List.length_cons] at hone ⊢
      omega
  · refine .inr (.inl ?_)
    simp only [Numeral.scale, Option.map_some, Option.getD_some, exponentOf_value, List.length_drop]
    omega

/-! ### The shortest decimal -/

/-- The value of the text of a float. -/
def shortestValue (m : ℚ) : ℚ := if m = 0 then 0 else (shortestOf m).1 * 10 ^ (shortestOf m).2

variable {k c : ℕ}

/-- The digits are those of the shortest decimal, without the zeros of a power of ten. -/
theorem shortestOf_spec (hm : 0 < m) (hmf : binary64.nearest m = m) :
    ∃ k c, Shortest binary64 m k c ∧ shortestValue m = c * grid m k ∧
      (shortestOf m).1 ≠ 0 ∧ gridExponent m k ≤ (shortestOf m).2 := by
  obtain ⟨⟨k, c⟩, hr⟩ := exists_search hm hmf (by decide : binary64.minExponent ≤ 0)
  have hs := search_shortest hm hmf hr
  have hzero : c ≠ 0 := by
    rintro rfl
    have hrounds := hs.rounds
    rw [Nat.cast_zero, zero_mul, Format.nearest_zero] at hrounds
    exact hm.ne hrounds
  refine ⟨k, c, hs, ?_⟩
  unfold shortestValue shortestOf
  rw [if_neg hm.ne', hr]
  dsimp only
  split_ifs with hpow
  · refine ⟨?_, one_ne_zero, by omega⟩
    rw [hpow]
    unfold grid
    push_cast
    rw [zpow_add₀ (by norm_num : (10 : ℚ) ≠ 0), zpow_natCast]
    ring
  · exact ⟨rfl, hzero, le_rfl⟩

/-- The text of a float is rounded to it. -/
theorem nearest_shortestValue (hm : 0 ≤ m) (hmf : binary64.nearest m = m) :
    binary64.nearest (shortestValue m) = m := by
  obtain rfl | hpos := hm.eq_or_lt
  · unfold shortestValue
    rw [if_pos rfl, Format.nearest_zero]
  · obtain ⟨k, c, hs, hv, -⟩ := shortestOf_spec hpos hmf
    rw [hv]
    exact hs.rounds

/-- **The text of the nearest float** denotes a number itself just if it is zero or the shortest
decimal of that float. -/
theorem shortestValue_nearest {a : ℚ} (ha : 0 ≤ a) :
    shortestValue (binary64.nearest a) = a ↔ a = 0 ∨ IsShortest binary64 a := by
  have hm : 0 ≤ binary64.nearest a := Format.nearest_nonneg ha
  obtain hzero | hpos := hm.eq_or_lt
  · rw [← hzero]
    unfold shortestValue
    rw [if_pos rfl]
    refine ⟨fun h => .inl h.symm, ?_⟩
    rintro (h | ⟨k, c, hs, -⟩)
    · exact h.symm
    · rw [← hzero] at hs
      exact absurd rfl hs.ne_zero
  · obtain ⟨k, c, hs, hv, -⟩ := shortestOf_spec hpos (Format.nearest_nearest ha)
    constructor
    · intro h
      exact .inr ⟨k, c, hs, h.symm.trans hv⟩
    · rintro (rfl | ⟨k', c', hs', h⟩)
      · rw [Format.nearest_zero] at hpos
        exact absurd hpos (lt_irrefl _)
      · exact hv.trans ((hs.unique hs').trans h.symm)

/-- Its exponent is as a float has it. -/
theorem shortestValue_lt (hm : 0 < m) (hmf : binary64.nearest m = m) (hlt : m < 2 ^ 1024) :
    shortestValue m < 10 ^ 1025 := by
  obtain ⟨k, c, hs, hv, -⟩ := shortestOf_spec hm hmf
  have hle : (c : ℚ) ≤ 10 ^ k := by exact_mod_cast hs.le
  have hself : (10 : ℚ) ^ Int.log 10 m ≤ m := Int.zpow_log_le_self (by norm_num) hm
  calc shortestValue m = c * grid m k := hv
    _ ≤ 10 ^ k * grid m k := mul_le_mul_of_nonneg_right hle (grid_pos m k).le
    _ = 10 ^ Int.log 10 m * 10 := by
      unfold grid gridExponent
      rw [← zpow_natCast, ← zpow_add₀ (by norm_num : (10 : ℚ) ≠ 0),
        ← zpow_add_one₀ (by norm_num : (10 : ℚ) ≠ 0)]
      congr 1
      omega
    _ ≤ m * 10 := mul_le_mul_of_nonneg_right hself (by norm_num)
    _ < 2 ^ 1024 * 10 := mul_lt_mul_of_pos_right hlt (by norm_num)
    _ ≤ 10 ^ 1024 * 10 :=
      mul_le_mul_of_nonneg_right (pow_le_pow_left₀ (by norm_num) (by norm_num) _) (by norm_num)
    _ = 10 ^ 1025 := (pow_succ _ _).symm

/-! ### The numeral -/

variable {negative : Bool}

theorem reprNumeral_sign (negative : Bool) (m : ℚ) :
    (reprNumeral negative m).sign = signOf negative := by
  unfold reprNumeral
  split_ifs
  · rfl
  · exact layout_sign ..

theorem reprNumeral_valid (hm : 0 ≤ m) (hmf : binary64.nearest m = m) (negative : Bool) :
    (reprNumeral negative m).Valid := by
  unfold reprNumeral
  split_ifs with hzero
  · exact ⟨by simp [Numeral.digits], by simp [Numeral.digits], fun e he => by cases he⟩
  · obtain ⟨-, -, -, -, hne, -⟩ := shortestOf_spec (hm.lt_of_ne (Ne.symm hzero)) hmf
    exact layout_valid (digitsOf_ne_nil hne) (digitsOf_lt _) _ _

theorem reprNumeral_value (hm : 0 ≤ m) (hmf : binary64.nearest m = m) (negative : Bool) :
    magnitude (reprNumeral negative m) = shortestValue m := by
  unfold reprNumeral shortestValue
  split_ifs with hzero
  · have hdigits : ofDigits [0, 0] = 0 := rfl
    simp [magnitude, Numeral.coefficient, Numeral.digits, hdigits]
  · obtain ⟨-, -, -, -, hne, -⟩ := shortestOf_spec (hm.lt_of_ne (Ne.symm hzero)) hmf
    rw [magnitude_layout (digitsOf_ne_nil hne), ofDigits_digitsOf, add_sub_cancel_right]

/-! ### Conversion -/

theorem inLimits_of_lt {e : ℤ} {j : ℕ} (hc : c ≠ 0) (hlow : minEtiny ≤ e) (hj : j ≤ maxEmax)
    (hlt : (c : ℚ) * 10 ^ e < 10 ^ j) : InLimits c e := by
  have hten : (10 : ℚ) ≠ 0 := by norm_num
  have hdigits : (10 : ℚ) ^ (numDigits c : ℤ) ≤ 10 * c := by
    rw [zpow_natCast]
    exact_mod_cast pow_numDigits_le hc
  have hpow : (10 : ℚ) ^ (e + numDigits c - 1) < 10 ^ (j : ℤ) := by
    calc (10 : ℚ) ^ (e + numDigits c - 1) = 10 ^ (numDigits c : ℤ) * 10 ^ e / 10 := by
          rw [add_comm e, zpow_sub_one₀ hten, zpow_add₀ hten, div_eq_mul_inv]
      _ ≤ 10 * c * 10 ^ e / 10 := by gcongr
      _ = c * 10 ^ e := by ring
      _ < 10 ^ (j : ℤ) := by rwa [zpow_natCast]
  have hexp := (zpow_lt_zpow_iff_right₀ (by norm_num : (1 : ℚ) < 10)).mp hpow
  refine ⟨hlow, ?_⟩
  rw [if_neg hc]
  omega

theorem le_scale_reprNumeral (hm : 0 ≤ m) (hmf : binary64.nearest m = m) (negative : Bool) :
    -1074 ≤ (reprNumeral negative m).scale := by
  unfold reprNumeral
  split_ifs with hzero
  · change (-1074 : ℤ) ≤ 0 - 1
    norm_num
  · have hpos := hm.lt_of_ne (Ne.symm hzero)
    obtain ⟨k, c, hs, -, hne, hexp⟩ := shortestOf_spec hpos hmf
    have hmin : -1074 ≤ gridExponent m k := hs.minExponent_le hpos hmf (by decide)
    dsimp only
    obtain h | h | h := layout_scale (signOf negative) (digitsOf (shortestOf m).1)
      ((shortestOf m).2 + (digitsOf (shortestOf m).1).length)
    · rw [h]
      decide
    · rw [h]
      omega
    · exact absurd h (digitsOf_ne_nil hne)

theorem inLimits_reprNumeral (x : Magnitude) (negative : Bool) :
    InLimits (reprNumeral negative x.value).coefficient (reprNumeral negative x.value).scale := by
  have hscale := le_scale_reprNumeral x.nonneg x.rounded negative
  have hvalue := reprNumeral_value x.nonneg x.rounded negative
  have hmin : minEtiny ≤ -1074 := by decide
  obtain hzero | hpos := x.nonneg.eq_or_lt
  · rw [← hzero]
    unfold reprNumeral
    rw [if_pos rfl]
    exact (by decide : InLimits 0 (-1))
  · refine inLimits_of_lt ?_ (hmin.trans hscale) (by decide : (1025 : ℕ) ≤ maxEmax) ?_
    · intro hc
      unfold magnitude at hvalue
      rw [hc, Nat.cast_zero, zero_mul] at hvalue
      have hrounded := nearest_shortestValue x.nonneg x.rounded
      rw [← hvalue, Format.nearest_zero] at hrounded
      exact hpos.ne hrounded
    · exact hvalue.trans_lt (shortestValue_lt hpos x.rounded x.lt)

/-- The value with its sign. -/
def withSign (negative : Bool) (q : ℚ) : ℚ := if negative then -q else q

theorem value_eq (n : Numeral) : n.value = withSign (n.sign = some .minus) (magnitude n) := by
  unfold Numeral.value withSign magnitude signed
  split_ifs
  · push_cast
    ring
  · push_cast
    ring

/-- **The text of a finite float** is converted to the shortest decimal. -/
theorem parseDecimal_repr (negative : Bool) (x : Magnitude) : ∃ d,
    parseDecimal (repr (.finite negative x)) = some d ∧
      d.value? = some (withSign negative (shortestValue x.value)) := by
  have hsign : ((reprNumeral negative x.value).sign = some .minus) ↔ negative = true := by
    rw [reprNumeral_sign]
    cases negative <;> simp [signOf]
  refine ⟨.finite negative (reprNumeral negative x.value).coefficient
    (reprNumeral negative x.value).scale, ?_, ?_⟩
  · unfold repr
    dsimp only
    rw [parseDecimal_text (reprNumeral_valid x.nonneg x.rounded negative)]
    unfold Numeral.toDecimal
    rw [if_pos (inLimits_reprNumeral x negative)]
    simp [hsign]
  · have hvalue := value_eq (reprNumeral negative x.value)
    rw [reprNumeral_value x.nonneg x.rounded] at hvalue
    simp only [hsign, Bool.decide_eq_true] at hvalue
    rw [← hvalue]
    unfold Decimal.value? Numeral.value
    simp [hsign]

/-- The number is rounded to a finite float whose text denotes the number again. -/
def Survives (a : ℚ) : Prop := binary64.nearest a < 2 ^ 1024 ∧ (a = 0 ∨ IsShortest binary64 a)

/-- **Fifteen digits survive**, unless the number is tiny or huge. -/
theorem survives_of_hasDigits {a : ℚ} (hlow : 2 ^ (-1022 : ℤ) ≤ a) (hhigh : a ≤ 2 ^ (1023 : ℤ))
    (hd : HasDigits 15 a) : Survives a := by
  have ha : 0 < a := (zpow_pos two_pos _).trans_le hlow
  have hlog : -1022 ≤ Int.log 2 a := (Int.zpow_le_iff_le_log one_lt_two ha).mp hlow
  have hlog' : Int.log 2 a ≤ 1023 := by
    refine (Int.log_mono_right ha hhigh).trans_eq ?_
    exact Int.log_zpow one_lt_two 1023
  have hexp : binary64.ulpExponent a ≤ Int.log 2 a := by
    unfold Format.ulpExponent binary64
    dsimp only
    omega
  have hnormal : 2 ^ (binary64.minExponent + binary64.fractionBits) ≤ binary64.nearest a := by
    have hself : (2 : ℚ) ^ Int.log 2 a ≤ a := Int.zpow_log_le_self one_lt_two ha
    refine le_trans ?_ (Format.pow_le_nearest hself hexp)
    exact zpow_le_zpow_right₀ one_le_two hlog
  have hfinite : binary64.nearest a < 2 ^ 1024 := by
    refine (Format.nearest_le_pow hhigh (hexp.trans hlog')).trans_lt ?_
    rw [← zpow_natCast]
    exact zpow_lt_zpow_right₀ one_lt_two (by norm_num)
  refine ⟨hfinite, .inr (isShortest_of_hasDigits ?_ ha (by norm_num) hd ?_ hnormal)⟩
  · decide
  · decide

theorem withSign_inj {q r : ℚ} : withSign negative q = withSign negative r ↔ q = r := by
  cases negative
  · exact Iff.rfl
  · exact neg_inj

/-- **A numeral becomes a float, a text and a decimal**, and keeps its value just if it survives. -/
theorem parseDecimal_parseFloat (n : Numeral) :
    (∃ d, parseDecimal (repr (parseFloat n)) = some d ∧ d.value? = some n.value) ↔
      Survives (magnitude n) := by
  unfold parseFloat Survives
  split_ifs with hlt
  · obtain ⟨d, hd, hvalue⟩ := parseDecimal_repr (n.sign = some .minus)
      ⟨binary64.nearest (magnitude n), Format.nearest_nonneg (magnitude_nonneg n),
        Format.nearest_nearest (magnitude_nonneg n), hlt⟩
    rw [hd, and_iff_right hlt, ← shortestValue_nearest (magnitude_nonneg n), value_eq]
    simp only [Option.some.injEq, exists_eq_left', hvalue, withSign_inj]
  · refine ⟨?_, fun h => absurd h.1 hlt⟩
    rintro ⟨d, hd, hvalue⟩
    have hinf : parseDecimal (repr (.infinity (n.sign = some .minus))) =
        some (.infinity (n.sign = some .minus)) := by
      cases decide (n.sign = some .minus) <;> rfl
    rw [hinf] at hd
    cases hd
    cases hvalue

/-- The text of every float can be converted. -/
theorem exists_parseDecimal_repr (x : Float64) : ∃ d, parseDecimal (repr x) = some d := by
  cases x with
  | finite negative x =>
    obtain ⟨d, hd, -⟩ := parseDecimal_repr negative x
    exact ⟨d, hd⟩
  | infinity negative => cases negative <;> exact ⟨_, rfl⟩
  | nan => exact ⟨_, rfl⟩

/-! ### Integers -/

/-- The digits of an integer. -/
def intNumeral (n : ℤ) : Numeral :=
  ⟨signOf (n < 0), if n = 0 then [0] else digitsOf n.natAbs, none, none⟩

theorem intNumeral_valid (n : ℤ) : (intNumeral n).Valid := by
  have hdigits : (intNumeral n).digits = if n = 0 then [0] else digitsOf n.natAbs :=
    List.append_nil _
  refine ⟨?_, ?_, fun e he => by cases he⟩
  · rw [hdigits]
    split_ifs
    · simp
    · exact digitsOf_lt _
  · rw [hdigits]
    split_ifs
    · exact List.cons_ne_nil _ _
    · exact digitsOf_ne_nil (by omega)

theorem intNumeral_coefficient (n : ℤ) : (intNumeral n).coefficient = n.natAbs := by
  unfold Numeral.coefficient Numeral.digits intNumeral
  simp only [Option.getD_none, List.append_nil]
  split_ifs with hzero
  · rw [hzero]
    rfl
  · exact ofDigits_digitsOf _

/-- **The text of an integer** is converted exactly, within the limits. -/
theorem parseDecimal_int {n : ℤ} (h : numDigits n.natAbs ≤ maxStrDigits) : ∃ d,
    parseDecimal (intNumeral n).text = some d ∧ d.value? = some (n : ℚ) := by
  have hlimits : InLimits n.natAbs 0 := by
    refine ⟨by decide, ?_⟩
    unfold maxStrDigits at h
    unfold maxEmax
    split_ifs <;> omega
  have hsign : (intNumeral n).sign = some .minus ↔ n < 0 := by
    unfold intNumeral signOf
    split_ifs with hneg <;> simpa using hneg
  refine ⟨.finite (n < 0) n.natAbs 0, ?_, ?_⟩
  · rw [parseDecimal_text (intNumeral_valid n)]
    unfold Numeral.toDecimal
    rw [intNumeral_coefficient, show (intNumeral n).scale = 0 from rfl, if_pos hlimits]
    simp only [hsign]
  · change some ((signed (n < 0) n.natAbs : ℚ) * 10 ^ (0 : ℤ)) = _
    rw [signed_natAbs, zpow_zero, mul_one]

end PaymentGateway.Lib.Floats
