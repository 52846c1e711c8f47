import PaymentGateway.Lib.Binary

/-! # The shortest decimal of a binary number

Many decimals are rounded to the same binary number `m`. The `Shortest` has the fewest digits; among
those it is the closest to `m`, and of two that are as close it is the one with an even last digit.
There is one such decimal (`Shortest.unique`), and `search` finds it (`search_shortest`): with `k`
digits, only the two neighbours of `m` need be tried. -/

namespace PaymentGateway.Lib.ShortestDecimal

open PaymentGateway.Lib.Binary

variable {F : Format} {m b : ℚ} {k j c : ℕ}

/-- A decimal of at most `k` digits. -/
def HasDigits (k : ℕ) (b : ℚ) : Prop := ∃ (c : ℕ) (e : ℤ), c < 10 ^ k ∧ b = c * 10 ^ e

/-- The exponent of the last of `k` digits of `m`. -/
def gridExponent (m : ℚ) (k : ℕ) : ℤ := Int.log 10 m + 1 - k

def grid (m : ℚ) (k : ℕ) : ℚ := 10 ^ gridExponent m k

/-- **The shortest decimal** that is rounded to `m` is `c`, in units of the last of `k` digits. -/
structure Shortest (F : Format) (m : ℚ) (k c : ℕ) : Prop where
  pos : 1 ≤ k
  le : c ≤ 10 ^ k
  rounds : F.nearest (c * grid m k) = m
  shortest : ∀ j b, HasDigits j b → F.nearest b = m → k ≤ j
  closest : ∀ b, HasDigits k b → F.nearest b = m → b ≠ c * grid m k →
    |c * grid m k - m| < |b - m| ∨ |c * grid m k - m| = |b - m| ∧ c % 2 = 0

/-- `a` is the shortest decimal of the number that it is rounded to. -/
def IsShortest (F : Format) (a : ℚ) : Prop :=
  ∃ k c, Shortest F (F.nearest a) k c ∧ a = c * grid (F.nearest a) k

/-! ### The search -/

/-- The neighbour of `m` that is closer, the even one if both are as close. -/
def closer (m : ℚ) (k : ℕ) : ℕ :=
  let q := m / grid m k
  if q - ⌊q⌋₊ < ⌈q⌉₊ - q then ⌊q⌋₊
  else if ⌈q⌉₊ - q < q - ⌊q⌋₊ then ⌈q⌉₊
  else if ⌊q⌋₊ % 2 = 0 then ⌊q⌋₊ else ⌈q⌉₊

/-- The best decimal of `k` digits that is rounded to `m`. -/
def candidate (F : Format) (m : ℚ) (k : ℕ) : Option ℕ :=
  let lower := ⌊m / grid m k⌋₊
  let upper := ⌈m / grid m k⌉₊
  if F.nearest (lower * grid m k) = m then
    if F.nearest (upper * grid m k) = m then some (closer m k) else some lower
  else if F.nearest (upper * grid m k) = m then some upper else none

/-- The first number of digits, from `k` on, for which there is a decimal, and this decimal. -/
def search (F : Format) (m : ℚ) : ℕ → ℕ → Option (ℕ × ℕ)
  | 0, _ => none
  | fuel + 1, k =>
    match candidate F m k with
    | some c => some (k, c)
    | none => search F m fuel (k + 1)

/-! ### The grid -/

theorem grid_pos (m : ℚ) (k : ℕ) : 0 < grid m k := zpow_pos (by norm_num) _

theorem floor_mul_le (hm : 0 ≤ m) (k : ℕ) : ⌊m / grid m k⌋₊ * grid m k ≤ m := by
  rw [← le_div_iff₀ (grid_pos m k)]
  exact Nat.floor_le (div_nonneg hm (grid_pos m k).le)

theorem le_ceil_mul (m : ℚ) (k : ℕ) : m ≤ ⌈m / grid m k⌉₊ * grid m k := by
  rw [← div_le_iff₀ (grid_pos m k)]
  exact Nat.le_ceil _

/-- A decimal with an exponent that is no smaller is on the grid. -/
theorem multiple_of_le {e : ℤ} (h : gridExponent m k ≤ e) (c : ℕ) :
    ∃ n : ℕ, (c : ℚ) * 10 ^ e = n * grid m k := by
  refine ⟨c * 10 ^ (e - gridExponent m k).toNat, ?_⟩
  unfold grid
  push_cast
  rw [mul_assoc, ← zpow_natCast, ← zpow_add₀ (by norm_num : (10 : ℚ) ≠ 0),
    Int.toNat_of_nonneg (by omega)]
  congr 2
  omega

/-- A decimal of `k` digits that is not on the grid is below every number with as many digits before
the point as `m`. -/
theorem lt_pow_log {e : ℤ} (h : e < gridExponent m k) (hc : c < 10 ^ k) :
    (c : ℚ) * 10 ^ e < 10 ^ Int.log 10 m := by
  have hc' : (c : ℚ) < 10 ^ (k : ℤ) := by
    rw [zpow_natCast]
    exact_mod_cast hc
  refine (mul_lt_mul_of_pos_right hc' (zpow_pos (by norm_num) e)).trans_le ?_
  rw [← zpow_add₀ (by norm_num : (10 : ℚ) ≠ 0)]
  unfold gridExponent at h
  exact zpow_le_zpow_right₀ (by norm_num) (by omega)

/-- Below `m`, no decimal of `k` digits is beyond the lower neighbour. -/
theorem le_floor_mul (hm : 0 < m) (hk : 1 ≤ k) (hb : HasDigits k b) (h : b ≤ m) :
    b ≤ ⌊m / grid m k⌋₊ * grid m k := by
  have hpos := grid_pos m k
  have hmultiple : ∀ n : ℕ, n * grid m k ≤ m → (n : ℚ) * grid m k ≤ ⌊m / grid m k⌋₊ * grid m k := by
    intro n hn
    have hfloor : n ≤ ⌊m / grid m k⌋₊ := Nat.le_floor ((le_div_iff₀ hpos).mpr hn)
    exact mul_le_mul_of_nonneg_right (by exact_mod_cast hfloor) hpos.le
  obtain ⟨c, e, hc, rfl⟩ := hb
  obtain hle | hlt := le_or_gt (gridExponent m k) e
  · obtain ⟨n, hn⟩ := multiple_of_le hle c
    rw [hn] at h ⊢
    exact hmultiple n h
  · have hlog : gridExponent m k ≤ Int.log 10 m := by
      unfold gridExponent
      omega
    obtain ⟨n, hn⟩ := multiple_of_le hlog 1
    rw [Nat.cast_one, one_mul] at hn
    refine (lt_pow_log hlt hc).le.trans ?_
    have hself : (10 : ℚ) ^ Int.log 10 m ≤ m := Int.zpow_log_le_self (by norm_num) hm
    rw [hn] at hself ⊢
    exact hmultiple n hself

/-- Above `m`, none is before the upper neighbour. -/
theorem ceil_mul_le (hm : 0 < m) (hb : HasDigits k b) (h : m ≤ b) :
    ⌈m / grid m k⌉₊ * grid m k ≤ b := by
  have hpos := grid_pos m k
  obtain ⟨c, e, hc, rfl⟩ := hb
  obtain hle | hlt := le_or_gt (gridExponent m k) e
  · obtain ⟨n, hn⟩ := multiple_of_le hle c
    rw [hn] at h ⊢
    have hceil : ⌈m / grid m k⌉₊ ≤ n := Nat.ceil_le.mpr ((div_le_iff₀ hpos).mpr h)
    exact mul_le_mul_of_nonneg_right (by exact_mod_cast hceil) hpos.le
  · have hself : (10 : ℚ) ^ Int.log 10 m ≤ m := Int.zpow_log_le_self (by norm_num) hm
    exact absurd (hself.trans h) (not_le.mpr (lt_pow_log hlt hc))

/-! ### The two neighbours -/

theorem HasDigits.nonneg (hb : HasDigits k b) : 0 ≤ b := by
  obtain ⟨c, e, -, rfl⟩ := hb
  exact mul_nonneg c.cast_nonneg (zpow_pos (by norm_num) e).le

theorem candidate_rounds (h : candidate F m k = some c) : F.nearest (c * grid m k) = m := by
  unfold candidate closer at h
  dsimp only at h
  split_ifs at h with hlower hupper <;> cases h <;> assumption

/-- If a decimal of `k` digits is rounded to `m`, so is one of the neighbours. -/
theorem exists_candidate (hm : 0 < m) (hmf : F.nearest m = m) (hk : 1 ≤ k) (hb : HasDigits k b)
    (hr : F.nearest b = m) : ∃ c, candidate F m k = some c := by
  have hor : F.nearest (⌊m / grid m k⌋₊ * grid m k) = m ∨
      F.nearest (⌈m / grid m k⌉₊ * grid m k) = m := by
    obtain hle | hle := le_total b m
    · exact .inl ((Format.nearest_between hb.nonneg (le_floor_mul hm hk hb hle)
        (floor_mul_le hm.le k) (hr.trans hmf.symm)).trans hr)
    · exact .inr ((Format.nearest_between hm.le (le_ceil_mul m k) (ceil_mul_le hm hb hle)
        (hmf.trans hr.symm)).trans hmf)
  unfold candidate
  dsimp only
  split_ifs with hlower hupper hupper
  · exact ⟨_, rfl⟩
  · exact ⟨_, rfl⟩
  · exact ⟨_, rfl⟩
  · exact absurd hor (by tauto)

theorem closer_cases (m : ℚ) (k : ℕ) :
    (closer m k = ⌊m / grid m k⌋₊ ∧
      (m / grid m k - ⌊m / grid m k⌋₊ < ⌈m / grid m k⌉₊ - m / grid m k ∨
        m / grid m k - ⌊m / grid m k⌋₊ = ⌈m / grid m k⌉₊ - m / grid m k ∧
          ⌊m / grid m k⌋₊ % 2 = 0)) ∨
    (closer m k = ⌈m / grid m k⌉₊ ∧
      (⌈m / grid m k⌉₊ - m / grid m k < m / grid m k - ⌊m / grid m k⌋₊ ∨
        m / grid m k - ⌊m / grid m k⌋₊ = ⌈m / grid m k⌉₊ - m / grid m k ∧
          ⌊m / grid m k⌋₊ % 2 = 1)) := by
  unfold closer
  dsimp only
  split_ifs with hlower hupper heven
  · exact .inl ⟨rfl, .inl hlower⟩
  · exact .inr ⟨rfl, .inl hupper⟩
  · exact .inl ⟨rfl, .inr ⟨le_antisymm (not_lt.mp hupper) (not_lt.mp hlower), heven⟩⟩
  · exact .inr ⟨rfl, .inr ⟨le_antisymm (not_lt.mp hupper) (not_lt.mp hlower),
      Nat.mod_two_ne_zero.mp heven⟩⟩

/-- What the candidate is: below `m`, unless the upper neighbour is better; or above. -/
theorem candidate_cases (hgap : ⌈m / grid m k⌉₊ = ⌊m / grid m k⌋₊ + 1)
    (h : candidate F m k = some c) :
    (c = ⌊m / grid m k⌋₊ ∧ (F.nearest (⌈m / grid m k⌉₊ * grid m k) = m →
      m - c * grid m k < ⌈m / grid m k⌉₊ * grid m k - m ∨
        m - c * grid m k = ⌈m / grid m k⌉₊ * grid m k - m ∧ c % 2 = 0)) ∨
    (c = ⌈m / grid m k⌉₊ ∧ (F.nearest (⌊m / grid m k⌋₊ * grid m k) = m →
      c * grid m k - m < m - ⌊m / grid m k⌋₊ * grid m k ∨
        c * grid m k - m = m - ⌊m / grid m k⌋₊ * grid m k ∧ c % 2 = 0)) := by
  have hpos := grid_pos m k
  have hm : m = m / grid m k * grid m k := (div_mul_cancel₀ m hpos.ne').symm
  unfold candidate at h
  dsimp only at h
  split_ifs at h with hlower hupper hupper <;> cases h
  · obtain ⟨hc, hbetter⟩ | ⟨hc, hbetter⟩ := closer_cases m k
    · refine .inl ⟨hc, fun _ => ?_⟩
      rw [hc]
      obtain hlt | ⟨heq, heven⟩ := hbetter
      · exact .inl (by nlinarith)
      · exact .inr ⟨by nlinarith, heven⟩
    · refine .inr ⟨hc, fun _ => ?_⟩
      rw [hc]
      obtain hlt | ⟨heq, hodd⟩ := hbetter
      · exact .inl (by nlinarith)
      · exact .inr ⟨by nlinarith, by omega⟩
  · exact .inl ⟨rfl, fun hr => absurd hr hupper⟩
  · exact .inr ⟨rfl, fun hr => absurd hr hlower⟩

theorem candidate_eq (h : candidate F m k = some c) :
    c = ⌊m / grid m k⌋₊ ∨ c = ⌈m / grid m k⌉₊ := by
  unfold candidate closer at h
  dsimp only at h
  split_ifs at h <;> cases h <;> simp

/-- No other decimal of `k` digits is better. -/
theorem candidate_closest (hm : 0 < m) (hmf : F.nearest m = m) (hk : 1 ≤ k)
    (h : candidate F m k = some c) (hb : HasDigits k b) (hr : F.nearest b = m)
    (hne : b ≠ c * grid m k) :
    |c * grid m k - m| < |b - m| ∨ |c * grid m k - m| = |b - m| ∧ c % 2 = 0 := by
  have hlow := floor_mul_le hm.le k
  have hhigh := le_ceil_mul m k
  obtain hceil | hgap : ⌈m / grid m k⌉₊ = ⌊m / grid m k⌋₊ ∨
      ⌈m / grid m k⌉₊ = ⌊m / grid m k⌋₊ + 1 := by
    have hle := Nat.floor_le_ceil (m / grid m k)
    have hge := Nat.ceil_le_floor_add_one (m / grid m k)
    omega
  · -- `m` is on the grid itself
    have hc : c * grid m k = m := by
      rw [hceil] at hhigh
      have hself := le_antisymm hlow hhigh
      obtain rfl | rfl := candidate_eq h
      · exact hself
      · rw [hceil]
        exact hself
    rw [hc] at hne ⊢
    rw [sub_self, abs_zero]
    exact .inl (abs_pos.mpr (sub_ne_zero.mpr hne))
  obtain hle | hle := le_total b m
  · have hbl := le_floor_mul hm hk hb hle
    have hrl : F.nearest (⌊m / grid m k⌋₊ * grid m k) = m :=
      (Format.nearest_between hb.nonneg hbl hlow (hr.trans hmf.symm)).trans hr
    rw [abs_of_nonpos (sub_nonpos.mpr hle)]
    obtain ⟨rfl, -⟩ | ⟨rfl, hbetter⟩ := candidate_cases hgap h
    · rw [abs_of_nonpos (sub_nonpos.mpr hlow)]
      exact .inl (by linarith [lt_of_le_of_ne hbl hne])
    · rw [abs_of_nonneg (sub_nonneg.mpr hhigh)]
      obtain hlt | ⟨heq, heven⟩ := hbetter hrl
      · exact .inl (by linarith)
      · obtain hlt | rfl := hbl.lt_or_eq
        · exact .inl (by linarith)
        · exact .inr ⟨by linarith, heven⟩
  · have hub := ceil_mul_le hm hb hle
    have hru : F.nearest (⌈m / grid m k⌉₊ * grid m k) = m :=
      (Format.nearest_between hm.le hhigh hub (hmf.trans hr.symm)).trans hmf
    rw [abs_of_nonneg (sub_nonneg.mpr hle)]
    obtain ⟨rfl, hbetter⟩ | ⟨rfl, -⟩ := candidate_cases hgap h
    · rw [abs_of_nonpos (sub_nonpos.mpr hlow)]
      obtain hlt | ⟨heq, heven⟩ := hbetter hru
      · exact .inl (by linarith)
      · obtain hlt | rfl := hub.lt_or_eq
        · exact .inl (by linarith)
        · exact .inr ⟨by linarith, heven⟩
    · rw [abs_of_nonneg (sub_nonneg.mpr hhigh)]
      exact .inl (by linarith [lt_of_le_of_ne hub (Ne.symm hne)])

/-! ### What is found -/

/-- The neighbours have at most `k` digits. -/
theorem candidate_le (h : candidate F m k = some c) : c ≤ 10 ^ k := by
  have hpow : m / grid m k < ((10 ^ k : ℕ) : ℚ) := by
    rw [div_lt_iff₀ (grid_pos m k)]
    have hlog : m < 10 ^ (Int.log 10 m + 1) := Int.lt_zpow_succ_log_self (by norm_num) m
    refine hlog.trans_eq ?_
    unfold grid gridExponent
    push_cast
    rw [← zpow_natCast, ← zpow_add₀ (by norm_num : (10 : ℚ) ≠ 0)]
    congr 1
    omega
  have hceil : ⌈m / grid m k⌉₊ ≤ 10 ^ k := Nat.ceil_le.mpr hpow.le
  have hfloor := Nat.floor_le_ceil (m / grid m k)
  obtain rfl | rfl := candidate_eq h
  · omega
  · exact hceil

theorem search_spec {fuel : ℕ} {r : ℕ × ℕ} (h : search F m fuel k = some r) :
    k ≤ r.1 ∧ candidate F m r.1 = some r.2 ∧ ∀ i, k ≤ i → i < r.1 → candidate F m i = none := by
  induction fuel generalizing k with
  | zero => cases h
  | succ fuel ih =>
    unfold search at h
    cases hc : candidate F m k with
    | some c =>
      rw [hc] at h
      cases h
      exact ⟨le_rfl, hc, fun i hi hi' => absurd hi' (not_lt.mpr hi)⟩
    | none =>
      rw [hc] at h
      obtain ⟨hle, hsome, hnone⟩ := ih h
      refine ⟨Nat.le_of_succ_le hle, hsome, fun i hi hi' => ?_⟩
      obtain rfl | hlt := hi.eq_or_lt
      · exact hc
      · exact hnone i hlt hi'

theorem search_isSome {fuel : ℕ} (hi : k ≤ j) (hj : j < k + fuel)
    (h : ∃ c, candidate F m j = some c) : ∃ r, search F m fuel k = some r := by
  induction fuel generalizing k with
  | zero => omega
  | succ fuel ih =>
    unfold search
    cases hc : candidate F m k with
    | some c => exact ⟨_, rfl⟩
    | none =>
      refine ih ?_ (by omega)
      obtain rfl | hlt := hi.eq_or_lt
      · obtain ⟨c, hsome⟩ := h
        rw [hc] at hsome
        cases hsome
      · exact hlt

/-- **What the search finds** is the shortest decimal. -/
theorem search_shortest (hm : 0 < m) (hmf : F.nearest m = m) {fuel : ℕ}
    (h : search F m fuel 1 = some (k, c)) : Shortest F m k c := by
  obtain ⟨hk, hcandidate, hnone⟩ := search_spec h
  refine ⟨hk, candidate_le hcandidate, candidate_rounds hcandidate, fun j b hb hr => ?_,
    fun b hb hr hne => candidate_closest hm hmf hk hcandidate hb hr hne⟩
  by_contra hlt
  obtain rfl | hj := Nat.eq_zero_or_pos j
  · -- a decimal without digits is zero
    obtain ⟨c, e, hc, rfl⟩ := hb
    have hzero : c = 0 := by simpa using hc
    rw [hzero, Nat.cast_zero, zero_mul, Format.nearest_zero] at hr
    exact hm.ne hr
  · obtain ⟨c', hc'⟩ := exists_candidate hm hmf hj hb hr
    rw [hnone j hj (not_le.mp hlt)] at hc'
    cases hc'

namespace Shortest

/-- Zero has no shortest decimal: it has no digits. -/
theorem ne_zero (h : Shortest F m k c) : m ≠ 0 := by
  rintro rfl
  have hzero : HasDigits 0 0 := ⟨0, 0, by norm_num, by norm_num⟩
  have hk := h.shortest 0 0 hzero (Format.nearest_zero F)
  have hpos := h.pos
  omega

theorem hasDigits (h : Shortest F m k c) : HasDigits k (c * grid m k) := by
  obtain hlt | rfl := h.le.lt_or_eq
  · exact ⟨c, gridExponent m k, hlt, rfl⟩
  · have hone : 1 < 10 ^ k := Nat.one_lt_pow (Nat.one_le_iff_ne_zero.mp h.pos) (by norm_num)
    refine ⟨1, k + gridExponent m k, hone, ?_⟩
    unfold grid
    push_cast
    rw [zpow_add₀ (by norm_num : (10 : ℚ) ≠ 0), zpow_natCast, one_mul]

/-- Of two decimals on one grid that are both the shortest, none is below the other. -/
theorem notBelow {c' : ℕ} (h : Shortest F m k c) (h' : Shortest F m k c') : ¬ c < c' := by
  intro hlt
  have hpos := grid_pos m k
  have hcast : (c : ℚ) < c' := by exact_mod_cast hlt
  have hab : c * grid m k < c' * grid m k := mul_lt_mul_of_pos_right hcast hpos
  have hfar := h.closest _ h'.hasDigits h'.rounds hab.ne'
  have hfar' := h'.closest _ h.hasDigits h.rounds hab.ne
  have heq : |c * grid m k - m| = |c' * grid m k - m| := by
    obtain hlt | ⟨heq, -⟩ := hfar
    · obtain hlt' | ⟨heq', -⟩ := hfar'
      · exact absurd (hlt.trans hlt') (lt_irrefl _)
      · exact heq'.symm
    · exact heq
  have heven : c % 2 = 0 ∧ c' % 2 = 0 := by
    rw [heq] at hfar hfar'
    exact ⟨(hfar.resolve_left (lt_irrefl _)).2, (hfar'.resolve_left (lt_irrefl _)).2⟩
  -- both are even, so there is one between them, which is closer
  have hstep : (c : ℚ) + 1 < c' := by exact_mod_cast (show c + 1 < c' by omega)
  have hlow : c * grid m k < (c + 1) * grid m k := by nlinarith
  have hhigh : (c + 1) * grid m k < c' * grid m k := mul_lt_mul_of_pos_right hstep hpos
  have hrounds : F.nearest ((c + 1) * grid m k) = m := by
    have hbetween := Format.nearest_between (F := F) h.hasDigits.nonneg hlow.le hhigh.le
      (h.rounds.trans h'.rounds.symm)
    exact hbetween.trans h.rounds
  have hdigits : HasDigits k ((c + 1) * grid m k) :=
    ⟨c + 1, gridExponent m k, by have hle := h'.le; omega, by push_cast; rfl⟩
  have hcloser := h.closest _ hdigits hrounds hlow.ne'
  have hmid : |(c + 1) * grid m k - m| < |c * grid m k - m| := by
    obtain hsame | hmirror := abs_eq_abs.mp heq
    · linarith
    · have hm : m = (c * grid m k + c' * grid m k) / 2 := by linarith
      rw [abs_of_nonpos (by linarith : c * grid m k - m ≤ 0), abs_lt]
      constructor <;> linarith
  obtain hlt | ⟨heq, -⟩ := hcloser <;> linarith

/-- **There is only one.** -/
theorem unique {k' c' : ℕ} (h : Shortest F m k c) (h' : Shortest F m k' c') :
    (c : ℚ) * grid m k = c' * grid m k' := by
  have hk : k = k' := le_antisymm (h.shortest _ _ h'.hasDigits h'.rounds)
    (h'.shortest _ _ h.hasDigits h.rounds)
  subst hk
  have hc : c = c' :=
    Nat.le_antisymm (Nat.le_of_not_lt (h'.notBelow h)) (Nat.le_of_not_lt (h.notBelow h'))
  rw [hc]

end Shortest

/-! ### Something is found -/

/-- How far to search. -/
def steps (F : Format) (m : ℚ) : ℕ := (Int.log 10 m + 1 - F.minExponent).toNat + 1

/-- A number of the format has finitely many digits. -/
theorem exists_exact (hm : 0 < m) (hmf : F.nearest m = m) (hF : F.minExponent ≤ 0) :
    ∃ n : ℕ, m = n * 10 ^ F.minExponent := by
  have hulp := F.ulp_pos m
  obtain ⟨n, hn⟩ := Int.eq_ofNat_of_zero_le (a := roundEven (m / F.ulp m)) (by
    by_contra hneg
    have hneg' : (roundEven (m / F.ulp m) : ℚ) < 0 := by exact_mod_cast not_le.mp hneg
    exact absurd (hmf ▸ mul_neg_of_neg_of_pos hneg' hulp) (not_lt.mpr hm.le))
  have hmin : F.minExponent ≤ F.ulpExponent m := le_max_right _ _
  -- an ulp is a multiple of the smallest, which is a multiple of a power of ten
  have hten : (2 : ℚ) ^ F.minExponent = 5 ^ (-F.minExponent).toNat * 10 ^ F.minExponent := by
    rw [← zpow_natCast, Int.toNat_of_nonneg (by omega), zpow_neg,
      (by norm_num : (10 : ℚ) = 5 * 2), mul_zpow, ← mul_assoc, inv_mul_cancel₀ (by positivity),
      one_mul]
  refine ⟨n * 2 ^ (F.ulpExponent m - F.minExponent).toNat * 5 ^ (-F.minExponent).toNat, ?_⟩
  have hself : (n : ℚ) * F.ulp m = m := by
    have hmf' : (roundEven (m / F.ulp m) : ℚ) * F.ulp m = m := hmf
    rw [hn] at hmf'
    exact_mod_cast hmf'
  have hpow : F.ulp m =
      2 ^ (F.ulpExponent m - F.minExponent).toNat * (2 : ℚ) ^ F.minExponent := by
    unfold Format.ulp
    rw [← zpow_natCast, Int.toNat_of_nonneg (by omega), ← zpow_add₀ two_ne_zero, sub_add_cancel]
  refine hself.symm.trans ?_
  rw [hpow, hten]
  push_cast
  ring

/-- The shortest decimal has no digit beyond the smallest of the format. -/
theorem Shortest.minExponent_le (h : Shortest F m k c) (hm : 0 < m) (hmf : F.nearest m = m)
    (hF : F.minExponent ≤ 0) : F.minExponent ≤ gridExponent m k := by
  obtain ⟨n, hn⟩ := exists_exact hm hmf hF
  have hten : (10 : ℚ) ≠ 0 := by norm_num
  have hlog : m < 10 ^ (Int.log 10 m + 1) := Int.lt_zpow_succ_log_self (by norm_num) m
  have hn' : (n : ℚ) < 10 ^ (Int.log 10 m + 1 - F.minExponent) := by
    rw [zpow_sub₀ hten, lt_div_iff₀ (zpow_pos (by norm_num) _), ← hn]
    exact hlog
  have hpos : 0 < n := by
    rw [Nat.pos_iff_ne_zero]
    rintro rfl
    rw [Nat.cast_zero, zero_mul] at hn
    exact hm.ne' hn
  have hexp : 0 ≤ Int.log 10 m + 1 - F.minExponent := by
    by_contra hneg
    have hone : (10 : ℚ) ^ (Int.log 10 m + 1 - F.minExponent) ≤ 1 :=
      zpow_le_one_of_nonpos₀ (by norm_num) (by omega)
    have hone' : (1 : ℚ) ≤ n := by exact_mod_cast hpos
    exact absurd (hn'.trans_le hone) (not_lt.mpr hone')
  have hdigits : HasDigits (Int.log 10 m + 1 - F.minExponent).toNat m := by
    refine ⟨n, F.minExponent, ?_, hn⟩
    rw [← Int.toNat_of_nonneg hexp, zpow_natCast] at hn'
    exact_mod_cast hn'
  have hk := h.shortest _ m hdigits hmf
  unfold gridExponent
  omega

theorem exists_search (hm : 0 < m) (hmf : F.nearest m = m) (hF : F.minExponent ≤ 0) :
    ∃ r, search F m (steps F m) 1 = some r := by
  have hsteps : 1 ≤ steps F m := Nat.succ_le_succ (Nat.zero_le _)
  refine search_isSome hsteps (Nat.lt_one_add_iff.mpr le_rfl) ?_
  have hgrid : gridExponent m (steps F m) ≤ F.minExponent := by
    unfold gridExponent steps
    omega
  obtain ⟨n, hn⟩ := exists_exact hm hmf hF
  obtain ⟨c, hc⟩ := multiple_of_le hgrid n
  have hdiv : m / grid m (steps F m) = c := by
    rw [div_eq_iff (grid_pos _ _).ne', ← hc]
    exact hn
  have hlower : F.nearest (⌊m / grid m (steps F m)⌋₊ * grid m (steps F m)) = m := by
    rw [hdiv, Nat.floor_natCast, ← hc, ← hn]
    exact hmf
  unfold candidate
  dsimp only
  rw [if_pos hlower]
  split_ifs
  · exact ⟨_, rfl⟩
  · exact ⟨_, rfl⟩

/-! ### Few digits -/

/-- Two decimals of `k` digits are not near each other. -/
theorem gap_of_hasDigits {x y : ℚ} (hx : 0 < x) (hk : 1 ≤ k) (hdx : HasDigits k x)
    (hdy : HasDigits k y) (h : x < y) : x < 10 ^ k * (y - x) := by
  have hpos := grid_pos x k
  have hxn : x = ⌊x / grid x k⌋₊ * grid x k :=
    le_antisymm (le_floor_mul hx hk hdx le_rfl) (floor_mul_le hx.le k)
  have hself : (10 : ℚ) ^ Int.log 10 x ≤ x := Int.zpow_log_le_self (by norm_num) hx
  have hnext : x < 10 ^ k * grid x k := by
    have hlog : x < 10 ^ (Int.log 10 x + 1) := Int.lt_zpow_succ_log_self (by norm_num) x
    refine hlog.trans_eq ?_
    unfold grid gridExponent
    rw [← zpow_natCast, ← zpow_add₀ (by norm_num : (10 : ℚ) ≠ 0)]
    congr 1
    omega
  obtain ⟨c, e, hc, rfl⟩ := hdy
  obtain hle | hlt := le_or_gt (gridExponent x k) e
  · -- both are on the grid of the smaller one
    obtain ⟨n, hn⟩ := multiple_of_le hle c
    rw [hn] at h ⊢
    have hcast : (⌊x / grid x k⌋₊ : ℚ) < n :=
      lt_of_mul_lt_mul_right (hxn.symm.trans_lt h) hpos.le
    have hlt : ⌊x / grid x k⌋₊ < n := by exact_mod_cast hcast
    have hstep : (⌊x / grid x k⌋₊ : ℚ) + 1 ≤ n := by exact_mod_cast hlt
    have hgap : grid x k ≤ n * grid x k - x := by
      have hmul := mul_le_mul_of_nonneg_right hstep hpos.le
      linarith
    exact hnext.trans_le (mul_le_mul_of_nonneg_left hgap (by positivity))
  · exact absurd (hself.trans h.le) (not_le.mpr (lt_pow_log hlt hc))

/-- Of the decimals with few digits, no two are rounded to the same number. -/
theorem nearest_ne_of_lt {x y : ℚ} (hm : 0 < m) (hk : 1 ≤ k) (hdx : HasDigits k x)
    (hdy : HasDigits k y) (hbits : 2 * 10 ^ k ≤ 2 ^ F.fractionBits)
    (hn : 2 ^ (F.minExponent + F.fractionBits) ≤ m) (hx : F.nearest x = m) (h : x < y) :
    F.nearest y ≠ m := by
  intro hy
  have hxpos : 0 < x := by
    refine hdx.nonneg.lt_of_ne ?_
    rintro rfl
    rw [Format.nearest_zero] at hx
    exact hm.ne hx
  have hnear : ∀ z, 0 < z → F.nearest z = m → |m - z| ≤ m * 2 ^ (-(F.fractionBits : ℤ)) / 2 := by
    rintro z hz rfl
    exact Format.abs_nearest_sub hz hn
  have hxm := abs_le.mp (hnear x hxpos hx)
  have hym := abs_le.mp (hnear y (hxpos.trans h) hy)
  have hgap := gap_of_hasDigits hxpos hk hdx hdy h
  -- `10 ^ k` units in the last place are half of `m` at most
  have hbits' : (10 : ℚ) ^ k * 2 ^ (-(F.fractionBits : ℤ)) ≤ 1 / 2 := by
    have hcast : (2 : ℚ) * 10 ^ k ≤ 2 ^ F.fractionBits := by exact_mod_cast hbits
    rw [zpow_neg, zpow_natCast, ← div_eq_mul_inv, div_le_iff₀ (by positivity)]
    linarith
  have hhalf : 10 ^ k * (m * 2 ^ (-(F.fractionBits : ℤ))) ≤ m / 2 := by
    have hmul := mul_le_mul_of_nonneg_left hbits' hm.le
    linarith
  have hone : (1 : ℚ) ≤ 10 ^ k := one_le_pow₀ (by norm_num)
  have hunit : m * 2 ^ (-(F.fractionBits : ℤ)) ≤ m / 2 := by
    have hpos : 0 ≤ m * 2 ^ (-(F.fractionBits : ℤ)) := by positivity
    have hmul := mul_le_mul_of_nonneg_right hone hpos
    linarith
  have hfar : (10 : ℚ) ^ k * (y - x) ≤ 10 ^ k * (m * 2 ^ (-(F.fractionBits : ℤ))) :=
    mul_le_mul_of_nonneg_left (by linarith [hxm.2, hym.1]) (by positivity)
  linarith [hxm.2]

/-- **Few digits survive** rounding. -/
theorem isShortest_of_hasDigits {a : ℚ} (hF : F.minExponent ≤ 0) (ha : 0 < a) (hk : 1 ≤ k)
    (hd : HasDigits k a) (hbits : 2 * 10 ^ k ≤ 2 ^ F.fractionBits)
    (hn : 2 ^ (F.minExponent + F.fractionBits) ≤ F.nearest a) : IsShortest F a := by
  have hm : 0 < F.nearest a := (zpow_pos two_pos _).trans_le hn
  have hmf := Format.nearest_nearest (F := F) ha.le
  obtain ⟨⟨j, c⟩, hr⟩ := exists_search hm hmf hF
  have hs := search_shortest hm hmf hr
  have hdv : HasDigits k (c * grid (F.nearest a) j) := by
    obtain ⟨c', e, hc', hv⟩ := hs.hasDigits
    have hj : j ≤ k := hs.shortest k a hd rfl
    exact ⟨c', e, hc'.trans_le (Nat.pow_le_pow_right (by norm_num) hj), hv⟩
  refine ⟨j, c, hs, ?_⟩
  by_contra hne
  obtain hlt | hlt := lt_or_gt_of_ne hne
  · exact nearest_ne_of_lt hm hk hd hdv hbits hn rfl hlt hs.rounds
  · exact nearest_ne_of_lt hm hk hdv hd hbits hn hs.rounds hlt rfl

end PaymentGateway.Lib.ShortestDecimal
