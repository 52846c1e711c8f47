import Mathlib.Algebra.Order.Floor.Semiring
import Mathlib.Data.Finset.Card
import Mathlib.Data.List.Range
import Mathlib.Data.Rat.Floor
import Mathlib.Order.Interval.Finset.Nat

/-! # Counting into windows

Who was counted, and with which number, is a list of pairs. If the numbers are `1, 2, …`
(`Numbered`), at most `k` have one of the first `k` numbers, and whoever has a later one has `k`
others before. An interval of the length of a window meets two windows at most. -/

namespace PaymentGateway.Lib.Quotas

variable {ι : Type} {L : List (ι × ℕ)} {i : ι} {n k : ℕ}

/-- The numbers are `1, 2, …`, in order. -/
def Numbered (L : List (ι × ℕ)) : Prop := L.map Prod.snd = List.range' 1 L.length

theorem numbered_nil : Numbered ([] : List (ι × ℕ)) := rfl

theorem Numbered.append (h : Numbered L) (i : ι) : Numbered (L ++ [(i, L.length + 1)]) := by
  unfold Numbered at *
  rw [List.map_append, h, List.length_append, List.length_singleton, List.range'_concat]
  simp [Nat.add_comm]

/-- No number is given twice. -/
theorem Numbered.inj (h : Numbered L) {j : ι} (hi : (i, n) ∈ L) (hj : (j, n) ∈ L) : i = j := by
  have hnodup : (L.map Prod.snd).Nodup := by rw [h]; exact List.nodup_range'
  exact congrArg Prod.fst (List.inj_on_of_nodup_map hnodup hi hj rfl)

theorem Numbered.mem_iff (h : Numbered L) : (∃ j, (j, n) ∈ L) ↔ 1 ≤ n ∧ n ≤ L.length := by
  have hmem : n ∈ L.map Prod.snd ↔ 1 ≤ n ∧ n ≤ L.length := by
    rw [h, List.mem_range'_1]
    omega
  rw [← hmem, List.mem_map]
  exact ⟨fun ⟨j, hj⟩ => ⟨_, hj, rfl⟩, fun ⟨p, hp, e⟩ => ⟨p.1, by rw [← e]; exact hp⟩⟩

/-- **At most `k`** have one of the first `k` numbers. -/
theorem Numbered.card_le (h : Numbered L) {S : Finset ι}
    (hS : ∀ i ∈ S, ∃ n ≤ k, (i, n) ∈ L) : S.card ≤ k := by
  classical
  choose! number hle hmem using hS
  have hmaps : ∀ i ∈ S, number i ∈ Finset.Icc 1 k := fun i hi => by
    have := (h.mem_iff.mp ⟨i, hmem i hi⟩).1
    exact Finset.mem_Icc.mpr ⟨this, hle i hi⟩
  have hinj : Set.InjOn number S := fun i hi j hj e => by
    have hj' := hmem j hj
    rw [← e] at hj'
    exact h.inj (hmem i hi) hj'
  have := Finset.card_le_card_of_injOn number hmaps hinj
  rwa [Nat.card_Icc, Nat.add_sub_cancel] at this

/-- **Whoever has a number beyond `k`** has `k` others before. -/
theorem Numbered.earlier (h : Numbered L) (hnodup : (L.map Prod.fst).Nodup) (hi : (i, n) ∈ L)
    (hk : k < n) : ∃ S : Finset ι, S.card = k ∧ ∀ j ∈ S, j ≠ i ∧ ∃ m, (j, m) ∈ L := by
  classical
  have hlen := (h.mem_iff.mp ⟨i, hi⟩).2
  have hex : ∀ m ∈ Finset.Icc 1 k, ∃ j, (j, m) ∈ L := fun m hm => by
    have := Finset.mem_Icc.mp hm
    exact h.mem_iff.mpr ⟨this.1, by omega⟩
  have : Nonempty ι := ⟨i⟩
  choose! who hwho using hex
  have hone : ∀ {j m m'}, (j, m) ∈ L → (j, m') ∈ L → m = m' := fun hj hj' =>
    congrArg Prod.snd (List.inj_on_of_nodup_map hnodup hj hj' rfl)
  refine ⟨(Finset.Icc 1 k).image who, ?_, fun j hj => ?_⟩
  · rw [Finset.card_image_of_injOn, Nat.card_Icc, Nat.add_sub_cancel]
    intro m hm m' hm' e
    have hj := hwho m hm
    rw [e] at hj
    exact hone hj (hwho m' hm')
  · obtain ⟨m, hm, rfl⟩ := Finset.mem_image.mp hj
    refine ⟨?_, m, hwho m hm⟩
    rintro rfl
    have := hone (hwho m hm) hi
    have := (Finset.mem_Icc.mp hm).2
    omega

/-- An interval of the length of a window meets two windows at most. -/
theorem two_windows {w t : ℕ} {s : ℚ} (hw : 0 < w) (hs : s ≤ t) (ht : (t : ℚ) < s + w) :
    t / w = ⌈s⌉₊ / w ∨ t / w = ⌈s⌉₊ / w + 1 := by
  have hlow : ⌈s⌉₊ ≤ t := Nat.ceil_le.mpr hs
  have hhigh : t < ⌈s⌉₊ + w := by
    have h : (t : ℚ) < ⌈s⌉₊ + w := lt_of_lt_of_le ht (by gcongr; exact Nat.le_ceil s)
    exact_mod_cast h
  have h1 : ⌈s⌉₊ / w ≤ t / w := Nat.div_le_div_right hlow
  have h2 : t / w ≤ (⌈s⌉₊ + w) / w := Nat.div_le_div_right hhigh.le
  rw [Nat.add_div_right _ hw] at h2
  omega

end PaymentGateway.Lib.Quotas
