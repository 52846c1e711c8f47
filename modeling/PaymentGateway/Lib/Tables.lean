import Mathlib.Algebra.BigOperators.Group.List.Basic
import Mathlib.Data.List.Nodup
import Mathlib.Tactic.Ring

/-! # Tables under writes

A table is a list of rows. A write changes the rows that are there (`on w`) and appends new ones
(`new w`); `apply on new ws xs` is the table after the writes `ws`. `Grows R xs ys` says that `ys`
is `xs` with its rows changed within `R` and new rows at its end, and `Changes R xs ys` that there
are no new rows. In a keyed table no two rows have one key. -/

namespace PaymentGateway.Lib.Tables

variable {W α : Type} {R S : α → α → Prop} {on : W → α → α} {new : W → List α}
  {ws : List W} {xs ys zs : List α}

/-- The table after some writes. -/
def apply (on : W → α → α) (new : W → List α) (ws : List W) (xs : List α) : List α :=
  ws.foldl (fun xs w => xs.map (on w) ++ new w) xs

@[simp] theorem apply_nil : apply on new [] xs = xs := rfl

@[simp] theorem apply_cons {w : W} :
    apply on new (w :: ws) xs = apply on new ws (xs.map (on w) ++ new w) := rfl

/-- The rows of `xs`, changed within `R`, and then new ones. -/
def Grows (R : α → α → Prop) (xs ys : List α) : Prop :=
  ∃ (f : α → α) (added : List α), (∀ x, R x (f x)) ∧ ys = xs.map f ++ added

/-- The rows of `xs`, changed within `R`. -/
def Changes (R : α → α → Prop) (xs ys : List α) : Prop :=
  ∃ f : α → α, (∀ x, R x (f x)) ∧ ys = xs.map f

theorem Changes.grows (h : Changes R xs ys) : Grows R xs ys := by
  obtain ⟨f, hf, rfl⟩ := h
  exact ⟨f, [], hf, (List.append_nil _).symm⟩

theorem Changes.refl (hR : ∀ x, R x x) (xs : List α) : Changes R xs xs :=
  ⟨id, hR, (List.map_id _).symm⟩

theorem Changes.trans (hR : ∀ x y z, R x y → R y z → R x z) (h : Changes R xs ys)
    (h' : Changes R ys zs) : Changes R xs zs := by
  obtain ⟨f, hf, rfl⟩ := h
  obtain ⟨g, hg, rfl⟩ := h'
  exact ⟨g ∘ f, fun x => hR _ _ _ (hf x) (hg _), List.map_map⟩

namespace Grows

theorem refl (hR : ∀ x, R x x) (xs : List α) : Grows R xs xs := (Changes.refl hR xs).grows

theorem trans (hR : ∀ x y z, R x y → R y z → R x z) (h : Grows R xs ys) (h' : Grows R ys zs) :
    Grows R xs zs := by
  obtain ⟨f, as, hf, rfl⟩ := h
  obtain ⟨g, bs, hg, rfl⟩ := h'
  exact ⟨g ∘ f, as.map g ++ bs, fun x => hR _ _ _ (hf x) (hg _), by simp⟩

/-- Every row of the old table has its successor in the new one. -/
theorem exists_mem (h : Grows R xs ys) {x : α} (hx : x ∈ xs) : ∃ y ∈ ys, R x y := by
  obtain ⟨f, as, hf, rfl⟩ := h
  exact ⟨f x, List.mem_append_left _ (List.mem_map_of_mem hx), hf x⟩

theorem append (hR : ∀ x, R x x) (xs as : List α) : Grows R xs (xs ++ as) :=
  ⟨id, as, hR, by simp⟩

end Grows

/-- Writes that keep `R` row by row let the table grow within `R`. -/
theorem grows_apply (hrefl : ∀ x, R x x) (htrans : ∀ x y z, R x y → R y z → R x z)
    (h : ∀ w ∈ ws, ∀ x, R x (on w x)) : Grows R xs (apply on new ws xs) := by
  induction ws generalizing xs with
  | nil => exact .refl hrefl xs
  | cons w ws ih =>
    have hw : Grows R xs (xs.map (on w) ++ new w) := ⟨on w, new w, h w (by simp), rfl⟩
    exact hw.trans htrans (ih fun w' hw' => h w' (by simp [hw']))

/-- Writes that append nothing, besides, add no row. -/
theorem changes_apply (hrefl : ∀ x, R x x) (htrans : ∀ x y z, R x y → R y z → R x z)
    (h : ∀ w ∈ ws, ∀ x, R x (on w x)) (hnew : ∀ w ∈ ws, new w = []) :
    Changes R xs (apply on new ws xs) := by
  induction ws generalizing xs with
  | nil => exact .refl hrefl xs
  | cons w ws ih =>
    have hw : Changes R xs (xs.map (on w) ++ new w) :=
      ⟨on w, h w (by simp), by rw [hnew w (by simp), List.append_nil]⟩
    exact hw.trans htrans (ih (fun w' hw' => h w' (by simp [hw'])) fun w' hw' =>
      hnew w' (by simp [hw']))

/-! ### One row of a keyed table -/

section Keyed

variable {κ : Type} {key : α → κ} {f : α → α} {x y : α}

theorem map_key (h : ∀ x, key (f x) = key x) (xs : List α) : (xs.map f).map key = xs.map key := by
  rw [List.map_map]
  exact List.map_congr_left fun x _ => h x

/-- A row is determined by its key. -/
theorem eq_of_key (h : (xs.map key).Nodup) (hx : x ∈ xs) (hy : y ∈ xs) (he : key x = key y) :
    x = y :=
  List.inj_on_of_nodup_map h hx hy he

/-- At most one row has a given key. -/
theorem length_filter_le_one {c : α → Prop} [DecidablePred c] (h : (xs.map key).Nodup)
    (hc : ∀ x ∈ xs, ∀ y ∈ xs, c x → c y → key x = key y) : (xs.filter c).length ≤ 1 := by
  match hf : xs.filter c with
  | [] => rw [hf]; simp
  | [_] => rw [hf]; simp
  | x :: y :: zs =>
    have hsub : (x :: y :: zs).Sublist xs := hf ▸ List.filter_sublist
    have hmem : ∀ z ∈ x :: y :: zs, z ∈ xs ∧ c z := fun z hz => by
      rw [← hf, List.mem_filter] at hz
      exact ⟨hz.1, of_decide_eq_true hz.2⟩
    have hn : ((x :: y :: zs).map key).Nodup := h.sublist (hsub.map key)
    have he := hc x (hmem x (by simp)).1 y (hmem y (by simp)).1 (hmem x (by simp)).2
      (hmem y (by simp)).2
    simp [he] at hn

/-- The rows of a condition that only `x` meets. -/
theorem filter_eq_singleton {c : α → Prop} [DecidablePred c] (h : (xs.map key).Nodup)
    (hx : x ∈ xs) (hcx : c x) (hc : ∀ y ∈ xs, c y → key y = key x) : xs.filter c = [x] := by
  have hmem : x ∈ xs.filter c := List.mem_filter.mpr ⟨hx, decide_eq_true hcx⟩
  have hle := length_filter_le_one (c := c) h fun y hy z hz hcy hcz =>
    (hc y hy hcy).trans (hc z hz hcz).symm
  have hpos := List.length_pos_of_mem hmem
  obtain ⟨y, hy⟩ := List.length_eq_one_iff.mp (show (xs.filter c).length = 1 by omega)
  rw [hy] at hmem ⊢
  rw [List.mem_singleton.mp hmem]

/-- A query that is answered by the rows of a class does not need the others. -/
theorem find_filter {c p : α → Prop} [DecidablePred c] [DecidablePred p]
    (h : ∀ y ∈ xs, c y → p y) : (xs.filter p).find? c = xs.find? c := by
  induction xs with
  | nil => rfl
  | cons y ys ih =>
    have ih := ih fun z hz => h z (List.mem_cons_of_mem _ hz)
    by_cases hp : p y
    · simp only [List.filter_cons, decide_eq_true hp, if_true, List.find?_cons, ih]
    · have hc : ¬ c y := fun hc => hp (h y List.mem_cons_self hc)
      simp only [List.filter_cons, decide_eq_false hp, Bool.false_eq_true, if_false, List.find?_cons,
        decide_eq_false hc, ih]

/-- A new row of the class. -/
theorem filter_append_of_pos {p : α → Prop} [DecidablePred p] (hx : p x) :
    (xs ++ [x]).filter p = xs.filter p ++ [x] := by
  rw [List.filter_append, List.filter_cons_of_pos (by simpa using hx), List.filter_nil]

/-- A new row that is not of the class. -/
theorem filter_append_of_neg {p : α → Prop} [DecidablePred p] (hx : ¬ p x) :
    (xs ++ [x]).filter p = xs.filter p := by
  rw [List.filter_append, List.filter_cons_of_neg (by simpa using hx), List.filter_nil,
    List.append_nil]

/-- An update that keeps the class of each row. -/
theorem filter_map_class {p q : α → Prop} [DecidablePred p] [DecidablePred q]
    (h : ∀ y ∈ xs, p (f y) ↔ q y) : (xs.map f).filter p = (xs.filter q).map f := by
  induction xs with
  | nil => rfl
  | cons y ys ih =>
    have ih := ih fun z hz => h z (List.mem_cons_of_mem _ hz)
    have hy := h y List.mem_cons_self
    by_cases hq : q y
    · simp only [List.map_cons, List.filter_cons, decide_eq_true hq, decide_eq_true (hy.mpr hq),
        if_true, ih]
    · have hp : ¬ p (f y) := fun hp => hq (hy.mp hp)
      simp only [List.map_cons, List.filter_cons, decide_eq_false hq, decide_eq_false hp,
        Bool.false_eq_true, if_false, ih]

/-- An update that does not touch the rows of a class. -/
theorem filter_map_fixed {p q : α → Prop} [DecidablePred p] [DecidablePred q]
    (h : ∀ y ∈ xs, p (f y) ↔ q y) (hf : ∀ y ∈ xs, q y → f y = y) :
    (xs.map f).filter p = xs.filter q := by
  rw [filter_map_class h]
  exact (List.map_congr_left fun y hy =>
    hf y (List.mem_filter.mp hy).1 (of_decide_eq_true (List.mem_filter.mp hy).2)).trans (List.map_id _)

/-- A query that matches at most one row. -/
theorem filter_eq_toList {c : α → Prop} [DecidablePred c] (h : (xs.map key).Nodup)
    (hc : ∀ y ∈ xs, ∀ z ∈ xs, c y → c z → key y = key z) : xs.filter c = (xs.find? c).toList := by
  cases hf : xs.find? c with
  | none => exact List.filter_eq_nil_iff.mpr fun y hy => List.find?_eq_none.mp hf y hy
  | some x =>
    have hx := List.mem_of_find?_eq_some hf
    have hcx : c x := by simpa using List.find?_some hf
    exact filter_eq_singleton h hx hcx fun y hy hcy => hc y hy x hx hcy hcx

/-- The row of a key that is there. -/
theorem find_key [DecidableEq κ] (h : (xs.map key).Nodup) (hx : x ∈ xs) :
    xs.find? (fun y => key y = key x) = some x := by
  cases hf : xs.find? (fun y => key y = key x) with
  | none => simpa using List.find?_eq_none.mp hf x hx
  | some y =>
    have he : key y = key x := by simpa using List.find?_some hf
    rw [eq_of_key h (List.mem_of_find?_eq_some hf) hx he]

/-- The row of a condition that only `x` meets. -/
theorem find_unique {c : α → Prop} [DecidablePred c] (h : (xs.map key).Nodup) (hx : x ∈ xs)
    (hcx : c x) (hc : ∀ y ∈ xs, c y → key y = key x) : xs.find? c = some x := by
  cases hf : xs.find? c with
  | none => exact absurd (decide_eq_true hcx) (List.find?_eq_none.mp hf x hx)
  | some y =>
    have hy := List.mem_of_find?_eq_some hf
    rw [eq_of_key h hy hx (hc y hy (of_decide_eq_true (List.find?_some hf :)))]

/-- The row of a key after an update that keeps the keys. -/
theorem find_updated [DecidableEq κ] (hkey : ∀ x, key (f x) = key x) (h : (xs.map key).Nodup)
    (hx : x ∈ xs) : (xs.map f).find? (fun y => key y = key x) = some (f x) := by
  have hfind := find_key (by rw [map_key hkey]; exact h) (List.mem_map_of_mem hx)
  rwa [hkey] at hfind

/-- A new row is found by its key. -/
theorem find_append [DecidableEq κ] (key : α → κ) (h : ∀ y ∈ xs, key y ≠ key x) :
    (xs ++ [x]).find? (fun y => key y = key x) = some x := by
  rw [List.find?_append, List.find?_eq_none.mpr fun y hy hk => h y hy (of_decide_eq_true hk),
    Option.none_or]
  exact List.find?_cons_of_pos (decide_eq_true rfl)

/-- An update that keeps the keys, and the rows of a key, keeps the row of the key. -/
theorem find_map [DecidableEq κ] {k : κ} (hkey : ∀ x, key (f x) = key x)
    (hf : ∀ y ∈ xs, key y = k → f y = y) :
    (xs.map f).find? (fun y => key y = k) = xs.find? (fun y => key y = k) := by
  have hcomp : (fun y => decide (key y = k)) ∘ f = fun y => decide (key y = k) := by
    funext y
    simp only [Function.comp_apply, hkey]
  rw [List.find?_map, hcomp]
  cases hy : xs.find? (fun y => key y = k) with
  | none => rfl
  | some y =>
    exact congrArg some (hf y (List.mem_of_find?_eq_some hy) (by simpa using List.find?_some hy))

theorem nodup_append_key (h : (xs.map key).Nodup) (hx : ∀ y ∈ xs, key y ≠ key x) :
    ((xs ++ [x]).map key).Nodup := by
  rw [List.map_append, List.nodup_append]
  refine ⟨h, List.nodup_singleton _, fun k hk k' hk' => ?_⟩
  obtain ⟨y, hy, rfl⟩ := List.mem_map.mp hk
  rw [List.mem_singleton.mp hk']
  exact hx y hy

/-- Two sums that differ in the value of one row. -/
theorem sum_map_update {v w : α → ℤ} (hn : xs.Nodup) (hx : x ∈ xs)
    (h : ∀ y ∈ xs, y ≠ x → v y = w y) : (xs.map v).sum = (xs.map w).sum + (v x - w x) := by
  classical
  have hrest : (xs.erase x).map v = (xs.erase x).map w := List.map_congr_left fun y hy => by
    obtain ⟨hne, hy⟩ := hn.mem_erase_iff.mp hy
    exact h y hy hne
  rw [← List.sum_map_erase v hx, ← List.sum_map_erase w hx, hrest]
  ring

/-- What the rows yield together, if at most one of them yields anything. -/
theorem length_flatMap_le_one {β : Type} {g : α → List β} (h : (xs.map key).Nodup)
    (hone : ∀ x ∈ xs, (g x).length ≤ 1)
    (hkey : ∀ x ∈ xs, ∀ y ∈ xs, g x ≠ [] → g y ≠ [] → key x = key y) :
    (xs.flatMap g).length ≤ 1 := by
  induction xs with
  | nil => simp
  | cons x xs ih =>
    rw [List.map_cons, List.nodup_cons] at h
    rw [List.flatMap_cons, List.length_append]
    by_cases hx : g x = []
    · have hrest := ih h.2 (fun y hy => hone y (List.mem_cons_of_mem _ hy))
        fun y hy z hz => hkey y (List.mem_cons_of_mem _ hy) z (List.mem_cons_of_mem _ hz)
      rw [hx, List.length_nil, Nat.zero_add]
      exact hrest
    · have hrest : xs.flatMap g = [] := by
        refine List.flatMap_eq_nil_iff.mpr fun y hy => ?_
        by_contra hne
        refine h.1 (List.mem_map.mpr ⟨y, hy, ?_⟩)
        exact hkey y (List.mem_cons_of_mem _ hy) x List.mem_cons_self hne hx
      rw [hrest, List.length_nil, Nat.add_zero]
      exact hone x List.mem_cons_self

/-- A sum over the rows of a class, as one over all rows. -/
theorem sum_filter {c : α → Prop} [DecidablePred c] {v : α → ℤ} :
    ((xs.filter c).map v).sum = (xs.map fun y => if c y then v y else 0).sum := by
  induction xs with
  | nil => rfl
  | cons y ys ih => by_cases hc : c y <;> simp [hc, ih]

/-- **A sum by keys**: over the rows of another table, and for each of them over those that refer to
it. -/
theorem sum_by_key {β : Type} [DecidableEq κ] {rows : List β} {ref : β → κ}
    (hn : (xs.map key).Nodup) (h : ∀ r ∈ rows, ∃ x ∈ xs, key x = ref r) (v : β → ℤ) :
    (rows.map v).sum = (xs.map fun x => ((rows.filter (ref · = key x)).map v).sum).sum := by
  induction rows with
  | nil => simp
  | cons r rows ih =>
    obtain ⟨x, hx, hxr⟩ := h r List.mem_cons_self
    have hrest : ∀ y ∈ xs, y ≠ x → (((r :: rows).filter (ref · = key y)).map v).sum =
        ((rows.filter (ref · = key y)).map v).sum := fun y hy hne => by
      have hkey : ref r ≠ key y := fun e => hne (eq_of_key hn hy hx (e.symm.trans hxr.symm))
      rw [List.filter_cons_of_neg (by simpa using hkey)]
    have hself : (((r :: rows).filter (ref · = key x)).map v).sum =
        v r + ((rows.filter (ref · = key x)).map v).sum := by
      rw [List.filter_cons_of_pos (by simpa using hxr.symm), List.map_cons, List.sum_cons]
    rw [sum_map_update (List.Nodup.of_map _ hn) hx hrest, hself, List.map_cons, List.sum_cons,
      ih fun r' hr' => h r' (List.mem_cons_of_mem _ hr')]
    ring

/-- A sum over the rows of a class, when one row changes its value and keeps its class. -/
theorem sum_filter_update {c : α → Prop} [DecidablePred c] {v : α → ℤ} (hn : xs.Nodup)
    (hx : x ∈ xs) (hf : ∀ y ∈ xs, y ≠ x → f y = y) (hc : c (f x) ↔ c x) :
    (((xs.map f).filter c).map v).sum =
      ((xs.filter c).map v).sum + if c x then v (f x) - v x else 0 := by
  rw [sum_filter, sum_filter, List.map_map, sum_map_update hn hx fun y hy hne => by
    rw [Function.comp_apply, hf y hy hne]]
  simp only [Function.comp_apply, hc]
  split_ifs <;> ring

end Keyed

/-! ### Texts with a separator -/

/-- What follows the last separator, and what precedes it, are determined. -/
theorem append_cons_inj {α : Type} {c : α} {x y u v : List α} (hu : c ∉ u) (hv : c ∉ v)
    (h : x ++ c :: u = y ++ c :: v) : x = y ∧ u = v := by
  rcases List.append_eq_append_iff.mp h with ⟨as, hy, ht⟩ | ⟨as, hx, ht⟩
  · cases as with
    | nil => exact ⟨by simpa using hy.symm, by simpa using ht⟩
    | cons a as =>
      obtain ⟨-, rfl⟩ := List.cons.inj ht
      exact absurd (List.mem_append_right as List.mem_cons_self) hu
  · cases as with
    | nil => exact ⟨by simpa using hx, by simpa using ht.symm⟩
    | cons a as =>
      obtain ⟨-, rfl⟩ := List.cons.inj ht
      exact absurd (List.mem_append_right as List.mem_cons_self) hv

end PaymentGateway.Lib.Tables
