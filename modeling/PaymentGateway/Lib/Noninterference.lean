import Mathlib.Data.List.Basic

/-! # Noninterference by unwinding

Two systems take steps on a schedule of actors; some of the actors are observed. If a step of an
actor that is not observed does not show (`left`, `right`), and a step of an observed one keeps what
shows the same (`both`), then two schedules with the same observed actors, in the same order, end in
states that look the same (`Unwinding.run`). -/

namespace PaymentGateway.Lib.Noninterference

variable {C ι : Type}

/-- The conditions on steps: `R` relates states that look the same, and `G`, `G'` are invariants of
the two systems. -/
structure Unwinding (fire : C → ι → C) (observed : ι → Prop) (G G' : C → Prop) (R : C → C → Prop) :
    Prop where
  keeps : ∀ {c i}, G c → G (fire c i)
  keeps' : ∀ {c i}, G' c → G' (fire c i)
  left : ∀ {c c' i}, G c → ¬ observed i → R c c' → R (fire c i) c'
  right : ∀ {c c' i}, G' c' → ¬ observed i → R c c' → R c (fire c' i)
  both : ∀ {c c' i}, G c → G' c' → observed i → R c c' → R (fire c i) (fire c' i)

variable {fire : C → ι → C} {observed : ι → Prop} [DecidablePred observed] {G G' : C → Prop}
  {R : C → C → Prop} {c c' : C}

/-- Steps that are not observed do not show. -/
theorem Unwinding.silent (h : Unwinding fire observed G G' R) {is : List ι}
    (his : is.filter observed = []) (hG : G' c') (hR : R c c') : R c (is.foldl fire c') := by
  induction is generalizing c' with
  | nil => exact hR
  | cons i is ih =>
    by_cases hi : observed i
    · simp [hi] at his
    · exact ih (by simpa [hi] using his) (h.keeps' hG) (h.right hG hi hR)

/-- **Noninterference.** -/
theorem Unwinding.run (h : Unwinding fire observed G G' R) {is js : List ι}
    (hs : is.filter observed = js.filter observed) (hG : G c) (hG' : G' c') (hR : R c c') :
    R (is.foldl fire c) (js.foldl fire c') := by
  induction is generalizing c c' js with
  | nil => exact h.silent hs.symm hG' hR
  | cons i is ih =>
    by_cases hi : observed i
    · -- the other schedule goes on to its next observed step, which is the same
      induction js generalizing c' with
      | nil => simp [hi] at hs
      | cons j js ihj =>
        by_cases hj : observed j
        · simp only [List.filter_cons, hi, hj, decide_true, if_true, List.cons.injEq] at hs
          obtain ⟨rfl, hs⟩ := hs
          show R (is.foldl fire (fire c i)) (js.foldl fire (fire c' i))
          exact ih hs (h.keeps hG) (h.keeps' hG') (h.both hG hG' hi hR)
        · exact ihj (by simpa [hj] using hs) (h.keeps' hG') (h.right hG' hj hR)
    · exact ih (by simpa [hi] using hs) (h.keeps hG) hG' (h.left hG hi hR)

end PaymentGateway.Lib.Noninterference
