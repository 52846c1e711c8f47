import Mathlib.Data.List.Basic

/-! # Calls one after another

A call `c` made in the state `s` has an answer and leaves another state, `step c s`; a list of calls
is made in order (`runAll`).

Some calls are hidden from an observer, which depends on the state they are made in. `kept` is the
list without them, and `heard` are the answers to the others. If the run without the hidden calls
stays related to the full one (`Oblivious`), the observer cannot tell the two apart. The relation may
speak of the calls that are still to come.

A state may stand for an abstract one. If each call does there what it should (`Refines`), a run is
answered as in the abstract states. -/

namespace PaymentGateway.Lib.Calls

variable {C A S : Type} {step : C → S → A × S}

/-- The answers to the calls, made one after another, and the state after the last. -/
def runAll (step : C → S → A × S) : List C → S → List (C × A) × S
  | [], s => ([], s)
  | c :: cs, s =>
    ((c, (step c s).1) :: (runAll step cs (step c s).2).1, (runAll step cs (step c s).2).2)

/-- Each call meets a state as `P` has it. -/
def Along (step : C → S → A × S) (P : C → S → Prop) : List C → S → Prop
  | [], _ => True
  | c :: cs, s => P c s ∧ Along step P cs (step c s).2

/-! ### Hidden calls -/

section Hidden

variable (step) (Hidden : C → S → Prop) [∀ c s, Decidable (Hidden c s)]

/-- The calls that are not hidden where they are made. -/
def kept : List C → S → List C
  | [], _ => []
  | c :: cs, s => if Hidden c s then kept cs (step c s).2 else c :: kept cs (step c s).2

/-- The answers to them. -/
def heard : List C → S → List (C × A)
  | [], _ => []
  | c :: cs, s =>
    if Hidden c s then heard cs (step c s).2 else (c, (step c s).1) :: heard cs (step c s).2

end Hidden

/-- What a hidden call does is not seen, and the others do the same in related states. -/
structure Oblivious (step : C → S → A × S) (Hidden : C → S → Prop) (Rel : List C → S → S → Prop) :
    Prop where
  hidden : ∀ c cs s s', Rel (c :: cs) s s' → Hidden c s → Rel cs (step c s).2 s'
  seen : ∀ c cs s s', Rel (c :: cs) s s' → ¬ Hidden c s →
    (step c s).1 = (step c s').1 ∧ Rel cs (step c s).2 (step c s').2

/-- **Without the hidden calls, the others are answered as before**, and end in a related state. -/
theorem Oblivious.run {Hidden : C → S → Prop} [∀ c s, Decidable (Hidden c s)]
    {Rel : List C → S → S → Prop} (h : Oblivious step Hidden Rel) {cs : List C} {s s' : S}
    (hrel : Rel cs s s') :
    heard step Hidden cs s = (runAll step (kept step Hidden cs s) s').1 ∧
      Rel [] (runAll step cs s).2 (runAll step (kept step Hidden cs s) s').2 := by
  induction cs generalizing s s' with
  | nil => exact ⟨rfl, hrel⟩
  | cons c cs ih =>
    unfold heard kept
    by_cases hc : Hidden c s
    · rw [if_pos hc, if_pos hc]
      exact ih (h.hidden c cs s s' hrel hc)
    · obtain ⟨hanswer, hrel⟩ := h.seen c cs s s' hrel hc
      obtain ⟨hheard, hfinal⟩ := ih hrel
      rw [if_neg hc, if_neg hc]
      refine ⟨?_, hfinal⟩
      unfold runAll
      rw [hanswer, hheard]

/-! ### Abstract states -/

/-- A call does to the abstract state what it should, and is answered as there. The invariant may
speak of the calls that are still to come. -/
structure Refines {T : Type} (step : C → S → A × S) (spec : C → T → A × T) (abs : S → T)
    (I : List C → S → Prop) : Prop where
  kept : ∀ c cs s, I (c :: cs) s → I cs (step c s).2
  answer : ∀ c cs s, I (c :: cs) s → (step c s).1 = (spec c (abs s)).1
  state : ∀ c cs s, I (c :: cs) s → abs (step c s).2 = (spec c (abs s)).2

/-- **All calls are answered as in the abstract states.** -/
theorem Refines.run {T : Type} {spec : C → T → A × T} {abs : S → T} {I : List C → S → Prop}
    (h : Refines step spec abs I) {cs : List C} {s : S} (hI : I cs s) :
    (runAll step cs s).1 = (runAll spec cs (abs s)).1 ∧
      abs (runAll step cs s).2 = (runAll spec cs (abs s)).2 ∧ I [] (runAll step cs s).2 := by
  induction cs generalizing s with
  | nil => exact ⟨rfl, rfl, hI⟩
  | cons c cs ih =>
    obtain ⟨hanswers, hstate, hlast⟩ := ih (h.kept c cs s hI)
    rw [h.state c cs s hI] at hanswers hstate
    refine ⟨?_, hstate, hlast⟩
    unfold runAll
    rw [h.answer c cs s hI, hanswers]

end PaymentGateway.Lib.Calls
