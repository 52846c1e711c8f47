import PaymentGateway.Lib.Calls
import Mathlib.Data.List.Perm.Basic
import Mathlib.Data.List.Pairwise

/-! # Calls that commute

If calls that are apart neither see nor overtake each other (`Commuting`), then a list of such calls
may be made in any order: each has the answer it would have if it were made first, and the state at
the end is one (`Commuting.answers`, `Commuting.perm`).

Where the states are concrete and commute only up to what they stand for, the calls are compared
through an `Abstraction`: the concrete step is the abstract one as long as the call fits, and an
abstract state that fits was reached through states that fit. So if calls that are apart fit in one
order, they fit in every order (`Abstraction.perm`). -/

namespace PaymentGateway.Lib.Commutation

open PaymentGateway.Lib.Calls

variable {C A S T : Type}

/-- In the states of `Sound`, calls that are apart do not see each other, and may be swapped. -/
structure Commuting (step : C → S → A × S) (Sound : S → Prop) (Apart : C → C → Prop) : Prop where
  sound : ∀ c s, Sound s → Sound (step c s).2
  symm : ∀ c c', Apart c c' → Apart c' c
  answer : ∀ c c' s, Sound s → Apart c c' → (step c' (step c s).2).1 = (step c' s).1
  state : ∀ c c' s, Sound s → Apart c c' →
    (step c' (step c s).2).2 = (step c (step c' s).2).2

namespace Commuting

variable {step : C → S → A × S} {Sound : S → Prop} {Apart : C → C → Prop} {cs cs' : List C} {s : S}

/-- Every call has the answer it would have if it were the first. -/
theorem answers (h : Commuting step Sound Apart) (hs : Sound s) (hcs : cs.Pairwise Apart) :
    (runAll step cs s).1 = cs.map fun c => (c, (step c s).1) := by
  induction cs generalizing s with
  | nil => rfl
  | cons c cs ih =>
    obtain ⟨hc, hcs⟩ := List.pairwise_cons.mp hcs
    have hrest : (runAll step cs (step c s).2).1 = cs.map fun c' => (c', (step c' s).1) := by
      rw [ih (h.sound c s hs) hcs]
      exact List.map_congr_left fun c' hc' => by rw [h.answer c c' s hs (hc c' hc')]
    exact congrArg ((c, (step c s).1) :: ·) hrest

/-- The order of the calls does not matter to the state after them. -/
theorem state_perm (h : Commuting step Sound Apart) (hp : cs.Perm cs') (hs : Sound s)
    (hcs : cs.Pairwise Apart) : (runAll step cs s).2 = (runAll step cs' s).2 := by
  induction hp generalizing s with
  | nil => rfl
  | cons c _ ih => exact ih (h.sound c s hs) (List.pairwise_cons.mp hcs).2
  | swap c c' cs =>
    have happ : Apart c' c := (List.pairwise_cons.mp hcs).1 c List.mem_cons_self
    exact congrArg (fun s => (runAll step cs s).2) (h.state c' c s hs happ)
  | trans hp _ ih ih' => exact (ih hs hcs).trans (ih' hs (hcs.perm hp (h.symm _ _)))

/-- **Calls that are apart may be made in any order.** -/
theorem perm (h : Commuting step Sound Apart) (hp : cs.Perm cs') (hs : Sound s)
    (hcs : cs.Pairwise Apart) : (runAll step cs s).1.Perm (runAll step cs' s).1 ∧
      (runAll step cs s).2 = (runAll step cs' s).2 := by
  refine ⟨?_, h.state_perm hp hs hcs⟩
  rw [h.answers hs hcs, h.answers hs (hcs.perm hp (h.symm _ _))]
  exact hp.map _

end Commuting

/-- The concrete states stand for abstract ones, whose calls commute. `New` is what a call needs of
the state that other calls do not take away, `Ok` that it fits the concrete state, and `Fits` that
an abstract state has a concrete one. -/
structure Abstraction (step : C → S → A × S) (spec : C → T → A × T) (Apart : C → C → Prop) where
  abs : S → T
  Inv : S → Prop
  New : C → S → Prop
  Ok : C → S → Prop
  Sound : T → Prop
  Fits : T → Prop
  inv : ∀ c s, Inv s → Inv (step c s).2
  new : ∀ c c' s, Inv s → New c s → Ok c s → Apart c c' → New c' s → New c' (step c s).2
  sound : ∀ s, Inv s → Sound (abs s)
  commuting : Commuting spec Sound Apart
  refines : ∀ c s, Inv s → New c s → Ok c s →
    (step c s).1 = (spec c (abs s)).1 ∧ abs (step c s).2 = (spec c (abs s)).2
  fits : ∀ s, Fits (abs s)
  fits_of_step : ∀ c t, Sound t → Fits (spec c t).2 → Fits t
  ok_of_fits : ∀ c s, Inv s → New c s → Fits (spec c (abs s)).2 → Ok c s

namespace Abstraction

variable {step : C → S → A × S} {spec : C → T → A × T} {Apart : C → C → Prop} {cs cs' : List C}
  {s : S} {t : T}

/-- The calls are those of the abstract state as long as they fit. -/
theorem run_eq (h : Abstraction step spec Apart) (hs : h.Inv s) (hnew : ∀ c ∈ cs, h.New c s)
    (hcs : cs.Pairwise Apart) (hok : Along step h.Ok cs s) :
    (runAll step cs s).1 = (runAll spec cs (h.abs s)).1 ∧
      h.abs (runAll step cs s).2 = (runAll spec cs (h.abs s)).2 := by
  induction cs generalizing s with
  | nil => exact ⟨rfl, rfl⟩
  | cons c cs ih =>
    obtain ⟨hc, hcs⟩ := List.pairwise_cons.mp hcs
    have hnow := hnew c List.mem_cons_self
    obtain ⟨hanswer, hstate⟩ := h.refines c s hs hnow hok.1
    obtain ⟨hanswers, hfinal⟩ := ih (h.inv c s hs) (fun c' hc' =>
      h.new c c' s hs hnow hok.1 (hc c' hc') (hnew c' (List.mem_cons_of_mem _ hc'))) hcs hok.2
    rw [hstate] at hanswers hfinal
    refine ⟨?_, hfinal⟩
    unfold runAll
    rw [hanswer, hanswers]

/-- A run that ends in a state that fits starts in one. -/
theorem fits_of_run (h : Abstraction step spec Apart) (ht : h.Sound t)
    (hfits : h.Fits (runAll spec cs t).2) : h.Fits t := by
  induction cs generalizing t with
  | nil => exact hfits
  | cons c cs ih => exact h.fits_of_step c t ht (ih (h.commuting.sound c t ht) hfits)

/-- The calls fit if the abstract state after them does. -/
theorem ok_of_run (h : Abstraction step spec Apart) (hs : h.Inv s) (hnew : ∀ c ∈ cs, h.New c s)
    (hcs : cs.Pairwise Apart) (hfits : h.Fits (runAll spec cs (h.abs s)).2) :
    Along step h.Ok cs s := by
  induction cs generalizing s with
  | nil => trivial
  | cons c cs ih =>
    obtain ⟨hc, hcs⟩ := List.pairwise_cons.mp hcs
    have hnow := hnew c List.mem_cons_self
    have hok := h.ok_of_fits c s hs hnow
      (h.fits_of_run (h.commuting.sound c _ (h.sound s hs)) hfits)
    refine ⟨hok, ih (h.inv c s hs) (fun c' hc' =>
      h.new c c' s hs hnow hok (hc c' hc') (hnew c' (List.mem_cons_of_mem _ hc'))) hcs ?_⟩
    rw [(h.refines c s hs hnow hok).2]
    exact hfits

/-- **Calls that are apart, and fit in one order, may be made in any order.** -/
theorem perm (h : Abstraction step spec Apart) (hs : h.Inv s) (hnew : ∀ c ∈ cs, h.New c s)
    (hcs : cs.Pairwise Apart) (hok : Along step h.Ok cs s) (hp : cs.Perm cs') :
    (runAll step cs s).1.Perm (runAll step cs' s).1 ∧
      h.abs (runAll step cs s).2 = h.abs (runAll step cs' s).2 := by
  have hcs' := hcs.perm hp (h.commuting.symm _ _)
  have hnew' : ∀ c ∈ cs', h.New c s := fun c hc => hnew c (hp.mem_iff.mpr hc)
  obtain ⟨hanswers, hstate⟩ := h.run_eq hs hnew hcs hok
  obtain ⟨hspec, hfinal⟩ := h.commuting.perm hp (h.sound s hs) hcs
  -- the state at the end is one, and it fits since the first order has reached it
  have hfits : h.Fits (runAll spec cs' (h.abs s)).2 := by
    rw [← hfinal, ← hstate]
    exact h.fits _
  obtain ⟨hanswers', hstate'⟩ := h.run_eq hs hnew' hcs' (h.ok_of_run hs hnew' hcs' hfits)
  rw [hanswers, hanswers', hstate, hstate']
  exact ⟨hspec, hfinal⟩

end Abstraction

end PaymentGateway.Lib.Commutation
