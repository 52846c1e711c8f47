import PaymentGateway.Lib.Sessions
import Mathlib.Data.DFinsupp.WellFounded
import Mathlib.SetTheory.Ordinal.Family

/-! # Termination

A program is a tree without infinite paths, though its statements may have infinitely many
responses: what is left of it after a statement is of a smaller rank. So a pool of finitely many
programs takes only finitely many steps (`no_endless_run`), and if one of them can go on as long as
one has not ended, all of them come to an end (`comes_to_rest`). -/

namespace PaymentGateway.Lib.Termination

open PaymentGateway.Lib.Program PaymentGateway.Lib.Sessions

variable {σ : Sig} {D L α ι : Type} {M : Machine σ D L} {c c' : Config σ D L ι α} {m : Move ι}
  {i : ι}

/-- The rank of a program: above those of what may be left of it after its next statement. -/
noncomputable def rank : Prog σ α → Ordinal.{0}
  | .ret _ => 0
  | .raise _ => 0
  | .call _ k => ⨆ r, rank (k r) + 1

theorem rank_next {s : σ.Stmt} (k : Except σ.Exc (σ.Resp s) → Prog σ α)
    (r : Except σ.Exc (σ.Resp s)) : rank (k r) < rank (.call s k) :=
  Ordinal.lt_iSup_add_one (fun r => rank (k r)) r

/-- The ranks of the programs of a pool. -/
noncomputable def ranks (c : Config σ D L ι α) : ι → Ordinal.{0} := fun i => rank (c.procs i).prog

variable [DecidableEq ι]

theorem ranks_lt (hsame : ∀ j, j ≠ i → c'.procs j = c.procs j)
    (hlt : rank (c'.procs i).prog < rank (c.procs i).prog) : ranks c' < ranks c := by
  refine Pi.lt_def.mpr ⟨fun j => ?_, i, hlt⟩
  by_cases hj : j = i
  · subst hj
    exact hlt.le
  · unfold ranks
    rw [hsame j hj]

/-- **A step lowers the ranks.** -/
theorem ranks_step (hs : M.Step c m c') : ranks c' < ranks c := by
  cases hs with
  | @fire i he =>
    obtain ⟨s, k, hp, -⟩ := he
    refine ranks_lt (i := i) (fun j hj => Machine.fire_of_ne hj) ?_
    rw [Machine.fire_call hp, hp]
    simp only [Function.update_self, Machine.proceed_prog]
    exact rank_next k _
  | @kill i hd =>
    obtain ⟨s, k, hp⟩ := Prog.eq_call_of_not_done hd
    refine ranks_lt (i := i) (fun j hj => by simp [Machine.kill, hj]) ?_
    rw [hp]
    simp only [Machine.kill, Function.update_self]
    exact zero_le.trans_lt (rank_next k (.error M.crash))

variable [Finite ι]

/-- **No run goes on for ever.** -/
theorem no_endless_run (f : ℕ → Config σ D L ι α) : ¬ ∀ n, ∃ m, M.Step (f n) m (f (n + 1)) := by
  intro h
  obtain ⟨n, hn⟩ := WellFounded.not_rel_apply_succ (r := (· < ·)) fun n => ranks (f n)
  obtain ⟨m, hs⟩ := h n
  exact hn (ranks_step hs)

/-- **All come to an end**, without a death, if as long as one has not ended one can go on. -/
theorem comes_to_rest {Fires : Config σ D L ι α → Move ι → Prop} (hfires : ∀ c i, Fires c (.fire i))
    (hgo : ∀ c', M.Run Fires c c' → (∃ i, ¬ (c'.procs i).prog.Done) → ∃ j, M.Enabled c' j) :
    ∃ c', M.Run Fires c c' ∧ ∀ i, (c'.procs i).prog.Done := by
  generalize hranks : ranks c = r
  induction r using WellFoundedLT.induction generalizing c with
  | ind r ih =>
    subst hranks
    by_cases hdone : ∀ i, (c.procs i).prog.Done
    · exact ⟨c, .refl, hdone⟩
    · obtain ⟨j, hj⟩ := hgo c .refl (not_forall.mp hdone)
      have hstep : M.Run Fires c (M.fire c j) := .single ⟨.fire j, hfires c j, .fire hj⟩
      obtain ⟨c', hr, hall⟩ := ih _ (ranks_step (.fire hj)) (fun c' hr => hgo c' (hstep.trans hr)) rfl
      exact ⟨c', hstep.trans hr, hall⟩

end PaymentGateway.Lib.Termination
