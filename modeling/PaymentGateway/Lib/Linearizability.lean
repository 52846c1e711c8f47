import PaymentGateway.Lib.Serializability
import Mathlib.Data.Finset.Insert

/-! # Linearizability where processes die

The one-shot programs of `Lib.Serializability`, some of which are killed on the way. A process that
is killed has not fired its finishing statement, so it might as well never have run: with the killed
ones put back to their start (`revive`), what is known of the others is the same. Since a process
takes its place in the order when it ends, the order of a later configuration only goes on from that
of an earlier one: what had ended comes before what had not. -/

namespace PaymentGateway.Lib.Linearizability

open PaymentGateway.Lib.Program PaymentGateway.Lib.Sessions PaymentGateway.Lib.Serializability

variable {σ : Sig} {D L α ι : Type} [DecidableEq ι] {M : Machine σ D L} {fin : σ.Stmt → Prop}
  {I : Isolation M} {G : Prog σ α → Prop} {p : ι → Prog σ α} {d₀ : D} {killed : Finset ι}
  {c c' : Config σ D L ι α} {order : List ι} {i : ι}

/-- The configuration in which those that were killed have not started. -/
def revive (M : Machine σ D L) (p : ι → Prog σ α) (killed : Finset ι) (c : Config σ D L ι α) :
    Config σ D L ι α where
  shared := c.shared
  procs i := if i ∈ killed then ⟨p i, M.closed⟩ else c.procs i

/-- Those that have ended did so in this order, or were killed. -/
structure Linearized (M : Machine σ D L) (fin : σ.Stmt → Prop) (p : ι → Prog σ α) (d₀ : D)
    (c : Config σ D L ι α) (order : List ι) (killed : Finset ι) : Prop where
  served : Serialized M fin p d₀ (revive M p killed c) order
  dead : ∀ i ∈ killed, c.procs i = ⟨.raise M.crash, M.closed⟩

theorem revive_of_mem (h : i ∈ killed) : (revive M p killed c).procs i = ⟨p i, M.closed⟩ :=
  if_pos h

theorem revive_of_notMem (h : i ∉ killed) : (revive M p killed c).procs i = c.procs i :=
  if_neg h

/-- The sessions are those of the configuration. -/
theorem revive_loc (h : ∀ i ∈ killed, c.procs i = ⟨.raise M.crash, M.closed⟩) (i : ι) :
    ((revive M p killed c).procs i).loc = (c.procs i).loc := by
  by_cases hi : i ∈ killed
  · rw [revive_of_mem hi, h i hi]
  · rw [revive_of_notMem hi]

theorem revive_fire (h : i ∉ killed) :
    revive M p killed (M.fire c i) = M.fire (revive M p killed c) i := by
  have hi := revive_of_notMem (M := M) (p := p) (c := c) h
  cases hp : (c.procs i).prog with
  | ret a =>
    rw [Machine.fire_done (by rw [hp]; trivial), Machine.fire_done (by rw [hi, hp]; trivial)]
  | raise e =>
    rw [Machine.fire_done (by rw [hp]; trivial), Machine.fire_done (by rw [hi, hp]; trivial)]
  | call s k =>
    rw [Machine.fire_call hp, Machine.fire_call (by rw [hi]; exact hp)]
    unfold revive
    simp only [if_neg h, Config.mk.injEq, true_and]
    funext j
    by_cases hj : j = i
    · subst hj
      simp [h]
    · simp [hj]

/-- Killing one more leaves those that run as they are. -/
theorem revive_kill : revive M p (insert i killed) (M.kill c i) = revive M p (insert i killed) c := by
  unfold revive Machine.kill
  simp only [Config.mk.injEq, true_and]
  funext j
  by_cases hj : j = i
  · subst hj
    simp
  · simp [hj]

theorem pool_revive (h : ∀ i ∈ killed, c.procs i = ⟨.raise M.crash, M.closed⟩) (hI : I.Pool c) :
    I.Pool (revive M p killed c) := by
  refine ⟨fun i => ?_, fun i j hij => ?_⟩
  · rw [revive_loc h]
    exact hI.own i
  · rw [revive_loc h, revive_loc h]
    exact hI.apart i j hij

theorem enabled_revive (h : ∀ i ∈ killed, c.procs i = ⟨.raise M.crash, M.closed⟩) (hi : i ∉ killed)
    (he : M.Enabled c i) : M.Enabled (revive M p killed c) i := by
  obtain ⟨s, k, hp, hw⟩ := he
  refine ⟨s, k, ?_, fun j hj => ?_⟩
  · rw [revive_of_notMem hi]
    exact hp
  · rw [revive_loc h, revive_loc h]
    exact hw j hj

/-- **A death**: the process was under way, and is not missed. -/
theorem Linearized.kill (h : Linearized M fin p d₀ c order killed) (hd : ¬ (c.procs i).prog.Done)
    (hgo : ∀ i, ¬ (p i).Done) : Linearized M fin p d₀ (M.kill c i) order (insert i killed) := by
  have hi : i ∉ killed := fun hi => hd (by rw [h.dead i hi]; trivial)
  have horder : i ∉ order := fun ho => hd (by
    rw [← revive_of_notMem hi]
    exact (h.served.done i).mp ho)
  have hsame : ∀ j, j ≠ i → (revive M p (insert i killed) c).procs j =
      (revive M p killed c).procs j := fun j hj => by
    unfold revive
    simp [hj]
  have hself : (revive M p (insert i killed) c).procs i = ⟨p i, M.closed⟩ :=
    revive_of_mem (Finset.mem_insert_self i killed)
  refine ⟨?_, fun j hj => ?_⟩
  · rw [revive_kill]
    obtain ⟨rs, hrs, hres⟩ := h.served.serial
    refine ⟨h.served.nodup, fun j => ?_, ⟨rs, hrs, fun j r hjr => ?_⟩, fun j hj => ?_⟩
    · by_cases hji : j = i
      · subst hji
        rw [hself]
        exact ⟨fun ho => absurd ho horder, fun hd => absurd hd (hgo j)⟩
      · rw [hsame j hji]
        exact h.served.done j
    · have hji : j ≠ i := by
        rintro rfl
        have hresult := hres j r hjr
        rw [revive_of_notMem hi] at hresult
        exact hd (Prog.done_of_result hresult)
      rw [hsame j hji]
      exact hres j r hjr
    · by_cases hji : j = i
      · subst hji
        rw [hself]
        exact .start
      · rw [hsame j hji] at hj ⊢
        exact h.served.replay j hj
  · by_cases hji : j = i
    · subst hji
      simp [Machine.kill]
    · simp only [Machine.kill, Function.update_of_ne hji]
      exact h.dead j (Finset.mem_of_mem_insert_of_ne hj hji)

/-- **A step** of the pool, or a death: the order at most goes on. -/
theorem Linearized.step (hquiet : ∀ s d l, ¬ fin s → M.after s d l = d) (hstable : Stable I fin G)
    (hone : ∀ i, (p i).OneShot fin) (hG : ∀ i, G (p i)) (hgo : ∀ i, ¬ (p i).Done)
    (h : Linearized M fin p d₀ c order killed) (hI : I.Pool c) {m : Move ι} (hs : M.Step c m c') :
    ∃ order' killed', order <+: order' ∧ killed ⊆ killed' ∧
      Linearized M fin p d₀ c' order' killed' := by
  cases hs with
  | @fire i he =>
    have hi : i ∉ killed := fun hi => by
      obtain ⟨s, k, hp, -⟩ := he
      rw [h.dead i hi] at hp
      cases hp
    obtain ⟨order', hprefix, hserved⟩ := h.served.step hquiet hstable hone hG
      (pool_revive h.dead hI) (enabled_revive h.dead hi he)
    refine ⟨order', killed, hprefix, subset_rfl, ?_, fun j hj => ?_⟩
    · rw [revive_fire hi]
      exact hserved
    · have hji : j ≠ i := by
        rintro rfl
        exact hi hj
      rw [Machine.fire_of_ne hji]
      exact h.dead j hj
  | @kill i hd =>
    exact ⟨order, insert i killed, List.prefix_rfl, Finset.subset_insert i killed, h.kill hd hgo⟩

/-- **Linearizability.** In every interleaving of one-shot programs with deaths, those that ended have
the results, and the shared state is the one, of serving them in the order in which they ended. -/
theorem linearizable {P : Config σ D L ι α → Move ι → Prop}
    (hquiet : ∀ s d l, ¬ fin s → M.after s d l = d) (hstable : Stable I fin G)
    (hone : ∀ i, (p i).OneShot fin) (hG : ∀ i, G (p i)) (hgo : ∀ i, ¬ (p i).Done)
    (h : Linearized M fin p d₀ c order killed) (hI : I.Pool c) (hr : M.Run P c c') :
    ∃ order' killed', order <+: order' ∧ killed ⊆ killed' ∧
      Linearized M fin p d₀ c' order' killed' := by
  have hrun : (∃ order' killed', order <+: order' ∧ killed ⊆ killed' ∧
      Linearized M fin p d₀ c' order' killed') ∧ I.Pool c' := by
    induction hr with
    | refl => exact ⟨⟨order, killed, List.prefix_rfl, subset_rfl, h⟩, hI⟩
    | tail _ hs ih =>
      obtain ⟨⟨order', killed', hprefix, hsub, h'⟩, hI'⟩ := ih
      obtain ⟨m, -, hs⟩ := hs
      obtain ⟨order'', killed'', hprefix', hsub', h''⟩ :=
        h'.step hquiet hstable hone hG hgo hI' hs
      exact ⟨⟨order'', killed'', hprefix.trans hprefix', hsub.trans hsub', h''⟩,
        I.pool_step hI' hs⟩
  exact hrun.1

theorem linearized_start (hgo : ∀ i, ¬ (p i).Done) :
    Linearized M fin p d₀ (M.start d₀ p) [] ∅ := by
  refine ⟨?_, fun i hi => absurd hi (Finset.notMem_empty i)⟩
  have hrevive : revive M p ∅ (M.start d₀ p) = M.start d₀ p := by
    unfold revive
    simp
  rw [hrevive]
  exact serialized_start hgo

end PaymentGateway.Lib.Linearizability
