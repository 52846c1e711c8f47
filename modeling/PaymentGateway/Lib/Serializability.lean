import PaymentGateway.Lib.Sessions

/-! # Serializability by replay

A *one-shot* program issues statements that leave the shared state alone, then at most one finishing
statement, and ends. While such a program is under way, what it did so far can be replayed: issued
again on the present shared state, the same statements give the same responses (`Replay`). If no
step of another process spoils this (`Stable`), each process may as well have run all at once at the
moment it ended, so the pool is serializable in the order in which its processes end
(`serializable`), with the very results and the very final state. -/

namespace PaymentGateway.Lib.Serializability

open PaymentGateway.Lib.Program PaymentGateway.Lib.Sessions

variable {σ : Sig} {D L α ι : Type} {M : Machine σ D L}

/-- `q` in the session `m` is what is left of `p` started in `l`, when the statements in between are
issued on the shared state `d`; they are not finishing, and leave it alone. -/
inductive Replay (M : Machine σ D L) (fin : σ.Stmt → Prop) (d : D) (p : Prog σ α) (l : L) :
    Prog σ α → L → Prop
  | start : Replay M fin d p l p l
  | snoc {s k m} (h : Replay M fin d p l (.call s k) m) (hf : ¬ fin s) (hd : M.after s d m = d) :
      Replay M fin d p l (k (M.exec s d m).1) (M.session s d m)

variable {fin : σ.Stmt → Prop}

theorem Replay.run_eq {d : D} {p q : Prog σ α} {l m : L} (h : Replay M fin d p l q m) :
    M.run p d l = M.run q d m := by
  induction h with
  | start => rfl
  | snoc h hf hd ih => rw [ih, Machine.run_call, hd]

theorem Replay.oneShot {d : D} {p q : Prog σ α} {l m : L} (hp : p.OneShot fin)
    (h : Replay M fin d p l q m) : q.OneShot fin := by
  induction h with
  | start => exact hp
  | @snoc s k m h hf hd ih =>
    rcases ih with ⟨-, hk⟩ | ⟨-, hk⟩
    · have := hk (M.exec s d m).1
      generalize k (M.exec s d m).1 = q at this ⊢
      cases q with
      | call s k => exact absurd this id
      | ret a => trivial
      | raise e => trivial
    · exact hk _

/-- Serving a program whose replay stands before its finishing statement. -/
theorem Replay.serve_finish {d : D} {p : Prog σ α} {s : σ.Stmt}
    {k : Except σ.Exc (σ.Resp s) → Prog σ α} {m : L} {r : Except σ.Exc α}
    (h : Replay M fin d p M.closed (.call s k) m) (hr : (k (M.exec s d m).1).result? = some r) :
    M.serve p d = (r, M.after s d m) := by
  unfold Machine.serve
  rw [h.run_eq, Machine.run_call]
  generalize k (M.exec s d m).1 = q at hr ⊢
  cases q with
  | ret a => cases hr; rfl
  | raise e => cases hr; rfl
  | call s k => cases hr

/-- The finishing statement of one program, in a state where it does not wait for another, leaves
the replay of the other as it was. -/
def Stable (I : Isolation M) (fin : σ.Stmt → Prop) (G : Prog σ α → Prop) : Prop :=
  ∀ {s k d l m p p' q}, fin s → I.Own d l → I.Own d m → I.Apart l m → ¬ M.waits s d l m →
    G p → Replay M fin d p M.closed (.call s k) l → G p' → ¬ q.Done →
    Replay M fin d p' M.closed q m → Replay M fin (M.after s d l) p' M.closed q m

section Pool

variable {I : Isolation M} {G : Prog σ α → Prop} {p : ι → Prog σ α}

/-- `order` is the order in which the processes that have ended did so: serving them in this order
gives their results and the shared state, and every other process can be replayed on it. -/
structure Serialized (M : Machine σ D L) (fin : σ.Stmt → Prop) (p : ι → Prog σ α) (d₀ : D)
    (c : Config σ D L ι α) (order : List ι) : Prop where
  nodup : order.Nodup
  done : ∀ i, i ∈ order ↔ (c.procs i).prog.Done
  serial : ∃ rs, M.serial p order d₀ = (rs, c.shared) ∧
    ∀ i r, (i, r) ∈ rs → (c.procs i).prog.result? = some r
  replay : ∀ i, ¬ (c.procs i).prog.Done →
    Replay M fin c.shared (p i) M.closed (c.procs i).prog (c.procs i).loc

variable [DecidableEq ι] {c c' : Config σ D L ι α} {d₀ : D} {order : List ι}

/-- A process that is under way and ends by its next statement comes last in the order. -/
theorem Serialized.finish (hser : Serialized M fin p d₀ c order) {i : ι} {s : σ.Stmt}
    {k : Except σ.Exc (σ.Resp s) → Prog σ α} (hp : (c.procs i).prog = .call s k)
    (hdone : (k (M.exec s c.shared (c.procs i).loc).1).Done)
    (hothers : ∀ j, j ≠ i → ¬ (c.procs j).prog.Done →
      Replay M fin (M.after s c.shared (c.procs i).loc) (p j) M.closed (c.procs j).prog
        (c.procs j).loc) :
    Serialized M fin p d₀ (M.fire c i) (order ++ [i]) := by
  have hnd : ¬ (c.procs i).prog.Done := by rw [hp]; exact Prog.not_done_call s k
  have hi : i ∉ order := fun h => hnd ((hser.done i).mp h)
  obtain ⟨r, hr⟩ := hdone.result
  have hrep := hser.replay i hnd
  rw [hp] at hrep
  have hserve := hrep.serve_finish hr
  obtain ⟨rs, hrs, hres⟩ := hser.serial
  rw [Machine.fire_call hp]
  refine ⟨?_, fun j => ?_, ⟨rs ++ [(i, r)], ?_, ?_⟩, fun j hj => ?_⟩
  · exact List.nodup_append.mpr ⟨hser.nodup, List.nodup_singleton i, fun a ha b hb => by
      rw [List.mem_singleton] at hb
      subst hb
      exact fun e => hi (e ▸ ha)⟩
  · by_cases hj : j = i
    · subst hj; simp [hdone]
    · simp [hj, hser.done j]
  · rw [Machine.serial_append, hrs]
    simp [Machine.serial, hserve]
  · intro j r' hmem
    rcases List.mem_append.mp hmem with hj | hj
    · have hne : j ≠ i := by
        rintro rfl
        have := hres _ _ hj
        rw [hp] at this
        cases this
      simp only [Function.update_of_ne hne]
      exact hres j r' hj
    · simp only [List.mem_singleton, Prod.mk.injEq] at hj
      obtain ⟨rfl, rfl⟩ := hj
      simpa using hr
  · by_cases hji : j = i
    · subst hji; simp only [Function.update_self, Machine.proceed_prog] at hj; exact absurd hdone hj
    · simp only [Function.update_of_ne hji] at hj ⊢
      exact hothers j hji hj

/-- A statement that does not end its process and leaves the shared state alone is one more
statement to replay. -/
theorem Serialized.advance (hser : Serialized M fin p d₀ c order) {i : ι} {s : σ.Stmt}
    {k : Except σ.Exc (σ.Resp s) → Prog σ α} (hp : (c.procs i).prog = .call s k)
    (hf : ¬ fin s) (hd : M.after s c.shared (c.procs i).loc = c.shared)
    (hgoes : ¬ (k (M.exec s c.shared (c.procs i).loc).1).Done) :
    Serialized M fin p d₀ (M.fire c i) order := by
  have hnd : ¬ (c.procs i).prog.Done := by rw [hp]; exact Prog.not_done_call s k
  have hrep := hser.replay i hnd
  rw [hp] at hrep
  obtain ⟨rs, hrs, hres⟩ := hser.serial
  rw [Machine.fire_call hp, hd]
  refine ⟨hser.nodup, fun j => ?_, ⟨rs, hrs, fun j r hj => ?_⟩, fun j hj => ?_⟩
  · by_cases hj : j = i
    · subst hj
      rw [hser.done j]
      simp [hp, hgoes]
    · simp [hser.done j, Function.update_of_ne hj]
  · have hne : j ≠ i := by
      rintro rfl
      have := hres j r hj
      rw [hp] at this
      cases this
    simp only [Function.update_of_ne hne]
    exact hres j r hj
  · by_cases hji : j = i
    · subst hji
      simp only [Function.update_self, Machine.proceed, if_neg hgoes]
      exact hrep.snoc hf hd
    · simp only [Function.update_of_ne hji] at hj ⊢
      exact hser.replay j hj

/-- A process that ends takes the last place in the order. -/
theorem Serialized.step (hquiet : ∀ s d l, ¬ fin s → M.after s d l = d)
    (hstable : Stable I fin G) (hone : ∀ i, (p i).OneShot fin) (hG : ∀ i, G (p i))
    (hser : Serialized M fin p d₀ c order) (hI : I.Pool c) {i : ι} (he : M.Enabled c i) :
    ∃ order', order <+: order' ∧ Serialized M fin p d₀ (M.fire c i) order' := by
  obtain ⟨s, k, hp, hw⟩ := he
  have hnd : ¬ (c.procs i).prog.Done := by rw [hp]; exact Prog.not_done_call s k
  have hshot := (hser.replay i hnd).oneShot (hone i)
  rw [hp] at hshot
  rcases hshot with ⟨hf, hk⟩ | ⟨hf, -⟩
  · refine ⟨_, List.prefix_append _ _, hser.finish hp (hk _) fun j hj hjd => ?_⟩
    exact hstable hf (hI.own i) (hI.own j) (hI.apart i j hj.symm) (hw j hj) (hG i)
      (hp ▸ hser.replay i hnd) (hG j) hjd (hser.replay j hjd)
  · have hd := hquiet s c.shared (c.procs i).loc hf
    by_cases hdone : (k (M.exec s c.shared (c.procs i).loc).1).Done
    · exact ⟨_, List.prefix_append _ _, hser.finish hp hdone fun j hj hjd => by
        rw [hd]; exact hser.replay j hjd⟩
    · exact ⟨_, List.prefix_rfl, hser.advance hp hf hd hdone⟩

omit [DecidableEq ι] in
theorem serialized_start (hgo : ∀ i, ¬ (p i).Done) : Serialized M fin p d₀ (M.start d₀ p) [] :=
  ⟨List.nodup_nil, fun i => by simpa [Machine.start] using hgo i, ⟨[], rfl, by simp⟩,
    fun i _ => .start⟩

/-- **Serializability.** In every interleaving of one-shot programs, the processes that have ended
have the results, and the shared state is the one, of serving them in the order they ended. -/
theorem serializable {P : Config σ D L ι α → Move ι → Prop} (hkill : ∀ c i, ¬ P c (.kill i))
    (hquiet : ∀ s d l, ¬ fin s → M.after s d l = d) (hstable : Stable I fin G)
    (hone : ∀ i, (p i).OneShot fin) (hG : ∀ i, G (p i)) (hgo : ∀ i, ¬ (p i).Done)
    (h : M.Run P (M.start d₀ p) c) : ∃ order, Serialized M fin p d₀ c order := by
  refine (h.invariant (fun c => (∃ order, Serialized M fin p d₀ c order) ∧ I.Pool c)
    ⟨⟨[], serialized_start hgo⟩, I.pool_start d₀ p⟩ ?_).1
  rintro c m c' ⟨⟨order, hser⟩, hI⟩ hP hs
  refine ⟨?_, I.pool_step hI hs⟩
  cases hs with
  | fire he =>
    obtain ⟨order', -, h'⟩ := hser.step hquiet hstable hone hG hI he
    exact ⟨order', h'⟩
  | kill hd => exact absurd hP (hkill _ _)

end Pool

end PaymentGateway.Lib.Serializability
