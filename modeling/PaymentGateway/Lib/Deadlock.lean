import PaymentGateway.Lib.Sessions
import Mathlib.Data.Set.Finite.Lemmas

/-! # Deadlock

`WaitsFor M c i j`: the next statement of `i` has to wait for the session of `j`. If statements have
levels, and whoever is waited for is about to issue a statement of a higher level than the one that
waits, then no process waits for itself along a chain of waits (`Climbing.acyclic`), and as long as
one has not ended, one can go on (`Climbing.progress`). Any other measure that rises along the waits
does as well (`Rising`).

What a session holds is told from the statements it has issued: a `Trail` says which statement may
follow which, and what may be held after them. `OnTrail` is the invariant of a pool in which every
process keeps to its trail. -/

namespace PaymentGateway.Lib.Deadlock

open PaymentGateway.Lib.Program PaymentGateway.Lib.Sessions

variable {σ : Sig} {D L α β ι : Type} {M : Machine σ D L}

/-! ### Waiting -/

/-- The process `i` waits for `j`. -/
def WaitsFor (M : Machine σ D L) (c : Config σ D L ι α) (i j : ι) : Prop :=
  j ≠ i ∧ ∃ s k, (c.procs i).prog = .call s k ∧
    M.waits s c.shared (c.procs i).loc (c.procs j).loc

/-- The level of the next statement. -/
def next (level : σ.Stmt → ℕ) : Prog σ α → ℕ
  | .call s _ => level s
  | _ => 0

/-- Whoever is waited for has not ended, and is higher. -/
def Rising (M : Machine σ D L) (height : ι → ℕ) (c : Config σ D L ι α) : Prop :=
  ∀ i j, WaitsFor M c i j → ¬ (c.procs j).prog.Done ∧ height i < height j

/-- Whoever is waited for is about to go higher. -/
def Climbing (M : Machine σ D L) (level : σ.Stmt → ℕ) (c : Config σ D L ι α) : Prop :=
  ∀ i j, WaitsFor M c i j →
    ¬ (c.procs j).prog.Done ∧ next level (c.procs i).prog < next level (c.procs j).prog

variable {level : σ.Stmt → ℕ} {height : ι → ℕ} {c c' : Config σ D L ι α}

/-- **No cycle.** -/
theorem Rising.acyclic (h : Rising M height c) (i : ι) :
    ¬ Relation.TransGen (WaitsFor M c) i i := by
  have hlt : ∀ {j}, Relation.TransGen (WaitsFor M c) i j → height i < height j := by
    intro j hj
    induction hj with
    | single hw => exact (h _ _ hw).2
    | tail _ hw ih => exact ih.trans (h _ _ hw).2
  exact fun hi => lt_irrefl _ (hlt hi)

/-- **No deadlock.** The highest process can go on. -/
theorem Rising.progress [Finite ι] (h : Rising M height c) {i : ι}
    (hi : ¬ (c.procs i).prog.Done) : ∃ j, ¬ (c.procs j).prog.Done ∧ M.Enabled c j := by
  obtain ⟨j, hj, hmax⟩ := Set.exists_max_image {j | ¬ (c.procs j).prog.Done} height
    (Set.toFinite _) ⟨i, hi⟩
  obtain ⟨s, k, hp⟩ := Prog.eq_call_of_not_done hj
  refine ⟨j, hj, s, k, hp, fun m hm hw => ?_⟩
  obtain ⟨hd, hlt⟩ := h j m ⟨hm, s, k, hp, hw⟩
  exact absurd hlt (Nat.not_lt.mpr (hmax m hd))

theorem Climbing.rising (h : Climbing M level c) :
    Rising M (fun i => next level (c.procs i).prog) c := h

theorem Climbing.acyclic (h : Climbing M level c) (i : ι) :
    ¬ Relation.TransGen (WaitsFor M c) i i := h.rising.acyclic i

theorem Climbing.progress [Finite ι] (h : Climbing M level c) {i : ι}
    (hi : ¬ (c.procs i).prog.Done) : ∃ j, ¬ (c.procs j).prog.Done ∧ M.Enabled c j :=
  h.rising.progress hi

/-! ### Trails -/

/-- Which statement may follow those in `past`, and what a session may hold after them; nothing
that the others do takes it away. -/
structure Trail (I : Isolation M) where
  Ok : List σ.Stmt → σ.Stmt → L → Prop
  Holds : D → List σ.Stmt → L → Prop
  closed : ∀ d, Holds d [] M.closed
  exec : ∀ {s d l past}, I.Own d l → Ok past s l → Holds d past l →
    Holds (M.after s d l) (past ++ [s]) (M.session s d l)
  other : ∀ {s d l m past}, I.Own d l → I.Own d m → I.Apart l m → ¬ M.waits s d l m →
    Holds d past m → Holds (M.after s d l) past m

variable {I : Isolation M} {J : D → Prop} {T : ι → Trail I}

/-- Whatever the others do to the shared state within `J`, each statement may follow those in
`past`. -/
def Guarded (J : D → Prop) (T : Trail I) : Prog σ α → List σ.Stmt → L → Prop
  | .ret _, _, _ => True
  | .raise _, _, _ => True
  | .call s k, past, l => T.Ok past s l ∧
    ∀ d, J d → Guarded J T (k (M.exec s d l).1) (past ++ [s]) (M.session s d l)

/-- A statement, and what follows if it raises nothing. -/
theorem Guarded.exec_bind {T : Trail I} {s : σ.Stmt} {f : σ.Resp s → Prog σ α}
    {past : List σ.Stmt} {l : L} (hs : T.Ok past s l)
    (hf : ∀ d a, J d → (M.exec s d l).1 = .ok a →
      Guarded J T (f a) (past ++ [s]) (M.session s d l)) :
    Guarded J T (Prog.exec s >>= f) past l := by
  refine ⟨hs, fun d hd => ?_⟩
  have hf := hf d
  change Guarded J T (Prog.ofExcept (M.exec s d l).1 >>= f) _ _
  cases hr : (M.exec s d l).1 with
  | ok a => exact hf a hd hr
  | error e => trivial

/-- What is guarded may be followed by what issues no statement. -/
theorem Guarded.bind_quiet {T : Trail I} {p : Prog σ α} {f : α → Prog σ β} {past : List σ.Stmt}
    {l : L} (h : Guarded J T p past l) (hf : ∀ a, (f a).Done) :
    Guarded J T (p >>= f) past l := by
  induction p generalizing past l with
  | ret a =>
    have := hf a
    change Guarded J T (f a) past l
    generalize f a = q at this
    cases q with
    | call s k => exact absurd this id
    | _ => trivial
  | raise e => trivial
  | call s k ih => exact ⟨h.1, fun d hd => ih _ (h.2 d hd)⟩

theorem Guarded.mono {J' : D → Prop} {T T' : Trail I} {p : Prog σ α} {past : List σ.Stmt} {l : L}
    (hJ : ∀ d, J' d → J d) (hT : ∀ past s l, T.Ok past s l → T'.Ok past s l)
    (h : Guarded J T p past l) : Guarded J' T' p past l := by
  induction p generalizing past l with
  | ret a => trivial
  | raise e => trivial
  | call s k ih => exact ⟨hT past s l h.1, fun d hd => ih _ (h.2 d (hJ d hd))⟩

theorem Guarded.tryCatch {T : Trail I} {p : Prog σ α} {f : σ.Exc → Prog σ α} {past : List σ.Stmt}
    {l : L} (h : Guarded J T p past l) (hf : ∀ e past l, Guarded J T (f e) past l) :
    Guarded J T (p.tryCatch f) past l := by
  induction p generalizing past l with
  | ret a => trivial
  | raise e => exact hf e past l
  | call s k ih => exact ⟨h.1, fun d hd => ih _ (h.2 d hd)⟩

/-- If the program ends with a value, then like this, whatever the others do within `J`. -/
def Leaves (M : Machine σ D L) (J : D → Prop) (Q : α → List σ.Stmt → L → Prop) :
    Prog σ α → List σ.Stmt → L → Prop
  | .ret a, past, l => Q a past l
  | .raise _, _, _ => True
  | .call s k, past, l =>
    ∀ d, J d → Leaves M J Q (k (M.exec s d l).1) (past ++ [s]) (M.session s d l)

section Leaves

variable {Q : α → List σ.Stmt → L → Prop} {past : List σ.Stmt} {l : L}

theorem Leaves.tryCatch {p : Prog σ α} {f : σ.Exc → Prog σ α} (h : Leaves M J Q p past l)
    (hf : ∀ e past l, Leaves M J Q (f e) past l) : Leaves M J Q (p.tryCatch f) past l := by
  induction p generalizing past l with
  | ret a => exact h
  | raise e => exact hf e past l
  | call s k ih => exact fun d hd => ih _ (h d hd)

/-- What comes last decides. -/
theorem Leaves.bind_last {p : Prog σ β} {f : β → Prog σ α}
    (hf : ∀ b past l, Leaves M J Q (f b) past l) : Leaves M J Q (p >>= f) past l := by
  induction p generalizing past l with
  | ret b => exact hf b past l
  | raise e => trivial
  | call s k ih => exact fun d _ => ih _

theorem Leaves.exec_bind {s : σ.Stmt} {f : σ.Resp s → Prog σ α}
    (hf : ∀ d a, J d → (M.exec s d l).1 = .ok a →
      Leaves M J Q (f a) (past ++ [s]) (M.session s d l)) :
    Leaves M J Q (Prog.exec s >>= f) past l := by
  intro d hd
  have hf := hf d
  change Leaves M J Q (Prog.ofExcept (M.exec s d l).1 >>= f) _ _
  cases hr : (M.exec s d l).1 with
  | ok a => exact hf a hd hr
  | error e => trivial

/-- A first part, and what follows where that has left off. -/
theorem Guarded.bind {T : Trail I} {p : Prog σ α} {f : α → Prog σ β} (h : Guarded J T p past l)
    (hp : Leaves M J Q p past l) (hf : ∀ a past l, Q a past l → Guarded J T (f a) past l) :
    Guarded J T (p >>= f) past l := by
  induction p generalizing past l with
  | ret a => exact hf a past l hp
  | raise e => trivial
  | call s k ih => exact ⟨h.1, fun d hd => ih _ (h.2 d hd) (hp d hd)⟩

end Leaves

/-- Every process that has not ended is on its trail. -/
def OnTrail (J : D → Prop) (T : ι → Trail I) (c : Config σ D L ι α) : Prop :=
  ∀ i, ¬ (c.procs i).prog.Done → ∃ past,
    Guarded J (T i) (c.procs i).prog past (c.procs i).loc ∧
      (T i).Holds c.shared past (c.procs i).loc

theorem OnTrail.start {p : ι → Prog σ α} {d : D} (h : ∀ i, Guarded J (T i) (p i) [] M.closed) :
    OnTrail J T (M.start d p) := fun i _ => ⟨[], h i, (T i).closed d⟩

/-- On their trails the processes rise, if what they hold and wait for says so. -/
theorem OnTrail.rising (h : OnTrail J T c) (hset : Machine.Settled M c)
    (hclosed : ∀ s d l, ¬ M.waits s d l M.closed)
    (hwaits : ∀ {i j s s' k k' past past'}, i ≠ j → (c.procs i).prog = .call s k →
      (c.procs j).prog = .call s' k' → (T i).Ok past s (c.procs i).loc →
      (T j).Ok past' s' (c.procs j).loc → (T j).Holds c.shared past' (c.procs j).loc →
      M.waits s c.shared (c.procs i).loc (c.procs j).loc → height i < height j) :
    Rising M height c := by
  rintro i j ⟨hne, s, k, hp, hw⟩
  have hj : ¬ (c.procs j).prog.Done := fun hd => by
    rw [hset j hd] at hw
    exact hclosed _ _ _ hw
  obtain ⟨s', k', hp'⟩ := Prog.eq_call_of_not_done hj
  obtain ⟨past, hguard, -⟩ := h i (by rw [hp]; exact Prog.not_done_call _ _)
  obtain ⟨past', hguard', hholds⟩ := h j hj
  rw [hp] at hguard
  rw [hp'] at hguard'
  exact ⟨hj, hwaits hne.symm hp hp' hguard.1 hguard'.1 hholds hw⟩

/-- They climb, if the levels say so. -/
theorem OnTrail.climbing (h : OnTrail J T c) (hset : Machine.Settled M c)
    (hclosed : ∀ s d l, ¬ M.waits s d l M.closed)
    (hwaits : ∀ {i j s s' past past'}, i ≠ j →
      (T i).Ok past s (c.procs i).loc → (T j).Ok past' s' (c.procs j).loc →
      (T j).Holds c.shared past' (c.procs j).loc →
      M.waits s c.shared (c.procs i).loc (c.procs j).loc → level s < level s') :
    Climbing M level c := by
  refine h.rising hset hclosed fun {i j _ _ _ _ _ _} hne hp hp' ho ho' hholds hw => ?_
  rw [hp, hp']
  exact hwaits hne ho ho' hholds hw

variable [DecidableEq ι]

/-- **A step** keeps every process on its trail. -/
theorem OnTrail.step (h : OnTrail J T c) (hpool : I.Pool c) (hJ : J c.shared) {m : Move ι}
    (hs : M.Step c m c') : OnTrail J T c' := by
  cases hs with
  | @fire i he =>
    obtain ⟨s, k, hp, hw⟩ := he
    obtain ⟨past, hguard, hholds⟩ := h i (by rw [hp]; exact Prog.not_done_call _ _)
    rw [hp] at hguard
    rw [Machine.fire_call hp]
    intro j hj
    by_cases hji : j = i
    · subst hji
      simp only [Function.update_self, Machine.proceed_prog] at hj ⊢
      refine ⟨past ++ [s], ?_, ?_⟩ <;> simp only [Machine.proceed, if_neg hj]
      · exact hguard.2 c.shared hJ
      · exact (T j).exec (hpool.own j) hguard.1 hholds
    · simp only [Function.update_of_ne hji] at hj ⊢
      obtain ⟨past', hguard', hholds'⟩ := h j hj
      exact ⟨past', hguard', (T j).other (hpool.own i) (hpool.own j)
        (hpool.apart i j (Ne.symm hji)) (hw j hji) hholds'⟩
  | @kill i hd =>
    intro j hj
    by_cases hji : j = i
    · subst hji
      simp [Machine.kill] at hj
    · simp only [Machine.kill, Function.update_of_ne hji] at hj ⊢
      exact h j hj

end PaymentGateway.Lib.Deadlock
