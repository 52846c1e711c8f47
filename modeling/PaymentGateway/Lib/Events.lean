import PaymentGateway.Lib.Sessions

/-! # The statements that a pool fires

A statement may be an event for others than the shared state, such as a message that is handed to a
queue. `Issues M R E p l d` says that `p` fires it only where it may: whatever the others do within
`R`, every statement of `p` meets `E` in the shared state in which it fires. It is by recursion on
the program, as a proof outline is, and every process of a pool keeps it (`PoolIssues.step`) as long as
the steps of the pool are within `R`. -/

namespace PaymentGateway.Lib.Events

open PaymentGateway.Lib.Program PaymentGateway.Lib.Sessions

variable {σ : Sig} {D L α β ι : Type} {M : Machine σ D L} {R : D → D → Prop}
  {E : σ.Stmt → D → Prop} {d d' : D} {l : L}

/-- Every statement of the program meets `E`, while the others do as `R` lets them. -/
def Issues (M : Machine σ D L) (R : D → D → Prop) (E : σ.Stmt → D → Prop) :
    Prog σ α → L → D → Prop
  | .ret _, _, _ => True
  | .raise _, _, _ => True
  | .call s k, l, d => ∀ d', R d d' →
      E s d' ∧ Issues M R E (k (M.exec s d' l).1) (M.session s d' l) (M.after s d' l)

namespace Issues

variable {p : Prog σ α}

/-- A program without statements of the kind that `E` is about. -/
theorem of_quiet {c : σ.Stmt → Prop} (hE : ∀ s d, ¬ c s → E s d) (h : p.Quiet c) :
    Issues M R E p l d := by
  induction p generalizing l d with
  | ret a => trivial
  | raise e => trivial
  | call s k ih => exact fun d' _ => ⟨hE s d' h.1, ih _ (h.2 _)⟩

/-- **Sequencing.** -/
theorem bind {f : α → Prog σ β} (h : Issues M R E p l d) (hf : ∀ a l d, Issues M R E (f a) l d) :
    Issues M R E (p >>= f) l d := by
  induction p generalizing l d with
  | ret a => exact hf a l d
  | raise e => trivial
  | call s k ih =>
    intro d' hr
    obtain ⟨hs, hk⟩ := h d' hr
    exact ⟨hs, ih _ hk⟩

/-- It survives what the others may do. -/
theorem keeps (htrans : ∀ {d d' d''}, R d d' → R d' d'' → R d d'') (h : Issues M R E p l d)
    (hr : R d d') : Issues M R E p l d' := by
  cases p with
  | ret a => trivial
  | raise e => trivial
  | call s k => exact fun d'' hr' => h d'' (htrans hr hr')

/-- A program that has ended issues nothing, whatever its session. -/
theorem proceed (h : Issues M R E p l d) :
    Issues M R E (M.proceed p l).prog (M.proceed p l).loc d := by
  cases p with
  | ret a => trivial
  | raise e => trivial
  | call s k => exact h

end Issues

/-! ### Pools -/

variable [DecidableEq ι] {c c' : Config σ D L ι α}

/-- Every process of the pool issues its statements only where it may. -/
def PoolIssues (M : Machine σ D L) (R : D → D → Prop) (E : σ.Stmt → D → Prop)
    (c : Config σ D L ι α) : Prop :=
  ∀ i, Issues M R E (c.procs i).prog (c.procs i).loc c.shared

omit [DecidableEq ι] in
/-- The statement that fires next meets `E`. -/
theorem PoolIssues.fires (hrefl : ∀ d, R d d) (h : PoolIssues M R E c) {i : ι} {s : σ.Stmt}
    {k : Except σ.Exc (σ.Resp s) → Prog σ α} (hp : (c.procs i).prog = .call s k) :
    E s c.shared := by
  have hi := h i
  rw [hp] at hi
  exact (hi c.shared (hrefl _)).1

/-- **A step of the pool** within `R` leaves every process with statements that meet `E`. -/
theorem PoolIssues.step (hrefl : ∀ d, R d d)
    (htrans : ∀ {d d' d''}, R d d' → R d' d'' → R d d'') (h : PoolIssues M R E c) {m : Move ι}
    (hs : M.Step c m c') (hr : R c.shared c'.shared) : PoolIssues M R E c' := by
  intro j
  cases hs with
  | @fire i he =>
    obtain ⟨s, k, hp, -⟩ := he
    by_cases hj : j = i
    · subst hj
      have hi := h j
      rw [hp] at hi
      rw [Machine.fire_call hp]
      simp only [Function.update_self]
      exact (hi c.shared (hrefl _)).2.proceed
    · rw [Machine.fire_of_ne hj]
      exact (h j).keeps htrans hr
  | @kill i hd =>
    by_cases hj : j = i
    · subst hj
      simp only [Machine.kill, Function.update_self]
      trivial
    · simp only [Machine.kill, Function.update_of_ne hj]
      exact h j

end PaymentGateway.Lib.Events
