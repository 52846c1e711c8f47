import PaymentGateway.Lib.Sessions

/-! # Proof outlines under interference

Between two statements of a program other sessions may change the shared state. A `Contract` says
what a session relies on (`rely l d d'`: while it is in state `l` the others may take `d` to `d'`),
what it guarantees for each of its own statements, and what may be assumed where a statement fires.
`Outline C Q p` is the proof outline of `p`: whatever the others do within `rely`, every statement
of `p` keeps `guar`, and `p` ends in `Q`. It is by recursion on the program.

* `Outline.bind`: outlines compose along `>>=`;
* `Outline.run`, `Outline.run_once`: a program that runs alone keeps its outline;
* `Sound.run`: so does every program of a pool, in every interleaving, if the guarantee of each is
  within the rely of the others. -/

namespace PaymentGateway.Lib.Interference

open PaymentGateway.Lib.Program PaymentGateway.Lib.Sessions

variable {σ : Sig} {D L α β ι : Type} {M : Machine σ D L}

/-- What a session relies on, guarantees, and may assume. -/
structure Contract (M : Machine σ D L) where
  assume : σ.Stmt → D → L → Prop
  rely : L → D → D → Prop
  guar : D → D → Prop
  refl : ∀ l d, rely l d d
  trans : ∀ {l d d' d''}, rely l d d' → rely l d' d'' → rely l d d''

/-- The proof outline of a program. -/
def Outline (C : Contract M) (Q : Except σ.Exc α → L → D → Prop) : Prog σ α → L → D → Prop
  | .ret a, l, d => Q (.ok a) l d
  | .raise e, l, d => Q (.error e) l d
  | .call s k, l, d => ∀ d', C.rely l d d' → C.assume s d' l →
      C.guar d' (M.after s d' l) ∧
        Outline C Q (k (M.exec s d' l).1) (M.session s d' l) (M.after s d' l)

variable {C : Contract M} {Q Q' : Except σ.Exc α → L → D → Prop} {p : Prog σ α} {l : L} {d d' : D}

namespace Outline

/-- **Sequencing**: the outline of the first part ends where that of the second starts. -/
theorem bind {P : Except σ.Exc β → L → D → Prop} {p : Prog σ β} {f : β → Prog σ α}
    (h : Outline C P p l d) (hok : ∀ b l d, P (.ok b) l d → Outline C Q (f b) l d)
    (herr : ∀ e l d, P (.error e) l d → Q (.error e) l d) : Outline C Q (p >>= f) l d := by
  induction p generalizing l d with
  | ret a => exact hok _ _ _ h
  | raise e => exact herr _ _ _ h
  | call s k ih =>
    intro d' hr ha
    obtain ⟨hg, hk⟩ := h d' hr ha
    exact ⟨hg, ih _ hk⟩

/-- A weaker postcondition. -/
theorem mono (h : Outline C Q p l d) (hQ : ∀ r l d, Q r l d → Q' r l d) : Outline C Q' p l d := by
  induction p generalizing l d with
  | ret a => exact hQ _ _ _ h
  | raise e => exact hQ _ _ _ h
  | call s k ih =>
    intro d' hr ha
    obtain ⟨hg, hk⟩ := h d' hr ha
    exact ⟨hg, ih _ hk⟩

/-- **Consequence**, for contracts: a session may assume and rely on more, and guarantee less. -/
theorem adapt {C' : Contract M} (h : Outline C Q p l d)
    (hassume : ∀ s d l, C'.assume s d l → C.assume s d l)
    (hrely : ∀ l d d', C'.rely l d d' → C.rely l d d') (hguar : ∀ d d', C.guar d d' → C'.guar d d') :
    Outline C' Q p l d := by
  induction p generalizing l d with
  | ret a => exact h
  | raise e => exact h
  | call s k ih =>
    intro d' hr ha
    obtain ⟨hg, hk⟩ := h d' (hrely _ _ _ hr) (hassume _ _ _ ha)
    exact ⟨hguar _ _ hg, ih _ hk⟩

/-- **Catching**: an exception of the body starts the handler. -/
theorem tryCatch {P : Except σ.Exc α → L → D → Prop} {p : Prog σ α} {h : σ.Exc → Prog σ α}
    (hp : Outline C P p l d) (hok : ∀ a l d, P (.ok a) l d → Q (.ok a) l d)
    (herr : ∀ e l d, P (.error e) l d → Outline C Q (h e) l d) :
    Outline C Q (p.tryCatch h) l d := by
  induction p generalizing l d with
  | ret a => exact hok _ _ _ hp
  | raise e => exact herr _ _ _ hp
  | call s k ih =>
    intro d' hr ha
    obtain ⟨hg, hk⟩ := hp d' hr ha
    exact ⟨hg, ih _ hk⟩

/-- An outline survives what the others may do, if its postcondition does. -/
theorem interfere (h : Outline C Q p l d) (hr : C.rely l d d')
    (hQ : ∀ r, p.result? = some r → Q r l d → Q r l d') : Outline C Q p l d' := by
  cases p with
  | ret a => exact hQ _ rfl h
  | raise e => exact hQ _ rfl h
  | call s k => exact fun d'' hr' ha => h d'' (C.trans hr hr') ha

/-- **A statement.** What is known before it must survive what the others do. -/
theorem call {s : σ.Stmt} {k : Except σ.Exc (σ.Resp s) → Prog σ α} (P : D → Prop)
    (hstable : ∀ d d', C.rely l d d' → P d → P d') (hP : P d)
    (h : ∀ d, P d → C.assume s d l →
      C.guar d (M.after s d l) ∧
        Outline C Q (k (M.exec s d l).1) (M.session s d l) (M.after s d l)) :
    Outline C Q (.call s k) l d :=
  fun d' hr ha => h d' (hstable d d' hr hP) ha

end Outline

/-! ### Programs served alone -/

section Alone

variable {I : Isolation M} {J : D → Prop}

/-- Served alone, a program meets its postcondition, keeps an invariant that its guarantee keeps,
and takes the shared state only through steps of its guarantee. -/
theorem Outline.run (hassume : ∀ s d l, I.Own d l → J d → C.assume s d l)
    (hguar : ∀ d d', J d → C.guar d d' → J d') (hown : I.Own d l) (hJ : J d)
    (h : Outline C Q p l d) :
    Q (M.run p d l).1 (M.run p d l).2.2 (M.run p d l).2.1 ∧ J (M.run p d l).2.1 := by
  induction p generalizing l d with
  | ret a => exact ⟨h, hJ⟩
  | raise e => exact ⟨h, hJ⟩
  | call s k ih =>
    obtain ⟨hg, hk⟩ := h d (C.refl l d) (hassume s d l hown hJ)
    exact ih _ (I.own_exec hown) (hguar _ _ hJ hg) hk

variable {writes : σ.Stmt → Prop}

/-- A program that does not write leaves the shared state as it is. -/
theorem run_quiet (hquiet : ∀ s d l, ¬ writes s → M.after s d l = d) (h : p.Quiet writes) :
    (M.run p d l).2.1 = d := by
  induction p generalizing l d with
  | ret a => rfl
  | raise e => rfl
  | call s k ih => rw [Machine.run_call, ih _ (h.2 _), hquiet s d l h.1]

/-- A program that writes once, served alone, takes at most one step of its guarantee. -/
theorem Outline.run_once (hquiet : ∀ s d l, ¬ writes s → M.after s d l = d)
    (hassume : ∀ s d l, I.Own d l → J d → C.assume s d l) (hown : I.Own d l) (hJ : J d)
    (honce : p.Once writes) (h : Outline C Q p l d) :
    (M.run p d l).2.1 = d ∨ C.guar d (M.run p d l).2.1 := by
  induction p generalizing l d with
  | ret a => exact .inl rfl
  | raise e => exact .inl rfl
  | call s k ih =>
    obtain ⟨hg, hk⟩ := h d (C.refl l d) (hassume s d l hown hJ)
    rcases honce with ⟨hw, hrest⟩ | hrest
    · have hd := hquiet s d l hw
      have := ih _ (I.own_exec hown) (hd.symm ▸ hJ) (hrest _) hk
      rw [hd] at this
      rwa [Machine.run_call, hd]
    · rw [Machine.run_call, run_quiet hquiet (hrest _)]
      exact .inr hg

end Alone

/-! ### Pools -/

section Pool

variable {I : Isolation M} {J : D → Prop} {P : Config σ D L ι α → Move ι → Prop}
  {Cs : ι → Contract M} {Qs : ι → Except σ.Exc α → D → Prop} {c c' : Config σ D L ι α}

/-- The contracts and postconditions of a pool fit together: what one process guarantees by a
statement that does not have to wait keeps the invariant `J`, and is within what every other relies
on; what the contracts assume is what isolation, the invariant and the condition on the moves give.
-/
structure Fits (I : Isolation M) (J : D → Prop) (P : Config σ D L ι α → Move ι → Prop)
    (Cs : ι → Contract M) (Qs : ι → Except σ.Exc α → D → Prop) : Prop where
  assume : ∀ {c i s k}, P c (.fire i) → I.Pool c → J c.shared → (c.procs i).prog = .call s k →
    (Cs i).assume s c.shared (c.procs i).loc
  keeps : ∀ {i d d'}, J d → (Cs i).guar d d' → J d'
  rely : ∀ {i j s d l m}, i ≠ j → I.Own d l → I.Own d m → I.Apart l m → ¬ M.waits s d l m →
    (Cs i).assume s d l → (Cs i).guar d (M.after s d l) → (Cs j).rely m d (M.after s d l)
  stable : ∀ {i r d d'}, Qs i r d → (Cs i).rely M.closed d d' → Qs i r d'
  crash : ∀ i d, Qs i (.error M.crash) d

/-- Every process of the configuration has its outline, and the invariant holds. -/
structure Sound (I : Isolation M) (J : D → Prop) (Cs : ι → Contract M)
    (Qs : ι → Except σ.Exc α → D → Prop) (c : Config σ D L ι α) : Prop where
  outline : ∀ i, Outline (Cs i) (fun r _ d => Qs i r d) (c.procs i).prog (c.procs i).loc c.shared
  inv : J c.shared
  pool : I.Pool c
  settled : Machine.Settled M c

namespace Sound

theorem start {p : ι → Prog σ α} {d : D} (hJ : J d)
    (h : ∀ i, Outline (Cs i) (fun r _ d => Qs i r d) (p i) M.closed d) :
    Sound I J Cs Qs (M.start d p) :=
  ⟨h, hJ, I.pool_start d p, fun _ _ => rfl⟩

variable [DecidableEq ι]

/-- A statement of a process with an outline is a step of its guarantee. -/
theorem guar (hF : Fits I J P Cs Qs) (h : Sound I J Cs Qs c) {i : ι} (hP : P c (.fire i))
    (he : M.Enabled c i) : (Cs i).guar c.shared (M.fire c i).shared := by
  obtain ⟨s, k, hp, hw⟩ := he
  have hi := h.outline i
  rw [hp] at hi
  rw [Machine.fire_call hp]
  exact (hi c.shared ((Cs i).refl _ _) (hF.assume hP h.pool h.inv hp)).1

theorem step (hF : Fits I J P Cs Qs) (h : Sound I J Cs Qs c) {m : Move ι} (hP : P c m)
    (hs : M.Step c m c') : Sound I J Cs Qs c' := by
  refine ⟨?_, ?_, I.pool_step h.pool hs, hs.settled h.settled⟩
  · cases hs with
    | @fire i he =>
      obtain ⟨s, k, hp, hw⟩ := he
      have hi := h.outline i
      rw [hp] at hi
      have has := hF.assume hP h.pool h.inv hp
      obtain ⟨hg, hk⟩ := hi c.shared ((Cs i).refl _ _) has
      rw [Machine.fire_call hp]
      intro j
      by_cases hj : j = i
      · subst hj
        simp only [Function.update_self, Machine.proceed_prog]
        -- the postcondition does not speak about the session, so closing it is harmless
        generalize k (M.exec s c.shared (c.procs j).loc).1 = q at hk ⊢
        cases q with
        | ret a => exact hk
        | raise e => exact hk
        | call s' k' => simpa [Machine.proceed] using hk
      · simp only [Function.update_of_ne hj]
        have hr := hF.rely (Ne.symm hj) (h.pool.own i) (h.pool.own j)
          (h.pool.apart i j (Ne.symm hj)) (hw j hj) has hg
        refine (h.outline j).interfere hr fun r hres hq => ?_
        rw [h.settled j (Prog.done_of_result hres)] at hr
        exact hF.stable hq hr
    | @kill i hd =>
      intro j
      by_cases hj : j = i
      · subst hj; simpa [Machine.kill, Outline] using hF.crash j c.shared
      · simpa [Machine.kill, Function.update_of_ne hj] using h.outline j
  · cases hs with
    | fire he => exact hF.keeps h.inv (h.guar hF hP he)
    | kill hd => exact h.inv

/-- **Outlines in a pool.** If the contracts fit together, then in every interleaving every process
keeps its outline, and the shared state goes only through steps of the guarantees. -/
theorem run (hF : Fits I J P Cs Qs) (h : Sound I J Cs Qs c) (hr : M.Run P c c') :
    Sound I J Cs Qs c' ∧
      Relation.ReflTransGen (fun d d' => J d ∧ ∃ i, (Cs i).guar d d') c.shared c'.shared := by
  induction hr with
  | refl => exact ⟨h, .refl⟩
  | @tail b c'' hr hs ih =>
    obtain ⟨m, hP, hs⟩ := hs
    obtain ⟨ihs, ihr⟩ := ih
    refine ⟨ihs.step hF hP hs, ?_⟩
    cases hs with
    | @fire i he => exact ihr.tail ⟨ihs.inv, i, ihs.guar hF hP he⟩
    | kill hd => exact ihr

end Sound

end Pool

end PaymentGateway.Lib.Interference
