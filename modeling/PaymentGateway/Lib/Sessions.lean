import PaymentGateway.Lib.Program
import Mathlib.Data.Finset.Insert
import Mathlib.Data.Fintype.Defs
import Mathlib.Data.List.Nodup
import Mathlib.Logic.Function.Basic

/-! # Machines: what statements do, alone and interleaved

A `Machine` gives statements their meaning on a shared state `D` and the issuer's local state `L`
(its session). A program served alone runs to its end (`run`, `serve`). A pool of programs is a
`Config`; one `Step` fires one statement of one process, or kills a process. A statement may have
to wait for another session (`waits`), for instance on a lock that session holds; it then cannot
fire. A process that ends, or is killed, has its session closed: whatever it held is given up.

`Isolation` collects what the machine keeps between the sessions of a pool whatever the programs
are; `Isolation.pool` is the invariant it gives over every run. -/

namespace PaymentGateway.Lib.Sessions

open PaymentGateway.Lib.Program

/-- What the statements of `σ` do on the shared state `D` and a session state `L`. -/
structure Machine (σ : Sig) (D L : Type) where
  /-- The response, the new shared state and the new session state. -/
  exec : (s : σ.Stmt) → D → L → Except σ.Exc (σ.Resp s) × D × L
  /-- `waits s d l m`: issued in the session `l`, `s` has to wait for the session `m`. -/
  waits : σ.Stmt → D → L → L → Prop
  /-- A closed, or not yet used, session. -/
  closed : L
  /-- How a killed process ends. -/
  crash : σ.Exc

variable {σ : Sig} {D L α β ι : Type}

namespace Machine

variable (M : Machine σ D L)

/-- The shared state after a statement. -/
abbrev after (s : σ.Stmt) (d : D) (l : L) : D := (M.exec s d l).2.1

/-- The session after a statement. -/
abbrev session (s : σ.Stmt) (d : D) (l : L) : L := (M.exec s d l).2.2

/-! ### A program alone -/

/-- The program run to its end with nothing else running. -/
def run : Prog σ α → D → L → Except σ.Exc α × D × L
  | .ret a, d, l => (.ok a, d, l)
  | .raise e, d, l => (.error e, d, l)
  | .call s k, d, l => run (k (M.exec s d l).1) (M.after s d l) (M.session s d l)

/-- One request, served in a session of its own. -/
def serve (p : Prog σ α) (d : D) : Except σ.Exc α × D :=
  ((M.run p d M.closed).1, (M.run p d M.closed).2.1)

@[simp] theorem run_ret (a : α) (d : D) (l : L) : M.run (.ret a) d l = (.ok a, d, l) := rfl

@[simp] theorem run_raise (e : σ.Exc) (d : D) (l : L) :
    M.run (.raise e : Prog σ α) d l = (.error e, d, l) := rfl

theorem run_call (s : σ.Stmt) (k : Except σ.Exc (σ.Resp s) → Prog σ α) (d : D) (l : L) :
    M.run (.call s k) d l = M.run (k (M.exec s d l).1) (M.after s d l) (M.session s d l) := rfl

/-- A first part that returns hands its session over to the second. -/
theorem run_bind_ok {p : Prog σ α} {f : α → Prog σ β} {d d' : D} {l l' : L} {a : α}
    (h : M.run p d l = (.ok a, d', l')) : M.run (p >>= f) d l = M.run (f a) d' l' := by
  induction p generalizing d l with
  | ret a => cases h; rfl
  | raise e => cases h
  | call s k ih => exact ih _ h

/-- A first part that raises skips the second. -/
theorem run_bind_error {p : Prog σ α} {f : α → Prog σ β} {d d' : D} {l l' : L} {e : σ.Exc}
    (h : M.run p d l = (.error e, d', l')) : M.run (p >>= f) d l = (.error e, d', l') := by
  induction p generalizing d l with
  | ret a => cases h
  | raise e => cases h; rfl
  | call s k ih => exact ih _ h

/-- What returns has had its first part return. -/
theorem run_bind_inv {p : Prog σ α} {f : α → Prog σ β} {d d' : D} {l l' : L} {b : β}
    (h : M.run (p >>= f) d l = (.ok b, d', l')) :
    ∃ a d₁ l₁, M.run p d l = (.ok a, d₁, l₁) ∧ M.run (f a) d₁ l₁ = (.ok b, d', l') := by
  induction p generalizing d l with
  | ret a => exact ⟨a, d, l, rfl, h⟩
  | raise e => cases h
  | call s k ih => exact ih _ h

theorem run_exec (s : σ.Stmt) (d : D) (l : L) : M.run (Prog.exec s) d l = M.exec s d l := by
  change M.run (Prog.ofExcept (M.exec s d l).1) (M.exec s d l).2.1 (M.exec s d l).2.2 = _
  obtain ⟨r, d', l'⟩ := M.exec s d l
  cases r <;> rfl

/-- A program that hands its exceptions on as others. -/
theorem run_tryCatch_throw (p : Prog σ α) (f : σ.Exc → σ.Exc) (d : D) (l : L) :
    M.run (p.tryCatch fun e => .raise (f e)) d l = ((M.run p d l).1.mapError f, (M.run p d l).2) := by
  induction p generalizing d l with
  | ret a => rfl
  | raise e => rfl
  | call s k ih => exact ih _ _ _

/-- The exceptions of a run. -/
theorem run_raises {S E : σ.Exc → Prop} {p : Prog σ α} {d : D} {l : L} {e : σ.Exc}
    (hexec : ∀ s d l e, (M.exec s d l).1 = .error e → S e) (h : p.Raises S E)
    (he : (M.run p d l).1 = .error e) : E e := by
  induction p generalizing d l with
  | ret a => cases he
  | raise e' =>
    cases he
    exact h
  | call s k ih =>
    refine ih _ ?_ he
    cases hr : (M.exec s d l).1 with
    | ok a => exact h.1 a
    | error e' => exact h.2 e' (hexec s d l e' hr)

/-- The statements the program issues until it ends, with nothing else running. -/
def trace : Prog σ α → D → L → List σ.Stmt
  | .ret _, _, _ => []
  | .raise _, _, _ => []
  | .call s k, d, l => s :: trace (k (M.exec s d l).1) (M.after s d l) (M.session s d l)

/-- Only what is returned changes. -/
theorem run_map (p : Prog σ α) (f : α → β) (d : D) (l : L) :
    M.run (p >>= fun a => .ret (f a)) d l = ((M.run p d l).1.map f, (M.run p d l).2) := by
  induction p generalizing d l with
  | ret a => rfl
  | raise e => rfl
  | call s k ih => exact ih _ _ _

theorem trace_map (p : Prog σ α) (f : α → β) (d : D) (l : L) :
    M.trace (p >>= fun a => .ret (f a)) d l = M.trace p d l := by
  induction p generalizing d l with
  | ret a => rfl
  | raise e => rfl
  | call s k ih => exact congrArg (s :: ·) (ih _ _ _)

/-- Requests served one after another. -/
def serial (p : ι → Prog σ α) : List ι → D → List (ι × Except σ.Exc α) × D
  | [], d => ([], d)
  | i :: is, d =>
    ((i, (M.serve (p i) d).1) :: (serial p is (M.serve (p i) d).2).1,
      (serial p is (M.serve (p i) d).2).2)

theorem serial_append (p : ι → Prog σ α) (is js : List ι) (d : D) :
    M.serial p (is ++ js) d =
      ((M.serial p is d).1 ++ (M.serial p js (M.serial p is d).2).1,
        (M.serial p js (M.serial p is d).2).2) := by
  induction is generalizing d with
  | nil => rfl
  | cons i is ih => simp only [List.cons_append, serial, ih]

end Machine

/-! ### A pool of programs -/

/-- A process: what it still has to do, and its session. -/
structure Proc (σ : Sig) (L α : Type) where
  prog : Prog σ α
  loc : L

/-- The shared state and every process. -/
structure Config (σ : Sig) (D L ι α : Type) where
  shared : D
  procs : ι → Proc σ L α

/-- What can happen next: a process fires its next statement, or is killed. -/
inductive Move (ι : Type)
  | fire (i : ι)
  | kill (i : ι)

namespace Machine

variable (M : Machine σ D L)

/-- A process goes on with `p`; if it has ended, its session is closed. -/
def proceed (p : Prog σ α) (l : L) : Proc σ L α := ⟨p, if p.Done then M.closed else l⟩

@[simp] theorem proceed_prog (p : Prog σ α) (l : L) : (M.proceed p l).prog = p := rfl

theorem proceed_loc (p : Prog σ α) (l : L) :
    (M.proceed p l).loc = M.closed ∨ (M.proceed p l).loc = l := by
  unfold proceed; dsimp only; split_ifs <;> simp

/-- Every program before its first statement. -/
def start (d : D) (p : ι → Prog σ α) : Config σ D L ι α := ⟨d, fun i => ⟨p i, M.closed⟩⟩

variable [DecidableEq ι]

/-- Process `i` fires its next statement. -/
def fire (c : Config σ D L ι α) (i : ι) : Config σ D L ι α :=
  match (c.procs i).prog with
  | .call s k =>
    { shared := M.after s c.shared (c.procs i).loc
      procs := Function.update c.procs i
        (M.proceed (k (M.exec s c.shared (c.procs i).loc).1)
          (M.session s c.shared (c.procs i).loc)) }
  | _ => c

/-- Process `i` dies; its session is closed. -/
def kill (c : Config σ D L ι α) (i : ι) : Config σ D L ι α :=
  { c with procs := Function.update c.procs i ⟨.raise M.crash, M.closed⟩ }

/-- Process `i` has a next statement, and it does not have to wait. -/
def Enabled (c : Config σ D L ι α) (i : ι) : Prop :=
  ∃ s k, (c.procs i).prog = .call s k ∧
    ∀ j, j ≠ i → ¬ M.waits s c.shared (c.procs i).loc (c.procs j).loc

/-- One step of the pool. -/
inductive Step (c : Config σ D L ι α) : Move ι → Config σ D L ι α → Prop
  | fire {i} (h : M.Enabled c i) : Step c (.fire i) (M.fire c i)
  | kill {i} (h : ¬ (c.procs i).prog.Done) : Step c (.kill i) (M.kill c i)

/-- A run of the pool in which every move is taken in a configuration that allows it. -/
def Run (P : Config σ D L ι α → Move ι → Prop) : Config σ D L ι α → Config σ D L ι α → Prop :=
  Relation.ReflTransGen fun c c' => ∃ m, P c m ∧ M.Step c m c'

variable {M} {c c' : Config σ D L ι α} {i j : ι} {P : Config σ D L ι α → Move ι → Prop}

theorem fire_call {s : σ.Stmt} {k : Except σ.Exc (σ.Resp s) → Prog σ α}
    (h : (c.procs i).prog = .call s k) :
    M.fire c i =
      { shared := M.after s c.shared (c.procs i).loc
        procs := Function.update c.procs i
          (M.proceed (k (M.exec s c.shared (c.procs i).loc).1)
            (M.session s c.shared (c.procs i).loc)) } := by
  unfold fire; rw [h]

/-- The other processes stay. -/
theorem fire_of_ne (h : j ≠ i) : (M.fire c i).procs j = c.procs j := by
  unfold fire
  split
  · exact Function.update_of_ne h _ _
  · rfl

/-- A process that has ended does nothing. -/
theorem fire_done (h : (c.procs i).prog.Done) : M.fire c i = c := by
  unfold fire
  split
  · rename_i hp
    rw [hp] at h
    exact absurd h (Prog.not_done_call _ _)
  · rfl

/-- What the process goes on with. -/
theorem fire_self {s : σ.Stmt} {k : Except σ.Exc (σ.Resp s) → Prog σ α}
    (h : (c.procs i).prog = .call s k) :
    ((M.fire c i).procs i).prog = k (M.exec s c.shared (c.procs i).loc).1 := by
  rw [fire_call h]
  simp only [Function.update_self, proceed_prog]

/-- What holds at the start and is kept by every allowed step holds in every state reached. -/
theorem Run.invariant {c₀ : Config σ D L ι α} (I : Config σ D L ι α → Prop) (h₀ : I c₀)
    (hstep : ∀ c m c', I c → P c m → M.Step c m c' → I c') (h : M.Run P c₀ c) : I c := by
  induction h with
  | refl => exact h₀
  | tail _ hs ih =>
    obtain ⟨m, hP, hs⟩ := hs
    exact hstep _ m _ ih hP hs

/-- A run under more conditions than asked for. -/
theorem Run.mono {Q : Config σ D L ι α → Move ι → Prop} (hPQ : ∀ c m, P c m → Q c m)
    (h : M.Run P c c') : M.Run Q c c' :=
  Relation.ReflTransGen.mono (fun _ _ ⟨m, hP, hs⟩ => ⟨m, hPQ _ m hP, hs⟩) c c' h

/-- The processes of a schedule fire one after another. -/
def fireAll (M : Machine σ D L) (is : List ι) (c : Config σ D L ι α) : Config σ D L ι α :=
  is.foldl M.fire c

/-- Each of them may. -/
def Allowed (M : Machine σ D L) (P : Config σ D L ι α → Move ι → Prop) :
    List ι → Config σ D L ι α → Prop
  | [], _ => True
  | i :: is, c => P c (.fire i) ∧ M.Enabled c i ∧ Allowed M P is (M.fire c i)

theorem run_fireAll {is : List ι} (h : Allowed M P is c) : M.Run P c (M.fireAll is c) := by
  induction is generalizing c with
  | nil => exact .refl
  | cons i is ih => exact .head ⟨.fire i, h.1, .fire h.2.1⟩ (ih h.2.2)

instance decidableEnabled [∀ s d l m, Decidable (M.waits s d l m)] [Fintype ι]
    (c : Config σ D L ι α) (i : ι) : Decidable (M.Enabled c i) :=
  match h : (c.procs i).prog with
  | .call s k =>
    decidable_of_iff (∀ j, j ≠ i → ¬ M.waits s c.shared (c.procs i).loc (c.procs j).loc)
      ⟨fun hw => ⟨s, k, h, hw⟩, fun ⟨s', k', h', hw⟩ => by
        rw [h] at h'
        cases h'
        exact hw⟩
  | .ret a => isFalse fun ⟨s, k, h', _⟩ => by rw [h] at h'; cases h'
  | .raise e => isFalse fun ⟨s, k, h', _⟩ => by rw [h] at h'; cases h'

instance decidableAllowed [∀ s d l m, Decidable (M.waits s d l m)] [Fintype ι]
    [∀ c m, Decidable (P c m)] :
    (is : List ι) → (c : Config σ D L ι α) → Decidable (Allowed M P is c)
  | [], _ => isTrue trivial
  | i :: is, c =>
    have := decidableAllowed is (M.fire c i)
    inferInstanceAs (Decidable (P c (.fire i) ∧ M.Enabled c i ∧ Allowed M P is (M.fire c i)))

/-- A process that has ended holds no session. -/
def Settled (M : Machine σ D L) (c : Config σ D L ι α) : Prop :=
  ∀ i, (c.procs i).prog.Done → (c.procs i).loc = M.closed

theorem Step.settled {m : Move ι} (hs : M.Step c m c') (h : Settled M c) : Settled M c' := by
  intro j hj
  cases hs with
  | @fire i he =>
    obtain ⟨s, k, hp, -⟩ := he
    rw [fire_call hp] at hj ⊢
    by_cases hji : j = i
    · subst hji
      simp only [Function.update_self, proceed_prog] at hj ⊢
      simp [proceed, hj]
    · simp only [Function.update_of_ne hji] at hj ⊢
      exact h j hj
  | @kill i hd =>
    by_cases hji : j = i
    · subst hji; simp [Machine.kill]
    · simp only [Machine.kill, Function.update_of_ne hji] at hj ⊢
      exact h j hj

end Machine

/-- Two processes, for runs that are given move by move. -/
inductive Two
  | first
  | second
  deriving DecidableEq

instance : Fintype Two := ⟨{Two.first, Two.second}, fun i => by cases i <;> decide⟩

/-! ### What the machine keeps between sessions -/

/-- `Own d l` holds of every session of a pool and `Apart l m` of every two, whatever the programs:
a closed session has both, and a statement that does not have to wait keeps both. -/
structure Isolation (M : Machine σ D L) where
  Own : D → L → Prop
  Apart : L → L → Prop
  own_closed : ∀ d, Own d M.closed
  apart_closed : ∀ l, Apart M.closed l
  apart_symm : ∀ {l m}, Apart l m → Apart m l
  own_exec : ∀ {s d l}, Own d l → Own (M.after s d l) (M.session s d l)
  own_other : ∀ {s d l m}, Own d l → Own d m → Apart l m → ¬ M.waits s d l m →
    Own (M.after s d l) m
  apart_exec : ∀ {s d l m}, Own d l → Own d m → Apart l m → ¬ M.waits s d l m →
    Apart (M.session s d l) m

namespace Isolation

variable {M : Machine σ D L} (I : Isolation M)

/-- Every session of the configuration is its own, and every two are apart. -/
structure Pool (c : Config σ D L ι α) : Prop where
  own : ∀ i, I.Own c.shared (c.procs i).loc
  apart : ∀ i j, i ≠ j → I.Apart (c.procs i).loc (c.procs j).loc

theorem pool_start (d : D) (p : ι → Prog σ α) : I.Pool (M.start d p) :=
  ⟨fun _ => I.own_closed d, fun _ _ _ => I.apart_closed _⟩

theorem own_proceed {d : D} {l : L} (p : Prog σ α) (h : I.Own d l) :
    I.Own d (M.proceed p l).loc := by
  rcases M.proceed_loc p l with e | e <;> rw [e]
  · exact I.own_closed d
  · exact h

theorem apart_proceed {l m : L} (p : Prog σ α) (h : I.Apart l m) :
    I.Apart (M.proceed p l).loc m := by
  rcases M.proceed_loc p l with e | e <;> rw [e]
  · exact I.apart_closed m
  · exact h

variable [DecidableEq ι] {c c' : Config σ D L ι α}

theorem pool_step {m : Move ι} (h : I.Pool c) (hs : M.Step c m c') : I.Pool c' := by
  cases hs with
  | @fire i he =>
    obtain ⟨s, k, hp, hw⟩ := he
    rw [Machine.fire_call hp]
    have hrest : ∀ j, j ≠ i → I.Apart (M.proceed (k (M.exec s c.shared (c.procs i).loc).1)
        (M.session s c.shared (c.procs i).loc)).loc (c.procs j).loc := fun j hj =>
      I.apart_proceed _ (I.apart_exec (h.own i) (h.own j) (h.apart i j hj.symm) (hw j hj))
    refine ⟨fun j => ?_, fun j j' hne => ?_⟩
    · by_cases hj : j = i
      · subst hj
        simp only [Function.update_self]
        exact I.own_proceed _ (I.own_exec (h.own j))
      · simp only [Function.update_of_ne hj]
        exact I.own_other (h.own i) (h.own j) (h.apart i j (Ne.symm hj)) (hw j hj)
    · by_cases hj : j = i
      · subst hj
        simp only [Function.update_self, Function.update_of_ne hne.symm]
        exact hrest j' hne.symm
      · by_cases hj' : j' = i
        · subst hj'
          simp only [Function.update_self, Function.update_of_ne hj]
          exact I.apart_symm (hrest j hj)
        · simp only [Function.update_of_ne hj, Function.update_of_ne hj']
          exact h.apart j j' hne
  | @kill i hd =>
    refine ⟨fun j => ?_, fun j j' hne => ?_⟩
    · by_cases hj : j = i
      · subst hj; simpa [Machine.kill] using I.own_closed c.shared
      · simpa [Machine.kill, Function.update_of_ne hj] using h.own j
    · by_cases hj : j = i
      · subst hj; simpa [Machine.kill] using I.apart_closed _
      · by_cases hj' : j' = i
        · subst hj'
          simpa [Machine.kill, Function.update_of_ne hj] using I.apart_symm (I.apart_closed _)
        · simpa [Machine.kill, Function.update_of_ne hj, Function.update_of_ne hj']
            using h.apart j j' hne

end Isolation

end PaymentGateway.Lib.Sessions
