import Mathlib.Logic.Relation

/-! # Programs over statements

A client of a shared store is a program: it issues statements one at a time, and what it does next
depends on the response. A response may be an exception, which the program may catch. `Prog σ α`
is the tree of such a program; `bind` and `tryCatch` are its sequencing and its `try … except …`.

The signature `Sig` says which statements there are, the type of the response to each, and the
exceptions. Nothing here says what a statement does: that is a `Machine` (`Lib.Sessions`).

A client of several stores runs programs of each: `lift` takes a program over one signature to a
larger one.

`Quiet`, `Once` and `OneShot` say where on its paths a program issues statements of a given kind,
`Follows` what it issues after what, `Raises` which exceptions it ends with. -/

namespace PaymentGateway.Lib.Program

/-- The statements a program may issue, the response to each, and the exceptions. -/
structure Sig where
  Stmt : Type
  Resp : Stmt → Type
  Exc : Type

/-- A program that ends with a value of `α` or with an exception. -/
inductive Prog (σ : Sig) (α : Type) : Type where
  | ret (a : α)
  | raise (e : σ.Exc)
  | call (s : σ.Stmt) (k : Except σ.Exc (σ.Resp s) → Prog σ α)

/-- The statements of `σ` among those of `τ`. -/
structure Inclusion (σ τ : Sig) where
  stmt : σ.Stmt → τ.Stmt
  resp : ∀ s, Except τ.Exc (τ.Resp (stmt s)) → Except σ.Exc (σ.Resp s)
  exc : σ.Exc → τ.Exc

/-- All of them. -/
def Inclusion.whole (σ : Sig) : Inclusion σ σ := ⟨id, fun _ r => r, id⟩

namespace Prog

variable {σ : Sig} {α β γ : Type}

/-- Sequencing: an exception of the first part skips the second. -/
def bind : Prog σ α → (α → Prog σ β) → Prog σ β
  | .ret a, f => f a
  | .raise e, _ => .raise e
  | .call s k, f => .call s fun r => (k r).bind f

/-- `try p except e: h e`. -/
def tryCatch : Prog σ α → (σ.Exc → Prog σ α) → Prog σ α
  | .ret a, _ => .ret a
  | .raise e, h => h e
  | .call s k, h => .call s fun r => (k r).tryCatch h

instance : Monad (Prog σ) where
  pure := .ret
  bind := bind

instance : MonadExceptOf σ.Exc (Prog σ) where
  throw := .raise
  tryCatch := tryCatch

/-- A value or an exception computed without a statement. -/
def ofExcept : Except σ.Exc α → Prog σ α
  | .ok a => .ret a
  | .error e => .raise e

/-- One statement; an exception in the response is raised. -/
def exec (s : σ.Stmt) : Prog σ (σ.Resp s) := .call s ofExcept

@[simp] theorem pure_eq (a : α) : (pure a : Prog σ α) = .ret a := rfl

@[simp] theorem throw_eq (e : σ.Exc) : (throw e : Prog σ α) = .raise e := rfl

@[simp] theorem ret_bind (a : α) (f : α → Prog σ β) : ((.ret a : Prog σ α) >>= f) = f a := rfl

@[simp] theorem raise_bind (e : σ.Exc) (f : α → Prog σ β) :
    ((.raise e : Prog σ α) >>= f) = .raise e := rfl

@[simp] theorem call_bind (s : σ.Stmt) (k : Except σ.Exc (σ.Resp s) → Prog σ α) (f : α → Prog σ β) :
    ((.call s k : Prog σ α) >>= f) = .call s fun r => k r >>= f := rfl

@[simp] theorem ofExcept_ok (a : α) : (ofExcept (.ok a) : Prog σ α) = .ret a := rfl

@[simp] theorem ofExcept_error (e : σ.Exc) : (ofExcept (.error e) : Prog σ α) = .raise e := rfl

theorem bind_assoc (p : Prog σ α) (f : α → Prog σ β) (g : β → Prog σ γ) :
    (p >>= f) >>= g = p >>= fun a => f a >>= g := by
  induction p with
  | ret a => rfl
  | raise e => rfl
  | call s k ih => exact congrArg (Prog.call s) (funext fun r => ih r)

theorem bind_ret (p : Prog σ α) : p >>= .ret = p := by
  induction p with
  | ret a => rfl
  | raise e => rfl
  | call s k ih => exact congrArg (Prog.call s) (funext fun r => ih r)

/-- The program has ended. -/
def Done : Prog σ α → Prop
  | .call _ _ => False
  | _ => True

instance : DecidablePred (Done (σ := σ) (α := α)) := fun p =>
  match p with
  | .ret _ => isTrue trivial
  | .raise _ => isTrue trivial
  | .call _ _ => isFalse id

/-- How a program ended, if it has. -/
def result? : Prog σ α → Option (Except σ.Exc α)
  | .ret a => some (.ok a)
  | .raise e => some (.error e)
  | .call _ _ => none

@[simp] theorem done_ret (a : α) : (.ret a : Prog σ α).Done := trivial

@[simp] theorem done_raise (e : σ.Exc) : (.raise e : Prog σ α).Done := trivial

@[simp] theorem not_done_call (s : σ.Stmt) (k : Except σ.Exc (σ.Resp s) → Prog σ α) :
    ¬ (.call s k : Prog σ α).Done := id

theorem Done.result {p : Prog σ α} (h : p.Done) : ∃ r, p.result? = some r := by
  cases p with
  | ret a => exact ⟨_, rfl⟩
  | raise e => exact ⟨_, rfl⟩
  | call s k => exact absurd h id

theorem eq_call_of_not_done {p : Prog σ α} (h : ¬ p.Done) : ∃ s k, p = .call s k := by
  cases p with
  | call s k => exact ⟨s, k, rfl⟩
  | _ => exact absurd trivial h

theorem eq_ret_of_result {p : Prog σ α} {a : α} (h : p.result? = some (.ok a)) : p = .ret a := by
  cases p with
  | ret a' => cases h; rfl
  | raise e => cases h
  | call s k => cases h

theorem done_of_result {p : Prog σ α} {r : Except σ.Exc α} (h : p.result? = some r) : p.Done := by
  cases p with
  | call s k => cases h
  | _ => trivial

/-! ### Programs over a larger signature -/

/-- A program over `σ` as one over `τ`. -/
def lift {τ : Sig} (h : Inclusion σ τ) : Prog σ α → Prog τ α
  | .ret a => .ret a
  | .raise e => .raise (h.exc e)
  | .call s k => .call (h.stmt s) fun r => (k (h.resp s r)).lift h

theorem lift_bind {τ : Sig} (h : Inclusion σ τ) (p : Prog σ α) (f : α → Prog σ β) :
    (p >>= f).lift h = p.lift h >>= fun a => (f a).lift h := by
  induction p with
  | ret a => rfl
  | raise e => rfl
  | call s k ih => exact congrArg (Prog.call (h.stmt s)) (funext fun r => ih (h.resp s r))

theorem lift_whole (p : Prog σ α) : p.lift (Inclusion.whole σ) = p := by
  induction p with
  | ret a => rfl
  | raise e => rfl
  | call s k ih => exact congrArg (Prog.call s) (funext fun r => ih r)

/-! ### Shapes of programs -/

/-- No statement of the kind `c`. -/
def Quiet (c : σ.Stmt → Prop) : Prog σ α → Prop
  | .ret _ => True
  | .raise _ => True
  | .call s k => ¬ c s ∧ ∀ r, Quiet c (k r)

/-- At most one statement of the kind `c` on every path. -/
def Once (c : σ.Stmt → Prop) : Prog σ α → Prop
  | .ret _ => True
  | .raise _ => True
  | .call s k => (¬ c s ∧ ∀ r, Once c (k r)) ∨ ∀ r, Quiet c (k r)

/-- Statements that are not of the kind `c`, then at most one that is, and nothing after it. -/
def OneShot (c : σ.Stmt → Prop) : Prog σ α → Prop
  | .ret _ => True
  | .raise _ => True
  | .call s k => (c s ∧ ∀ r, (k r).Done) ∨ (¬ c s ∧ ∀ r, OneShot c (k r))

section Shapes

variable {c c' : σ.Stmt → Prop} {p : Prog σ α} {f : α → Prog σ β}

theorem Done.quiet (h : p.Done) : Quiet c p := by
  cases p with
  | call s k => exact absurd h id
  | ret a => trivial
  | raise e => trivial

theorem quiet_ofExcept {r : Except σ.Exc α} : Quiet c (ofExcept r) := by
  cases r <;> trivial

theorem quiet_exec {s : σ.Stmt} (hs : ¬ c s) : Quiet c (exec s) := ⟨hs, fun _ => quiet_ofExcept⟩

theorem Quiet.bind (hp : Quiet c p) (hf : ∀ a, Quiet c (f a)) : Quiet c (p >>= f) := by
  induction p with
  | ret a => exact hf a
  | raise e => trivial
  | call s k ih => exact ⟨hp.1, fun r => ih r (hp.2 r)⟩

theorem Quiet.tryCatch {h : σ.Exc → Prog σ α} (hp : Quiet c p) (hh : ∀ e, Quiet c (h e)) :
    Quiet c (p.tryCatch h) := by
  induction p with
  | ret a => trivial
  | raise e => exact hh e
  | call s k ih => exact ⟨hp.1, fun r => ih r (hp.2 r)⟩

theorem Quiet.once (hp : Quiet c p) (hf : ∀ a, Once c (f a)) : Once c (p >>= f) := by
  induction p with
  | ret a => exact hf a
  | raise e => trivial
  | call s k ih => exact .inl ⟨hp.1, fun r => ih r (hp.2 r)⟩

theorem Once.quiet (hp : Once c p) (hf : ∀ a, Quiet c (f a)) : Once c (p >>= f) := by
  induction p with
  | ret a =>
    have := hf a
    change Once c (f a)
    generalize f a = q at this
    cases q with
    | ret b => trivial
    | raise e => trivial
    | call s k => exact .inr this.2
  | raise e => trivial
  | call s k ih =>
    rcases hp with ⟨hs, hk⟩ | hk
    · exact .inl ⟨hs, fun r => ih r (hk r)⟩
    · exact .inr fun r => (hk r).bind hf

theorem Quiet.oneShot (hp : Quiet c p) (hf : ∀ a, OneShot c (f a)) : OneShot c (p >>= f) := by
  induction p with
  | ret a => exact hf a
  | raise e => trivial
  | call s k ih => exact .inr ⟨hp.1, fun r => ih r (hp.2 r)⟩

/-- A one-shot program issues at most one statement of any kind of finishing statement. -/
theorem OneShot.once (hc : ∀ s, c' s → c s) (hp : OneShot c p) : Once c' p := by
  induction p with
  | ret a => trivial
  | raise e => trivial
  | call s k ih =>
    rcases hp with ⟨-, hk⟩ | ⟨hs, hk⟩
    · exact .inr fun r => (hk r).quiet
    · exact .inl ⟨fun h => hs (hc s h), fun r => ih r (hk r)⟩

end Shapes

/-- Each statement is `ok` after those in `past`, and an exception is not caught. -/
def Follows (ok : List σ.Stmt → σ.Stmt → Prop) : Prog σ α → List σ.Stmt → Prop
  | .ret _, _ => True
  | .raise _, _ => True
  | .call s k, past =>
    ok past s ∧ (∀ e, k (.error e) = .raise e) ∧ ∀ r, Follows ok (k r) (past ++ [s])

section Follows

variable {ok : List σ.Stmt → σ.Stmt → Prop} {p : Prog σ α} {f : α → Prog σ β} {past : List σ.Stmt}

theorem follows_ofExcept {r : Except σ.Exc α} : Follows ok (ofExcept r) past := by
  cases r <;> trivial

theorem follows_exec {s : σ.Stmt} (hs : ok past s) : Follows ok (exec s) past :=
  ⟨hs, fun _ => rfl, fun _ => follows_ofExcept⟩

theorem follows_exec_bind {s : σ.Stmt} {f : σ.Resp s → Prog σ β} (hs : ok past s)
    (hf : ∀ a, Follows ok (f a) (past ++ [s])) : Follows ok (exec s >>= f) past := by
  refine ⟨hs, fun _ => rfl, fun r => ?_⟩
  cases r with
  | ok a => exact hf a
  | error e => trivial

theorem Follows.bind (hp : Follows ok p past)
    (hf : ∀ a past', past ⊆ past' → Follows ok (f a) past') : Follows ok (p >>= f) past := by
  induction p generalizing past with
  | ret a => exact hf a past (List.Subset.refl past)
  | raise e => trivial
  | call s k ih =>
    refine ⟨hp.1, fun e => ?_, fun r => ih r (hp.2.2 r) fun a past' h =>
      hf a past' fun _ hx => h (List.mem_append_left _ hx)⟩
    change (k (.error e) >>= f) = .raise e
    rw [hp.2.1 e]
    rfl

end Follows

/-- The program raises exceptions in `E` only, if its statements raise some in `S` only. -/
def Raises (S E : σ.Exc → Prop) : Prog σ α → Prop
  | .ret _ => True
  | .raise e => E e
  | .call _ k => (∀ a, Raises S E (k (.ok a))) ∧ ∀ e, S e → Raises S E (k (.error e))

section Raises

variable {S E : σ.Exc → Prop} {p : Prog σ α} {f : α → Prog σ β}

theorem raises_ofExcept {r : Except σ.Exc α} (h : ∀ e, r = .error e → E e) :
    Raises S E (ofExcept r) := by
  cases r with
  | ok a => trivial
  | error e => exact h e rfl

theorem raises_exec {s : σ.Stmt} (h : ∀ e, S e → E e) : Raises S E (exec s) :=
  ⟨fun _ => trivial, h⟩

theorem Raises.bind (hp : Raises S E p) (hf : ∀ a, Raises S E (f a)) : Raises S E (p >>= f) := by
  induction p with
  | ret a => exact hf a
  | raise e => exact hp
  | call s k ih => exact ⟨fun a => ih _ (hp.1 a), fun e he => ih _ (hp.2 e he)⟩

end Raises

end Prog

end PaymentGateway.Lib.Program
