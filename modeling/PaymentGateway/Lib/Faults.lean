import PaymentGateway.Lib.Sessions

/-! # Statements that are refused

A program is served alone, but the store may refuse some of its statements: the program then gets an
exception instead of a response, the shared state stays as it is, and the session is what the store
leaves of it. `faulty` is a machine that refuses as a plan in its session tells it to.

`Ends` is the weakest precondition of a program over all plans; `Ends.serve` is what it says about
the program, `ends_exec_bind` its rule for one statement. -/

namespace PaymentGateway.Lib.Faults

open PaymentGateway.Lib.Program PaymentGateway.Lib.Sessions

/-- Which statements may be refused, and what is left of the session of one that is. -/
structure Refusals (σ : Sig) (L : Type) where
  refusable : σ.Stmt → Bool
  abort : σ.Stmt → L → L

variable {σ : Sig} {D L α : Type}

/-- The exception the plan has for the next statement, if it may be refused. -/
def Refusals.next (F : Refusals σ L) (s : σ.Stmt) (plan : List (Option σ.Exc)) : Option σ.Exc :=
  if F.refusable s then plan.headD none else none

/-- The machine with a plan: its entries are used up statement by statement. -/
def faulty (M : Machine σ D L) (F : Refusals σ L) (plan : List (Option σ.Exc)) :
    Machine σ D (L × List (Option σ.Exc)) where
  exec s d l :=
    match F.next s l.2 with
    | some e => (.error e, d, F.abort s l.1, l.2.tail)
    | none => ((M.exec s d l.1).1, M.after s d l.1, M.session s d l.1, l.2.tail)
  waits s d l m := M.waits s d l.1 m.1
  closed := (M.closed, plan)
  crash := M.crash

variable {M : Machine σ D L} {F : Refusals σ L} {Q : Except σ.Exc α → D → L → Prop}

/-- **However statements are refused**, the program ends in `Q`. -/
def Ends (M : Machine σ D L) (F : Refusals σ L) (Q : Except σ.Exc α → D → L → Prop) :
    Prog σ α → D → L → Prop
  | .ret a, d, l => Q (.ok a) d l
  | .raise e, d, l => Q (.error e) d l
  | .call s k, d, l =>
    Ends M F Q (k (M.exec s d l).1) (M.after s d l) (M.session s d l) ∧
      (F.refusable s → ∀ e, Ends M F Q (k (.error e)) d (F.abort s l))

theorem Ends.run {p : Prog σ α} {d : D} {l : L} (h : Ends M F Q p d l)
    (plan rest : List (Option σ.Exc)) : ∃ r d' l' rest',
      (faulty M F plan).run p d (l, rest) = (r, d', l', rest') ∧ Q r d' l' := by
  induction p generalizing d l rest with
  | ret a => exact ⟨_, d, l, rest, rfl, h⟩
  | raise e => exact ⟨_, d, l, rest, rfl, h⟩
  | call s k ih =>
    rw [Machine.run_call]
    cases hn : F.next s rest with
    | none =>
      simp only [Machine.after, Machine.session, faulty, hn]
      exact ih _ h.1 _
    | some e =>
      have hs : F.refusable s := by
        unfold Refusals.next at hn
        split_ifs at hn with hs
        exact hs
      simp only [Machine.after, Machine.session, faulty, hn]
      exact ih _ (h.2 hs e) _

theorem Ends.serve {P : Except σ.Exc α → D → Prop} {p : Prog σ α} {d : D}
    (h : Ends M F (fun r d _ => P r d) p d M.closed) (plan : List (Option σ.Exc)) :
    P ((faulty M F plan).serve p d).1 ((faulty M F plan).serve p d).2 := by
  obtain ⟨r, d', l', rest, hrun, hP⟩ := h.run plan plan
  unfold Machine.serve
  rw [show (faulty M F plan).closed = (M.closed, plan) from rfl, hrun]
  exact hP

/-- **One statement**: it gives a response, raises by itself, or is refused. -/
theorem ends_exec_bind {s : σ.Stmt} {f : σ.Resp s → Prog σ α} {d : D} {l : L}
    (hok : ∀ a, (M.exec s d l).1 = .ok a → Ends M F Q (f a) (M.after s d l) (M.session s d l))
    (herr : ∀ e, (M.exec s d l).1 = .error e → Q (.error e) (M.after s d l) (M.session s d l))
    (hrefused : F.refusable s → ∀ e, Q (.error e) d (F.abort s l)) :
    Ends M F Q (Prog.exec s >>= f) d l := by
  refine ⟨?_, fun hs e => hrefused hs e⟩
  change Ends M F Q (Prog.ofExcept (M.exec s d l).1 >>= f) _ _
  cases hr : (M.exec s d l).1 with
  | ok a => exact hok a hr
  | error e => exact herr e hr

end PaymentGateway.Lib.Faults
