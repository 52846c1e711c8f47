import PaymentGateway.Db.Statements

/-! # Reconciliation

`_reconcile_stuck_intents_async` selects at most 500 of the intents that are stuck in PROCESSING,
and logs a warning for each. The SELECT has no ORDER BY: which rows it returns is up to the
database, which comes upon the rows in some `Order`. -/

namespace PaymentGateway.Workers.Reconciliation

open PaymentGateway.Core.Ids PaymentGateway.Models PaymentGateway.Lib.Program
open PaymentGateway.Lib.Sessions PaymentGateway.Db.Statements

/-- An arrangement of the rows of every table. -/
structure Order (α : Type) where
  arrange : List α → List α
  perm : ∀ rows, (arrange rows).Perm rows

/-- The database with the column `updated_at` of the intents; their `id` is a primary key. -/
structure Store where
  db : Db
  updatedAt : UUID → ℚ
  unique : (db.intents.map PaymentIntent.id).Nodup

/-- `intent_id` and `order_id` -/
abbrev Row := UUID × String

/-- The database and the warnings `intent_stuck_in_processing`. -/
structure World where
  store : Store
  warnings : List Row

/-- What the task does with the session and the logger. -/
inductive Query
  /-- `select(PaymentIntent.id, PaymentIntent.public_id)` of the stuck intents, `.limit(…)` -/
  | selectStuck (threshold : ℚ) (limit : ℕ)
  /-- `logger.warning("intent_stuck_in_processing", …)` -/
  | warning (row : Row)

@[reducible]
def Query.Resp : Query → Type
  | .selectStuck _ _ => List Row
  | .warning _ => Unit

abbrev reading : Sig := ⟨Query, Query.Resp, Exc⟩

/-- The intents in PROCESSING with `updated_at` before the threshold. -/
def stuckIntents (threshold : ℚ) (s : Store) : List Row :=
  (s.db.intents.filter fun i => i.status = .processing ∧ s.updatedAt i.id < threshold).map
    fun i => (i.id, i.publicId)

def perform (order : Order Row) : (q : Query) → World → Unit → Except Exc q.Resp × World × Unit
  | .selectStuck threshold limit, w, l =>
    (.ok ((order.arrange (stuckIntents threshold w.store)).take limit), w, l)
  | .warning row, w, l => (.ok (), { w with warnings := w.warnings ++ [row] }, l)

/-- A worker that reads the database. -/
def worker (order : Order Row) : Machine reading World Unit where
  exec := perform order
  waits _ _ _ _ := False
  closed := ()
  crash := .crash

/-! ### The task -/

def ask (q : Query) : Prog reading q.Resp := @Prog.exec reading q

def warnAll : List Row → Prog reading Unit
  | [] => return ()
  | row :: rows => do
    ask (.warning row)
    warnAll rows

/-- `_reconcile_stuck_intents_async` -/
def reconcileStuckIntentsAsync (now : ℚ) : Prog reading (List UUID) := do
  let threshold := now - 3600
  let rows ← ask (.selectStuck threshold 500)
  warnAll rows
  return rows.map Prod.fst

/-- `reconcile_stuck_intents`: the number of the flagged intents. -/
def reconcileStuckIntents (now : ℚ) : Prog reading ℕ := do
  let flagged ← reconcileStuckIntentsAsync now
  return flagged.length

/-! ### A sweep -/

variable {order : Order Row} {w : World}

theorem run_warnAll (rows : List Row) :
    (worker order).run (warnAll rows) w () =
      (.ok (), { w with warnings := w.warnings ++ rows }, ()) := by
  induction rows generalizing w with
  | nil =>
    rw [List.append_nil]
    rfl
  | cons row rows ih =>
    have hrest := ih (w := { w with warnings := w.warnings ++ [row] })
    rw [List.append_assoc, List.singleton_append] at hrest
    exact hrest

/-- The rows that a sweep flags. -/
def selected (order : Order Row) (now : ℚ) (s : Store) : List Row :=
  (order.arrange (stuckIntents (now - 3600) s)).take 500

/-- **A sweep** logs what it has selected, and does nothing else. -/
theorem serve_reconcileStuckIntents (order : Order Row) (now : ℚ) (w : World) :
    (worker order).serve (reconcileStuckIntents now) w =
      (.ok (selected order now w.store).length,
        { w with warnings := w.warnings ++ selected order now w.store }) := by
  have hrun : (worker order).run (reconcileStuckIntentsAsync now) w () =
      (.ok ((selected order now w.store).map Prod.fst),
        { w with warnings := w.warnings ++ selected order now w.store }, ()) :=
    (worker order).run_bind_ok (run_warnAll (selected order now w.store))
  have hcount : (worker order).run (reconcileStuckIntents now) w () =
      (.ok (selected order now w.store).length,
        { w with warnings := w.warnings ++ selected order now w.store }, ()) := by
    refine ((worker order).run_map _ List.length w ()).trans ?_
    rw [hrun]
    change (Except.ok ((selected order now w.store).map Prod.fst).length, _, _) = _
    rw [List.length_map]
  exact congrArg (fun r => (r.1, r.2.1)) hcount

end PaymentGateway.Workers.Reconciliation
