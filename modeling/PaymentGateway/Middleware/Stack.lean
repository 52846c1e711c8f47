import PaymentGateway.Middleware.Idempotency
import PaymentGateway.Middleware.RateLimit

/-! # The stack of the middlewares

`create_app` puts the idempotency middleware around the rate limiter, and this around the routes:
the `call_next` of the one is the dispatch of the other. Each has a Redis of its own. The record
of an idempotency key may expire at any time; it does so as a task of its own. -/

namespace PaymentGateway.Middleware.Stack

open PaymentGateway.Lib.Program PaymentGateway.Lib.Sessions
open PaymentGateway.Middleware.Statements (Request Response Exc StoredState)
open PaymentGateway.Middleware.Idempotency
open PaymentGateway.Middleware.RateLimit (Arrival Counter)

/-! ### Both services -/

/-- The statements of both middlewares. -/
inductive Stmt (ι : Type)
  | idempotency (s : Statements.Stmt ι)
  | rateLimit (s : RateLimit.Stmt ι)

@[reducible]
def Stmt.Resp {ι : Type} : Stmt ι → Type
  | .idempotency s => s.Resp
  | .rateLimit s => s.Resp

abbrev redis (ι : Type) : Sig := ⟨Stmt ι, Stmt.Resp, Exc⟩

abbrev Async (ι : Type) := Prog (redis ι)

/-- `idempotency_redis()` and `ratelimit_redis()` -/
structure World (ι : Type) where
  idempotency : Statements.World ι
  rateLimit : RateLimit.World ι

variable {ι : Type}

/-- What a statement does, in the database it is issued to. -/
def exec : (s : Stmt ι) → World ι → Option String → Except Exc s.Resp × World ι × Option String
  | .idempotency s, w, l =>
    ((Statements.exec s w.idempotency l).1,
      { w with idempotency := (Statements.exec s w.idempotency l).2.1 },
      (Statements.exec s w.idempotency l).2.2)
  | .rateLimit s, w, l =>
    ((RateLimit.exec s w.rateLimit).1, { w with rateLimit := (RateLimit.exec s w.rateLimit).2 }, l)

def server : Machine (redis ι) (World ι) (Option String) where
  exec := exec
  waits _ _ _ _ := False
  closed := none
  crash := .cancelled

instance (s : Stmt ι) (w : World ι) (l m : Option String) : Decidable (server.waits s w l m) :=
  isFalse id

def idempotency : Inclusion (Statements.redis ι) (redis ι) := ⟨.idempotency, fun _ r => r, id⟩

def rateLimit : Inclusion (RateLimit.redis ι) (redis ι) := ⟨.rateLimit, fun _ r => r, id⟩

/-! ### One middleware around another -/

/-- `IdempotencyMiddleware.dispatch`, around any `call_next`. -/
def around {σ : Sig} (h : Inclusion (Statements.redis ι) σ) (request : Request)
    (callNext : Prog σ Response) : Prog σ Response :=
  match redisKey request with
  | none => callNext
  | some key => do
    let reserved ← (Statements.await (.setNx key (reservation request))).lift h
    if reserved then do
      (Statements.await (.setXx key inProgress)).lift h
      let response ← callNext
      (finish key response).lift h
    else (answerDuplicate key).lift h

/-- Alone, it is around the start and the end of the handler. -/
theorem dispatch_eq (i : ι) (request : Request) (outcome : Except Exc Response) :
    Idempotency.dispatch i request outcome =
      around (Inclusion.whole _) request (Idempotency.callNext i outcome) := by
  unfold Idempotency.dispatch around
  cases redisKey request with
  | none => rfl
  | some key => simp only [Prog.lift_whole, handle]

def dispatch (i : ι) (a : Arrival) : Async ι Response :=
  around idempotency a.request ((RateLimit.dispatch i a).lift rateLimit)

/-! ### Tasks -/

/-- A request, or the end of the time to live of a record. -/
inductive Task
  | request (a : Arrival)
  | expiry (key : String)

/-- The Redis key of a request. -/
def Task.key : Task → Option String
  | request a => redisKey a.request
  | expiry _ => none

/-- The record of a key is gone. -/
def expire (key : String) : Async ι Response := do
  (Statements.await (.delete key)).lift idempotency
  throw .cancelled

def Task.run (i : ι) : Task → Async ι Response
  | request a => dispatch i a
  | expiry key => expire key

/-- The tasks before their first statement, no record, and any counters. -/
def pool (ts : ι → Task) (counters : String → Option Counter) :
    Config (redis ι) (World ι) (Option String) ι Response :=
  server.start ⟨⟨fun _ => none, []⟩, ⟨0, counters, []⟩⟩ fun i => (ts i).run i

end PaymentGateway.Middleware.Stack
