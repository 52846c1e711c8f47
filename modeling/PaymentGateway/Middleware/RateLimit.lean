import PaymentGateway.Lib.Json
import PaymentGateway.Lib.Utf8
import PaymentGateway.Middleware.Statements

/-! # The rate limiting middleware

`RateLimitMiddleware.dispatch` for the request `i`, and what it works with: the clock of Redis, and
counters that expire. An `Arrival` says what the clock shows when each statement of the request is
executed, in microseconds; the pipeline of `INCR` and `EXPIRE` is one statement. `events` records
the counting and the handlers. -/

namespace PaymentGateway.Middleware.RateLimit

open PaymentGateway.Lib.Program PaymentGateway.Lib.Sessions PaymentGateway.Lib.Json
open PaymentGateway.Lib.Utf8
open PaymentGateway.Middleware.Statements (Request Response Exc)

/-! ### The clock and the counters -/

/-- A counter and the time at which it is gone. -/
structure Counter where
  value : ℕ
  expiry : ℕ
  deriving DecidableEq

inductive Event (ι : Type)
  | counted (i : ι) (count : ℕ)
  | started (i : ι)
  | returned (i : ι) (response : Response)
  | raised (i : ι) (exc : Exc)
  deriving DecidableEq

/-- The request of an event. -/
def Event.of {ι : Type} : Event ι → ι
  | counted i _ => i
  | started i => i
  | returned i _ => i
  | raised i _ => i

/-- What Redis has, and what has happened so far. -/
structure World (ι : Type) where
  clock : ℕ
  counters : String → Option Counter
  events : List (Event ι)

/-- The statements of the request `i`. -/
inductive Stmt (ι : Type)
  /-- `redis.time()` -/
  | time (now : ℕ)
  /-- `pipe.incr(key)` and `pipe.expire(key, seconds)` -/
  | incr (i : ι) (key : String) (seconds now : ℕ)
  /-- `call_next(request)` -/
  | start (i : ι)
  /-- The end of `await call_next(request)`, by a response or an exception. -/
  | await (i : ι) (outcome : Except Exc Response)

/-- What a statement returns; the time is in seconds and microseconds. -/
@[reducible]
def Stmt.Resp {ι : Type} : Stmt ι → Type
  | .time _ => ℕ × ℕ
  | .incr _ _ _ _ => ℕ
  | .await _ _ => Response
  | _ => Unit

abbrev redis (ι : Type) : Sig := ⟨Stmt ι, Stmt.Resp, Exc⟩

abbrev Async (ι : Type) := Prog (redis ι)

variable {ι : Type}

/-- `await …` -/
def await (s : Stmt ι) : Async ι s.Resp := @Prog.exec (redis ι) s

/-- The value of a counter after `INCR`; one that is gone starts anew. -/
def next (counter : Option Counter) (now : ℕ) : ℕ :=
  match counter with
  | some c => if now < c.expiry then c.value + 1 else 1
  | none => 1

/-- What a statement does. -/
def exec : (s : Stmt ι) → World ι → Except Exc s.Resp × World ι
  | .time now, w => (.ok (now / 10 ^ 6, now % 10 ^ 6), { w with clock := now })
  | .incr i key seconds now, w =>
    (.ok (next (w.counters key) now),
      { clock := now
        counters := Function.update w.counters key
          (some ⟨next (w.counters key) now, now + seconds * 10 ^ 6⟩)
        events := w.events ++ [.counted i (next (w.counters key) now)] })
  | .start i, w => (.ok (), { w with events := w.events ++ [.started i] })
  | .await i (.ok response), w =>
    (.ok response, { w with events := w.events ++ [.returned i response] })
  | .await i (.error exc), w => (.error exc, { w with events := w.events ++ [.raised i exc] })

/-- Redis and the handlers as a machine; a request has no state of its own there. -/
def server : Machine (redis ι) (World ι) Unit where
  exec s w _ := ((exec s w).1, (exec s w).2, ())
  waits _ _ _ _ := False
  closed := ()
  crash := .cancelled

instance (s : Stmt ι) (w : World ι) (l m : Unit) : Decidable (server.waits s w l m) := isFalse id

/-! ### The middleware -/

/-- A request, when its statements are executed, and how its handler ends if it is called. -/
structure Arrival where
  request : Request
  /-- `request.client.host` -/
  client : Option String
  /-- The clock at `TIME`. -/
  readAt : ℕ
  /-- The clock at the pipeline. -/
  countedAt : ℕ
  outcome : Except Exc Response

/-- `request.url.path.startswith("/v1/")` -/
def Limited (request : Request) : Prop := "/v1/".toList <+: request.path.toList

instance (request : Request) : Decidable (Limited request) :=
  inferInstanceAs (Decidable (_ <+: _))

/-- The API key, or else the address of the client. -/
def Arrival.identity (a : Arrival) : String :=
  a.request.credentials.apiKey.getD (a.client.getD "unknown")

def limit : ℕ := 120

/-- In seconds. -/
def window : ℕ := 60

/-- `_now_ms` -/
def nowMs (now : ℕ × ℕ) : ℕ := now.1 * 1000 + now.2 / 1000

/-- `int(now_ms / (window * 1000))`, which is exact as long as `now_ms` is below `2 ^ 53`. -/
def bucket (now : ℕ × ℕ) : ℕ := nowMs now / (window * 1000)

/-- `f"rl:{identity}:{bucket}"` -/
def counterKey (identity : String) (bucket : ℕ) : String :=
  "rl:" ++ identity ++ ":" ++ bucket.repr

/-- `headers[name] = value`: the names of a response are in lower case, and the first header of the
name is replaced. -/
def setHeader (name value : String) : List (String × String) → List (String × String)
  | [] => [(name.toLower, value)]
  | h :: hs =>
    if h.1 = name.toLower then (name.toLower, value) :: hs.filter (·.1 ≠ name.toLower)
    else h :: setHeader name value hs

/-- The `LIMIT_HEADERS` of a response. -/
def setLimitHeaders (remaining resetEpoch : ℕ) (response : Response) : Response :=
  { response with
    headers := setHeader "X-RateLimit-Reset" resetEpoch.repr
      (setHeader "X-RateLimit-Remaining" remaining.repr
        (setHeader "X-RateLimit-Limit" limit.repr response.headers)) }

/-- The `JSONResponse` of status 429. -/
def tooManyRequests (bucket : ℕ) : Response :=
  setLimitHeaders 0 (bucket * window) <| .new (encode (dumps .compact
      (.obj [("error", .str "rate_limit_exceeded"),
        ("message", .str "Too many requests. Retry later.")]))) 429 [] (some "application/json")

/-- `await call_next(request)` -/
def callNext (i : ι) (outcome : Except Exc Response) : Async ι Response := do
  await (.start i)
  await (.await i outcome)

/-- What follows the counting. -/
def afterCount (i : ι) (outcome : Except Exc Response) (bucket count : ℕ) : Async ι Response :=
  if limit < count then return tooManyRequests bucket
  else do
    let response ← callNext i outcome
    return setLimitHeaders (limit - count) (bucket * window) response

def dispatch (i : ι) (a : Arrival) : Async ι Response :=
  if Limited a.request then do
    let now ← await (.time a.readAt)
    let count ← await (.incr i (counterKey a.identity (bucket now)) (window * 2) a.countedAt)
    afterCount i a.outcome (bucket now) count
  else callNext i a.outcome

end PaymentGateway.Middleware.RateLimit
