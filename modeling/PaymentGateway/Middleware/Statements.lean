import PaymentGateway.Api.Deps

/-! # Requests, responses and Redis

What the idempotency middleware works with: requests and responses, the records it keeps in Redis,
and the statements it issues. Redis is an atomic key-value store that loses nothing, and no key
expires; `call_next` is two statements, its start and its end, so that others may come in between.
`events` records both, for the statements about handlers. -/

namespace PaymentGateway.Middleware.Statements

open PaymentGateway.Lib.Program PaymentGateway.Lib.Sessions
open PaymentGateway.Api.Deps (Credentials)

/-- What the middleware and the authentication read of a request, and its body. -/
structure Request where
  method : String
  path : String
  /-- `Idempotency-Key` -/
  idempotencyKey : Option String
  /-- `X-Request-Id` -/
  requestId : Option String
  credentials : Credentials
  body : List UInt8
  deriving DecidableEq

inductive Exc
  /-- An exception of the endpoint, which `call_next` re-raises. -/
  | endpoint (text : String)
  /-- The request was cancelled. -/
  | cancelled
  deriving DecidableEq

structure Response where
  statusCode : ℕ
  headers : List (String × String)
  mediaType : Option String
  /-- The chunks of `body_iterator`, or the exception that reading them raises. -/
  body : Except Exc (List (List UInt8))
  deriving DecidableEq

/-- `Response(content=…)` -/
def Response.new (content : List UInt8) (statusCode : ℕ) (headers : List (String × String))
    (mediaType : Option String) : Response :=
  ⟨statusCode, headers, mediaType, .ok [content]⟩

/-- `b"".join(body_chunks)` -/
def Response.bytes (r : Response) : Except Exc (List UInt8) := r.body.map List.flatten

@[simp] theorem Response.bytes_new {content : List UInt8} {statusCode : ℕ}
    {headers : List (String × String)} {mediaType : Option String} :
    (Response.new content statusCode headers mediaType).bytes = .ok content :=
  congrArg Except.ok (List.append_nil content)

/-- The record under a key: a JSON object with some of these members. -/
structure StoredState where
  requestId : Option String
  status : Option String
  statusCode : Option ℕ
  body : Option String
  headers : Option (List (String × String))
  deriving DecidableEq

/-- What happens to a handler. -/
inductive Event (ι : Type)
  | started (i : ι)
  | returned (i : ι) (response : Response)
  | raised (i : ι) (exc : Exc)
  deriving DecidableEq

/-- Redis, and what has happened to the handlers so far. -/
structure World (ι : Type) where
  store : String → Option StoredState
  events : List (Event ι)

/-- The statements of the request `i`. -/
inductive Stmt (ι : Type)
  /-- `redis.set(key, …, nx=True)` -/
  | setNx (key : String) (state : StoredState)
  /-- `redis.set(key, …, xx=True)` -/
  | setXx (key : String) (state : StoredState)
  | get (key : String)
  | delete (key : String)
  /-- `call_next(request)` -/
  | start (i : ι)
  /-- The end of `await call_next(request)`, by a response or an exception. -/
  | await (i : ι) (outcome : Except Exc Response)

/-- What a statement returns. -/
@[reducible]
def Stmt.Resp {ι : Type} : Stmt ι → Type
  | .setNx _ _ => Bool
  | .get _ => Option StoredState
  | .await _ _ => Response
  | _ => Unit

abbrev redis (ι : Type) : Sig := ⟨Stmt ι, Stmt.Resp, Exc⟩

abbrev Async (ι : Type) := Prog (redis ι)

variable {ι : Type}

/-- `await …` -/
def await (s : Stmt ι) : Async ι s.Resp := @Prog.exec (redis ι) s

@[simp] theorem ofExcept_ok_bind {α β : Type} (a : α) (f : α → Async ι β) :
    ((Prog.ofExcept (Except.ok a : Except Exc α) : Async ι α) >>= f) = f a := rfl

@[simp] theorem ofExcept_error_bind {α β : Type} (e : Exc) (f : α → Async ι β) :
    ((Prog.ofExcept (Except.error e : Except Exc α) : Async ι α) >>= f) = .raise e := rfl

/-- What a statement does; the last component is the key that the request has reserved. -/
def exec : (s : Stmt ι) → World ι → Option String → Except Exc s.Resp × World ι × Option String
  | .setNx key state, w, l =>
    match w.store key with
    | none => (.ok true, { w with store := Function.update w.store key (some state) }, some key)
    | some _ => (.ok false, w, l)
  | .setXx key state, w, l =>
    match w.store key with
    | none => (.ok (), w, l)
    | some _ => (.ok (), { w with store := Function.update w.store key (some state) }, l)
  | .get key, w, l => (.ok (w.store key), w, l)
  | .delete key, w, l => (.ok (), { w with store := Function.update w.store key none }, l)
  | .start i, w, l => (.ok (), { w with events := w.events ++ [.started i] }, l)
  | .await i (.ok response), w, l =>
    (.ok response, { w with events := w.events ++ [.returned i response] }, l)
  | .await i (.error exc), w, l => (.error exc, { w with events := w.events ++ [.raised i exc] }, l)

/-- Redis and the handlers as a machine. No statement waits. -/
def server : Machine (redis ι) (World ι) (Option String) where
  exec := exec
  waits _ _ _ _ := False
  closed := none
  crash := .cancelled

instance (s : Stmt ι) (w : World ι) (l m : Option String) : Decidable (server.waits s w l m) :=
  isFalse id

end PaymentGateway.Middleware.Statements
