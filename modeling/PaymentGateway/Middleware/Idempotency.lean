import PaymentGateway.Lib.Json
import PaymentGateway.Lib.Utf8
import PaymentGateway.Middleware.Statements

/-! # The idempotency middleware

`IdempotencyMiddleware.dispatch`, for the request `i` and the outcome of its `call_next`. -/

namespace PaymentGateway.Middleware.Idempotency

open PaymentGateway.Lib.Program PaymentGateway.Lib.Json PaymentGateway.Lib.Utf8
open PaymentGateway.Middleware.Statements

/-- `MUTATING_METHODS` -/
def mutatingMethods : List String := ["POST", "PUT", "PATCH", "DELETE"]

/-- `STATUS_IN_PROGRESS` -/
def statusInProgress : String := "in_progress"

/-- `STATUS_DONE` -/
def statusDone : String := "done"

/-- `f"idem:{path}:{key}"`, if the request has a key and its method is mutating. -/
def redisKey (request : Request) : Option String :=
  if request.method ∈ mutatingMethods then
    request.idempotencyKey.map fun key => "idem:" ++ request.path ++ ":" ++ key
  else none

/-- The record of a key that was just reserved. -/
def reservation (request : Request) : StoredState :=
  { requestId := some (request.requestId.getD "")
    status := none, statusCode := none, body := none, headers := none }

/-- The record of a key whose request is in progress. -/
def inProgress : StoredState :=
  { requestId := none
    status := some statusInProgress, statusCode := none, body := none, headers := none }

/-- The record of a response, of which `bodyBytes` were read. -/
def done (response : Response) (bodyBytes : List UInt8) : StoredState :=
  { requestId := none
    status := some statusDone
    statusCode := some response.statusCode
    body := some (decode bodyBytes)
    headers := some response.headers }

/-- A `JSONResponse` of status 409. -/
def conflict (message : String) : Response :=
  .new (encode (dumps .compact
      (.obj [("error", .str "duplicate_request"), ("message", .str message)])))
    409 [] (some "application/json")

def keyInUse : Response :=
  conflict "Idempotency key already in use. Retry with the same payload or a fresh key."

def beingProcessed : Response :=
  conflict "Request with this Idempotency-Key is already being processed."

/-- The answer of a record that is not in progress. -/
def replay (state : StoredState) : Response :=
  .new (encode (state.body.getD "")) (state.statusCode.getD 200) [] (some "application/json")

/-- `200 <= response.status_code < 500` -/
def Cacheable (response : Response) : Prop := 200 ≤ response.statusCode ∧ response.statusCode < 500

instance : DecidablePred Cacheable := fun _ => inferInstanceAs (Decidable (_ ∧ _))

variable {ι : Type}

/-- The answer to a request whose key is taken. -/
def answerDuplicate (key : String) : Async ι Response := do
  let existing ← await (.get key)
  match existing with
  | none => return keyInUse
  | some state =>
    if state.status = some statusInProgress then return beingProcessed else return replay state

/-- `await call_next(request)` -/
def callNext (i : ι) (outcome : Except Exc Response) : Async ι Response := do
  await (.start i)
  await (.await i outcome)

/-- What is done with the response of the handler. -/
def finish (key : String) (response : Response) : Async ι Response := do
  if Cacheable response then
    let bodyBytes ← Prog.ofExcept response.bytes
    await (.setXx key (done response bodyBytes))
    return .new bodyBytes response.statusCode response.headers response.mediaType
  else
    await (.delete key)
    return response

/-- The handling of a request that has reserved its key. -/
def handle (i : ι) (key : String) (outcome : Except Exc Response) : Async ι Response := do
  await (.setXx key inProgress)
  let response ← callNext i outcome
  finish key response

def dispatch (i : ι) (request : Request) (outcome : Except Exc Response) : Async ι Response :=
  match redisKey request with
  | none => callNext i outcome
  | some key => do
    let reserved ← await (.setNx key (reservation request))
    if reserved then handle i key outcome else answerDuplicate key

end PaymentGateway.Middleware.Idempotency
