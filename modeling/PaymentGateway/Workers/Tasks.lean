import PaymentGateway.Core.Loads
import PaymentGateway.Core.Security
import PaymentGateway.Lib.Utf8

/-! # The worker's tasks

`deliver_merchant_webhook` posts a notification and asks Celery to run it again when the post fails.
How the posts end and what is drawn at random is given: `outcomes` and `jitters`, by
`self.request.retries`. -/

namespace PaymentGateway.Workers.Tasks

open PaymentGateway.Core.Ids PaymentGateway.Core.Loads PaymentGateway.Lib.Numerals
open PaymentGateway.Lib.JsonLoads PaymentGateway.Db.Statements

/-! ### Delivery of notifications -/

/-- The settings of a worker, `sign_payload`, and how deep its interpreter lets JSON be nested. -/
structure Worker where
  celeryWebhookMaxRetries : ℤ
  celeryWebhookRetryBackoff : ℚ
  signPayload : List UInt8 → String → String
  depth : ℕ

/-- The arguments of `deliver_merchant_webhook`. -/
structure Task where
  deliveryId : UUID
  url : String
  payload : String
  secret : String

/-- What `httpx.post` sends. -/
structure Post where
  url : String
  content : List UInt8
  contentType : String
  webhookSignature : String
  webhookEvent : Json

/-- A response, or an error of the network. -/
inductive Outcome
  | response (statusCode : ℕ) (text : String)
  | networkError (message : String)

/-- `httpx.HTTPError` -/
inductive HttpError
  | status (statusCode : ℕ)
  | network (message : String)

/-- How a run of the task ends. -/
inductive Verdict
  | returned (text : String)
  /-- `self.retry` has the task run again after the countdown. -/
  | retried (countdown : ℚ)
  /-- `self.retry` raises the exception that it is given. -/
  | raised (error : HttpError)

/-- `_backoff_delay`; the jitter is `random.uniform(0, base)`. -/
def backoffDelay (worker : Worker) (attempt : ℕ) (jitter : ℚ) : ℚ :=
  min 3600 (worker.celeryWebhookRetryBackoff * 2 ^ (attempt - 1) + jitter)

/-- The text of a response that `raise_for_status` lets pass. -/
def raiseForStatus : Outcome → Except HttpError String
  | .response statusCode text =>
    if 200 ≤ statusCode ∧ statusCode < 300 then .ok text else .error (.status statusCode)
  | .networkError message => .error (.network message)

/-- `self.retry(exc=…, countdown=…, max_retries=…)` -/
def retry (worker : Worker) (retries : ℕ) (error : HttpError) (countdown : ℚ) : Verdict :=
  if worker.celeryWebhookMaxRetries ≤ retries then .raised error else .retried countdown

/-- The body and the headers. -/
def newPost (worker : Worker) (task : Task) : Except Exc Post := do
  let body := Lib.Utf8.encode task.payload
  let signature := worker.signPayload body task.secret
  let event ← getMember (← loadsString worker.depth task.payload) "event" (.str [])
  return ⟨task.url, body, "application/json", signature, event⟩

/-- `deliver_merchant_webhook`, in the run that has this `self.request.retries`. -/
def deliverMerchantWebhook (worker : Worker) (task : Task) (retries : ℕ) (outcome : Outcome)
    (jitter : ℚ) : Except Exc (Post × Verdict) := do
  let attempt := retries + 1
  let post ← newPost worker task
  match raiseForStatus outcome with
  | .ok text => return (post, .returned text)
  | .error error => return (post, retry worker retries error (backoffDelay worker attempt jitter))

/-! ### The runs of one task -/

/-- The posts and the countdowns so far, and the `self.request.retries` of the run that is due. -/
structure Progress where
  posts : List Post
  countdowns : List ℚ
  due : Option ℕ

/-- Celery runs the task once more, if it is due. -/
def runOnce (worker : Worker) (task : Task) (outcomes : ℕ → Outcome) (jitters : ℕ → ℚ)
    (p : Progress) : Progress :=
  match p.due with
  | none => p
  | some retries =>
    match deliverMerchantWebhook worker task retries (outcomes retries) (jitters retries) with
    | .error _ => { p with due := none }
    | .ok (post, .retried countdown) =>
      ⟨p.posts ++ [post], p.countdowns ++ [countdown], some (retries + 1)⟩
    | .ok (post, _) => ⟨p.posts ++ [post], p.countdowns, none⟩

/-- A task is handed to the broker, and run `n` times. -/
def runs (worker : Worker) (task : Task) (outcomes : ℕ → Outcome) (jitters : ℕ → ℚ) :
    ℕ → Progress
  | 0 => ⟨[], [], some 0⟩
  | n + 1 => runOnce worker task outcomes jitters (runs worker task outcomes jitters n)

end PaymentGateway.Workers.Tasks
