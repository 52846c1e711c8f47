import PaymentGateway.Runs.Serial
import PaymentGateway.Specs.Notification
import PaymentGateway.Workers.Tasks

/-! # Retries of notifications

A notification is posted until a post succeeds, at most `max_retries + 1` times; where `max_retries`
is negative, once. The posts are all the same, with the signature of the delivery's row, and the
waits between them do not get shorter, since the jitter is at most what doubling adds
(`backoffDelay_mono`). -/

namespace PaymentGateway.Results.Backoff

open PaymentGateway.Lib.Numerals PaymentGateway.Lib.JsonLoads PaymentGateway.Lib.Program
open PaymentGateway.Core.Ids PaymentGateway.Models PaymentGateway.Specs.Notification
open PaymentGateway.Schemas PaymentGateway.Db.Statements PaymentGateway.Core.Security
open PaymentGateway.Core.Loads PaymentGateway.Services.Webhook PaymentGateway.Api.Webhooks
open PaymentGateway.Workers.Tasks

variable {signing : Signing} {request : BankRequest} {event : BankCallbackEvent}
  {merchant : Merchant} {url : String} {result : CallbackResult} {maxRetries : ℤ} {base : ℚ}
  {depth : ℕ} {outcomes : ℕ → Outcome} {jitters : ℕ → ℚ} {worker : Worker} {task : Task}
  {post : Post} {signature : String}

/-- The task of a delivery. -/
def taskOf (signing : Signing) (delivery : WebhookDelivery) : Task :=
  ⟨delivery.id, delivery.url, delivery.payload, signing.merchantWebhookSecret⟩

/-- It is what the endpoint hands to the broker. -/
theorem dispatch_eq (signing : Signing) (request : BankRequest) : dispatch signing request = do
    let delivery ← execute (.refreshDelivery request.deliveryId)
    let task := taskOf signing delivery
    execute (.delay task.deliveryId task.url task.payload task.secret)
    Prog.ofExcept request.broker
    return accepted := rfl

/-- A status from 200 to 299. -/
def Succeeds (outcome : Outcome) : Prop := ∃ text, raiseForStatus outcome = .ok text

/-- How often a task is run again. -/
def again (worker : Worker) : ℕ := worker.celeryWebhookMaxRetries.toNat

/-- **The schedule** of the posts of one task, in all its runs. -/
structure FollowsBackoff (worker : Worker) (task : Task) (signature : String)
    (outcomes : ℕ → Outcome) (jitters : ℕ → ℚ) : Prop where
  atMost : ∀ n, (runs worker task outcomes jitters n).posts.length ≤ again worker + 1
  stops : ∀ k ≤ again worker, Succeeds (outcomes k) → (∀ j < k, ¬ Succeeds (outcomes j)) →
    ∀ n, k < n → (runs worker task outcomes jitters n).posts.length = k + 1
  complete : (∀ k ≤ again worker, ¬ Succeeds (outcomes k)) →
    ∀ n, again worker < n →
      (runs worker task outcomes jitters n).posts.length = again worker + 1
  signed : ∀ n, ∀ post ∈ (runs worker task outcomes jitters n).posts,
    post.content = Lib.Utf8.encode task.payload ∧ post.webhookSignature = signature ∧
      verifySignature worker.signPayload post.content task.secret post.webhookSignature = .ok true
  monotone : ∀ n, (runs worker task outcomes jitters n).countdowns.Pairwise (· ≤ ·)
  bounded : ∀ n, ∀ countdown ∈ (runs worker task outcomes jitters n).countdowns,
    min 3600 worker.celeryWebhookRetryBackoff ≤ countdown ∧ countdown ≤ 3600

/-! ### The post -/

/-- The post of a notification. -/
theorem newPost_notification (hdepth : 2 ≤ worker.depth) (event : BankCallbackEvent)
    (result : CallbackResult) (deliveryId : UUID) (url secret : String) :
    newPost worker ⟨deliveryId, url, notification event result, secret⟩ =
      .ok ⟨url, Lib.Utf8.encode (notification event result), "application/json",
        worker.signPayload (Lib.Utf8.encode (notification event result)) secret,
        .str (text event.value)⟩ := by
  have hloads := loadsString_notification hdepth event result
  generalize Json.obj [(text "transaction_id", _), _, _] = data at hloads
  have hne : text "data" ≠ text "event" := by decide +kernel
  have hmember : member "event" [(text "event", .str (text event.value)), (text "data", data)] =
      some (.str (text event.value)) := by
    unfold member
    simp [hne]
  have hget : getMember (.obj [(text "event", .str (text event.value)), (text "data", data)])
      "event" (.str []) = .ok (.str (text event.value)) := by
    unfold getMember
    dsimp only
    rw [hmember]
    rfl
  unfold newPost
  dsimp only
  rw [hloads]
  dsimp only [bind, Except.bind]
  rw [hget]
  rfl

/-- The post of a delivery carries the signature of its row. -/
theorem newPost_newDelivery (maxRetries : ℤ) (base : ℚ) (hdepth : 2 ≤ depth)
    (signing : Signing) (request : BankRequest) (event : BankCallbackEvent) (merchant : Merchant)
    (url : String) (result : CallbackResult) :
    newPost ⟨maxRetries, base, signing.signPayload, depth⟩
        (taskOf signing (newDelivery signing request event merchant url result)) =
      .ok ⟨url, Lib.Utf8.encode (notification event result), "application/json",
        (newDelivery signing request event merchant url result).signature,
        .str (text event.value)⟩ := by
  have hworker : 2 ≤ (⟨maxRetries, base, signing.signPayload, depth⟩ : Worker).depth := hdepth
  exact newPost_notification hworker event result request.deliveryId url
    signing.merchantWebhookSecret

/-! ### The countdowns -/

theorem countdown_bounds (hbase : 0 ≤ worker.celeryWebhookRetryBackoff) {j : ℚ} (hj : 0 ≤ j)
    (k : ℕ) :
    min 3600 worker.celeryWebhookRetryBackoff ≤ backoffDelay worker (k + 1) j ∧
      backoffDelay worker (k + 1) j ≤ 3600 := by
  unfold backoffDelay
  refine ⟨min_le_min_left _ ?_, min_le_left _ _⟩
  have hpow : (1 : ℚ) ≤ 2 ^ (k + 1 - 1) := one_le_pow₀ one_le_two
  have hmul := mul_le_mul_of_nonneg_left hpow hbase
  rw [mul_one] at hmul
  linarith

/-- A later wait is no shorter, whatever the jitters. -/
theorem backoffDelay_mono (hbase : 0 ≤ worker.celeryWebhookRetryBackoff) {i j : ℚ}
    (hi : i ≤ worker.celeryWebhookRetryBackoff) (hj : 0 ≤ j) {k l : ℕ} (h : k < l) :
    backoffDelay worker (k + 1) i ≤ backoffDelay worker (l + 1) j := by
  unfold backoffDelay
  refine min_le_min_left _ ?_
  rw [Nat.add_sub_cancel, Nat.add_sub_cancel]
  have hone : (1 : ℚ) ≤ 2 ^ k := one_le_pow₀ one_le_two
  have hpow : (2 : ℚ) ^ k * 2 ≤ 2 ^ l := by
    rw [← pow_succ]
    exact pow_le_pow_right₀ one_le_two h
  -- doubling adds the base at least once, and the jitter is no more than that
  calc worker.celeryWebhookRetryBackoff * 2 ^ k + i
      ≤ worker.celeryWebhookRetryBackoff * 2 ^ k + worker.celeryWebhookRetryBackoff * 2 ^ k :=
        add_le_add_right (hi.trans (le_mul_of_one_le_right hbase hone)) _
    _ = worker.celeryWebhookRetryBackoff * (2 ^ k * 2) := by ring
    _ ≤ worker.celeryWebhookRetryBackoff * 2 ^ l := mul_le_mul_of_nonneg_left hpow hbase
    _ ≤ worker.celeryWebhookRetryBackoff * 2 ^ l + j := le_add_of_nonneg_right hj

/-! ### The runs -/

theorem succeeds_or (outcome : Outcome) :
    Succeeds outcome ∨ ∃ error, raiseForStatus outcome = .error error := by
  cases h : raiseForStatus outcome with
  | ok text => exact .inl ⟨text, h⟩
  | error error => exact .inr ⟨error, rfl⟩

/-- The wait after the run with this `self.request.retries`. -/
def countdown (worker : Worker) (jitters : ℕ → ℚ) (retries : ℕ) : ℚ :=
  backoffDelay worker (retries + 1) (jitters retries)

/-- After `n` runs: the posts so far failed, and the next run is due; or the last one succeeded, or
was the last that was allowed. -/
inductive Stands (worker : Worker) (post : Post) (outcomes : ℕ → Outcome) (jitters : ℕ → ℚ) :
    ℕ → Progress → Prop
  | due (r : ℕ) : r ≤ again worker → (∀ j < r, ¬ Succeeds (outcomes j)) →
    Stands worker post outcomes jitters r
      ⟨List.replicate r post, (List.range r).map (countdown worker jitters), some r⟩
  | ended (n r : ℕ) : r < n → r ≤ again worker → (∀ j < r, ¬ Succeeds (outcomes j)) →
    (Succeeds (outcomes r) ∨ r = again worker) →
    Stands worker post outcomes jitters n
      ⟨List.replicate (r + 1) post, (List.range r).map (countdown worker jitters), none⟩

/-- **A run** posts, and asks for another one as long as that is allowed. -/
theorem Stands.step (hpost : newPost worker task = .ok post) {n : ℕ} {p : Progress}
    (h : Stands worker post outcomes jitters n p) :
    Stands worker post outcomes jitters (n + 1)
      (runOnce worker task outcomes jitters p) := by
  cases h with
  | ended r hn hr hfailed hlast =>
    exact .ended (n + 1) r (Nat.lt_succ_of_lt hn) hr hfailed hlast
  | due hr hfailed =>
    have hposts : List.replicate n post ++ [post] = List.replicate (n + 1) post :=
      List.replicate_succ'.symm
    have hwaits : (List.range n).map (countdown worker jitters) ++ [countdown worker jitters n] =
        (List.range (n + 1)).map (countdown worker jitters) := by
      rw [List.range_succ, List.map_append, List.map_singleton]
    unfold runOnce
    dsimp only
    obtain ⟨text, htext⟩ | ⟨error, herror⟩ := succeeds_or (outcomes n)
    · have hrun : deliverMerchantWebhook worker task n (outcomes n) (jitters n) =
          .ok (post, .returned text) := by
        unfold deliverMerchantWebhook
        dsimp only
        rw [hpost, htext]
        rfl
      rw [hrun]
      dsimp only
      rw [hposts]
      exact .ended (n + 1) n (Nat.lt_succ_self n) hr hfailed (.inl ⟨text, htext⟩)
    · have hrun : deliverMerchantWebhook worker task n (outcomes n) (jitters n) =
          .ok (post, retry worker n error (countdown worker jitters n)) := by
        unfold deliverMerchantWebhook
        dsimp only
        rw [hpost, herror]
        rfl
      rw [hrun]
      dsimp only [retry]
      split_ifs with hmax
      · dsimp only
        rw [hposts]
        have hlast : n = again worker := le_antisymm hr (Int.toNat_le.mpr hmax)
        exact .ended (n + 1) n (Nat.lt_succ_self n) hr hfailed (.inr hlast)
      · dsimp only
        rw [hposts, hwaits]
        refine .due (n + 1) ?_ fun j hj => ?_
        · unfold again
          omega
        · obtain hlt | rfl := Nat.lt_succ_iff_lt_or_eq.mp hj
          · exact hfailed j hlt
          · rintro ⟨text, htext⟩
            rw [herror] at htext
            cases htext

theorem stands (hpost : newPost worker task = .ok post) (outcomes : ℕ → Outcome)
    (jitters : ℕ → ℚ) (n : ℕ) :
    Stands worker post outcomes jitters n (runs worker task outcomes jitters n) := by
  induction n with
  | zero => exact .due 0 (Nat.zero_le _) fun j hj => absurd hj (Nat.not_lt_zero j)
  | succ n ih => exact ih.step hpost

theorem Stands.length_le {n : ℕ} {p : Progress} (h : Stands worker post outcomes jitters n p) :
    p.posts.length ≤ again worker + 1 := by
  cases h with
  | due hr => rw [List.length_replicate]; omega
  | ended r hn hr => rw [List.length_replicate]; omega

theorem Stands.posts_eq {n : ℕ} {p : Progress} (h : Stands worker post outcomes jitters n p) :
    ∀ q ∈ p.posts, q = post := by
  cases h with
  | due | ended => exact fun q hq => (List.mem_replicate.mp hq).2

theorem Stands.countdowns_eq {n : ℕ} {p : Progress} (h : Stands worker post outcomes jitters n p) :
    ∃ r, p.countdowns = (List.range r).map (countdown worker jitters) := by
  cases h with
  | due | ended => exact ⟨_, rfl⟩

/-- The task ends with the first success, or with the last run that is allowed. -/
theorem Stands.length_eq {n : ℕ} {p : Progress} (h : Stands worker post outcomes jitters n p)
    {k : ℕ} (hk : k ≤ again worker) (hlast : Succeeds (outcomes k) ∨ k = again worker)
    (hfailed : ∀ j < k, ¬ Succeeds (outcomes j)) (hn : k < n) : p.posts.length = k + 1 := by
  cases h with
  | due hr hall =>
    rcases hlast with hlast | hlast
    · exact absurd hlast (hall k hn)
    · omega
  | ended r hrn hr hall hend =>
    rw [List.length_replicate]
    rcases lt_trichotomy r k with hlt | rfl | hlt
    · rcases hend with hend | hend
      · exact absurd hend (hfailed r hlt)
      · omega
    · rfl
    · rcases hlast with hlast | hlast
      · exact absurd hlast (hall k hlt)
      · omega

theorem countdown_mono (hbase : 0 ≤ worker.celeryWebhookRetryBackoff)
    (hjitters : ∀ k, 0 ≤ jitters k ∧ jitters k ≤ worker.celeryWebhookRetryBackoff) {k l : ℕ}
    (h : k < l) : countdown worker jitters k ≤ countdown worker jitters l :=
  backoffDelay_mono hbase (hjitters k).2 (hjitters l).1 h

/-- A task whose post can be made follows the schedule. -/
theorem follows_of_post (hpost : newPost worker task = .ok post)
    (hdigest : Hexdigest worker.signPayload)
    (hbase : 0 ≤ worker.celeryWebhookRetryBackoff)
    (hjitters : ∀ k, 0 ≤ jitters k ∧ jitters k ≤ worker.celeryWebhookRetryBackoff)
    (hcontent : post.content = Lib.Utf8.encode task.payload)
    (hsignature : post.webhookSignature =
      worker.signPayload (Lib.Utf8.encode task.payload) task.secret) :
    FollowsBackoff worker task post.webhookSignature outcomes jitters := by
  have hstands := stands hpost outcomes jitters
  refine ⟨fun n => (hstands n).length_le, fun k hk hsucceeds hfailed n hn =>
    (hstands n).length_eq hk (.inl hsucceeds) hfailed hn, fun hfailed n hn =>
    (hstands n).length_eq le_rfl (.inr rfl) (fun j hj => hfailed j hj.le) hn,
    fun n q hq => ?_, fun n => ?_, fun n c hc => ?_⟩
  · rw [(hstands n).posts_eq q hq]
    refine ⟨hcontent, rfl, ?_⟩
    rw [hcontent, hsignature]
    exact hdigest.verifySignature _ _
  · obtain ⟨r, hr⟩ := (hstands n).countdowns_eq
    rw [hr]
    exact List.pairwise_map.mpr (List.pairwise_lt_range.imp fun hlt =>
      countdown_mono hbase hjitters hlt)
  · obtain ⟨r, hr⟩ := (hstands n).countdowns_eq
    rw [hr] at hc
    obtain ⟨k, -, rfl⟩ := List.mem_map.mp hc
    exact countdown_bounds hbase (hjitters k).1 k

/-- **The retries** of a notification follow the backoff schedule. -/
theorem follows_backoff (hdigest : Hexdigest signing.signPayload) (hbase : 0 ≤ base)
    (hjitters : ∀ k, 0 ≤ jitters k ∧ jitters k ≤ base) (hdepth : 2 ≤ depth) :
    FollowsBackoff ⟨maxRetries, base, signing.signPayload, depth⟩
      (taskOf signing (newDelivery signing request event merchant url result))
      (newDelivery signing request event merchant url result).signature outcomes jitters :=
  follows_of_post (newPost_newDelivery maxRetries base hdepth signing request event merchant url
    result) hdigest hbase hjitters rfl rfl

namespace Sample

def shop : Merchant := Runs.Serial.Sample.shop

def succeeded : CallbackResult :=
  ⟨false, Runs.Serial.Sample.uuid 3, "txn_token", some "ord_token", "SUCCESS"⟩

/-- The HMAC-SHA256 of the notification of `succeeded` under the default secret. -/
def digest : String := "81c760213d369e0b8854f0b2e67f92ec3a603f4b0f81dc97e7128f50e4ed4eb3"

def signs : Signing := ⟨"change-me-merchant-webhook-secret", fun _ _ => digest, .error .typeError⟩

def asked : BankRequest :=
  ⟨.ok ⟨.paymentSuccess, "psp_token", .finite false 100 0⟩, ⟨Runs.Serial.Sample.uuid 4,
    Runs.Serial.Sample.uuid 5, Runs.Serial.Sample.uuid 6, Runs.Serial.Sample.uuid 7⟩,
    Runs.Serial.Sample.uuid 8, .ok ()⟩

theorem hexdigest : Hexdigest signs.signPayload :=
  hexdigest_const (by decide +kernel) (by decide +kernel)

end Sample

/-- The default settings, and an endpoint that is down for two posts. -/
theorem follows_backoff_defaults :
    FollowsBackoff ⟨5, 30, Sample.signs.signPayload, 900⟩
      (taskOf Sample.signs (newDelivery Sample.signs Sample.asked .paymentSuccess Sample.shop
        "https://shop.example/hook" Sample.succeeded))
      Sample.digest (fun k => .response (if k < 2 then 503 else 200) "") fun _ => 15 :=
  follows_backoff Sample.hexdigest (by norm_num) (fun _ => ⟨by norm_num, by norm_num⟩) (by norm_num)

end PaymentGateway.Results.Backoff
