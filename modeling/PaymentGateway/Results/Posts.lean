import PaymentGateway.Results.Backoff
import PaymentGateway.Results.Origins
import PaymentGateway.Runs.Posts

/-! # What merchants are told

From the request of the bank to the post at the merchant's url, with requests that die, tasks that
are lost or run again, and stale reads. -/

namespace PaymentGateway.Results.Posts

open PaymentGateway.Core.Ids PaymentGateway.Core.Security PaymentGateway.Core.Loads
open PaymentGateway.Models PaymentGateway.Schemas PaymentGateway.Lib.Program
open PaymentGateway.Lib.Numerals PaymentGateway.Lib.JsonLoads
open PaymentGateway.Lib.Sessions PaymentGateway.Db.Statements PaymentGateway.Db.Locking
open PaymentGateway.Services.Webhook PaymentGateway.Api.Webhooks PaymentGateway.Workers.Tasks
open PaymentGateway.State.Invariant PaymentGateway.Runs.Deliveries PaymentGateway.Runs.Origins
open PaymentGateway.Runs.Posts PaymentGateway.Results.Backoff PaymentGateway.Outlines.Endpoints
open PaymentGateway.Lib.Tables PaymentGateway.Specs.Notification PaymentGateway.State.Histories

variable {ι : Type} [DecidableEq ι] {gateway : Gateway} {worker : Worker} {ms : List Merchant}
  {requests : ι → Request} {w w' : World ι} {post post' : Post} {m m' : Merchant}
  {t t' : Transaction} {i i' : PaymentIntent} {event event' : BankCallbackEvent}

/-- The result that the notification of a transaction is made of. -/
def outcomeOf (t : Transaction) (i : PaymentIntent) : CallbackResult :=
  ⟨false, t.id, t.publicId, some i.publicId, t.state.value⟩

/-- The post is the notification that the payment `t` of the order `i` of the merchant `m` has ended.
-/
structure MadeFor (d : Db) (m : Merchant) (t : Transaction) (i : PaymentIntent)
    (event : BankCallbackEvent) (post : Post) : Prop where
  merchant : i.merchantId = m.id
  order : i ∈ d.intents ∧ i.id = t.intentId
  ended : t ∈ d.transactions ∧ t.state = targetTxn event
  url : m.webhookUrl = some post.url
  content : post.content = Lib.Utf8.encode (notification event (outcomeOf t i))
  header : post.webhookEvent = .str (text event.value)

/-- The post tells the merchant `m` how the payment `t` of its order `i` has ended. -/
structure TellsOf (signing : Signing) (d : Db) (m : Merchant) (t : Transaction) (i : PaymentIntent)
    (event : BankCallbackEvent) (post : Post) : Prop extends MadeFor d m t i event post where
  reads : ∃ payload, post.content = Lib.Utf8.encode payload ∧ Describes payload t i
  signed : verifySignature signing.signPayload post.content signing.merchantWebhookSecret
    post.webhookSignature = .ok true
  credited : event = .paymentSuccess → ∃ e ∈ d.entries, e.transactionId = t.id ∧ IsCredit d i e

/-- The body of the post is read as a notification about the transaction with this public id. -/
def Names (post : Post) (transactionId : String) : Prop :=
  ∃ payload event orderId status, post.content = Lib.Utf8.encode payload ∧
    Says payload event transactionId orderId status

/-- A post is made for a payment that has ended, with a signature of its body. -/
theorem madeFor_of_post (hdepth : 2 ≤ worker.depth)
    (h : World.Reached gateway worker requests ms w) (hp : post ∈ w.posts) :
    ∃ m ∈ ms, ∃ t i event, MadeFor w.config.shared m t i event post ∧
      post.webhookSignature =
        worker.signPayload post.content gateway.signing.merchantWebhookSecret := by
  have hsound := h.sound
  obtain ⟨row, hrow, task, htask, hpost⟩ := hsound.posts post hp
  obtain ⟨⟨m, hm, hmid, hurl⟩, -⟩ := hsound.config.inv.addressed row hrow
  obtain ⟨t, ht, i, hi, -, hit, hmerchant, event, hstate, hpayload⟩ :=
    hsound.config.inv.written row hrow
  have htext : row.payload = notification event (outcomeOf t i) := hpayload
  rw [htask, htext, newPost_notification hdepth] at hpost
  generalize hcontent : Lib.Utf8.encode (notification event (outcomeOf t i)) = content at hpost
  obtain rfl := Except.ok.inj hpost
  exact ⟨m, hm, t, i, event,
    ⟨hmerchant.symm.trans hmid.symm, ⟨hi, hit⟩, ⟨ht, hstate⟩, hurl, hcontent.symm, rfl⟩, rfl⟩

/-- **What a merchant is told is true, and paid out**: every post goes to the url of the merchant of
an order, with a signature that verifies; the payment that it names has ended as it says, and if it
says that the payment succeeded, the amount of the order is credited to the merchant. -/
theorem told_concurrent (hdigest : Hexdigest gateway.signing.signPayload)
    (hsame : worker.signPayload = gateway.signing.signPayload) (hdepth : 2 ≤ worker.depth)
    (h : World.Reached gateway worker requests ms w) (hp : post ∈ w.posts) :
    ∃ m ∈ ms, ∃ t i event, TellsOf gateway.signing w.config.shared m t i event post := by
  obtain ⟨m, hm, t, i, event, hmade, hsignature⟩ := madeFor_of_post hdepth h hp
  obtain ⟨ht, hstate⟩ := hmade.ended
  refine ⟨m, hm, t, i, event, hmade,
    ⟨_, hmade.content, describes_notification hstate false t.id⟩, ?_, fun he => ?_⟩
  · rw [hsignature, hsame]
    exact hdigest.verifySignature _ _
  · have hs : t.state = .success := by
      rw [he] at hstate
      exact hstate
    obtain ⟨hi, hit⟩ := hmade.order
    obtain ⟨x, y, hxy, -, hy⟩ := h.sound.config.inv.balanced.posted.pair t ht hs i hi hit
    have hmem : y ∈ entriesOf w.config.shared t := by rw [hxy]; simp
    obtain ⟨he, hyt⟩ := List.mem_filter.mp hmem
    exact ⟨y, he, of_decide_eq_true hyt, hy⟩

/-- **Every task can be posted**, so that a worker raises only where the merchant does not answer. -/
theorem postable (hdepth : 2 ≤ worker.depth)
    (h : World.Reached gateway worker requests ms w) {task : Task} (ht : task ∈ w.tasks) :
    ∃ post, newPost worker task = .ok post := by
  obtain ⟨row, hrow, htask⟩ := h.sound.tasks task ht
  obtain ⟨t, -, i, -, -, -, -, event, -, hpayload⟩ := h.sound.config.inv.written row hrow
  have htext : row.payload = notification event (outcomeOf t i) := hpayload
  rw [htask, htext, newPost_notification hdepth]
  exact ⟨_, rfl⟩

theorem targetTxn_inj (h : targetTxn event = targetTxn event') : event = event' := by
  cases event <;> cases event' <;> first | rfl | cases h

/-- A post names one transaction. -/
theorem Names.eq {x y : String} (h : Names post x) (h' : Names post y) : x = y := by
  obtain ⟨payload, e, orderId, status, hcontent, hsays⟩ := h
  obtain ⟨payload', e', orderId', status', hcontent', hsays'⟩ := h'
  have hsame : payload = payload' := by
    have hdecode := congrArg Lib.Utf8.decode (hcontent.symm.trans hcontent')
    rwa [Lib.Utf8.decode_encode, Lib.Utf8.decode_encode] at hdecode
  exact (hsame ▸ hsays).transactionId_eq hsays'

/-- It is the one that it is made for. -/
theorem MadeFor.names {d : Db} (h : MadeFor d m t i event post) : Names post t.publicId :=
  ⟨_, _, _, _, h.content, says_notification event rfl⟩

/-- What is made for a payment, now and at any later time, is the same. -/
theorem MadeFor.alike {d d' : Db} (hlater : Later d d') (hkeys : Keys d')
    (hids : (ms.map (·.id)).Nodup) (hm : m ∈ ms) (hm' : m' ∈ ms)
    (hmade : MadeFor d m t i event post) (hmade' : MadeFor d' m' t i' event' post') :
    post.url = post'.url ∧ post.content = post'.content ∧
      post.webhookEvent = post'.webhookEvent := by
  obtain rfl : event = event' := targetTxn_inj (hmade.ended.2.symm.trans hmade'.ended.2)
  obtain ⟨j, hj, hij, -⟩ := hlater.frame.intents.exists_mem hmade.order.1
  have hjid : j.id = i.id := by rw [hij]
  obtain rfl := eq_of_key hkeys.intents hj hmade'.order.1
    (hjid.trans (hmade.order.2.trans hmade'.order.2.symm))
  have hpublic : j.publicId = i.publicId := by rw [hij]
  have hmerchant : j.merchantId = i.merchantId := by rw [hij]
  obtain rfl := eq_of_key hids hm hm'
    (hmade.merchant.symm.trans (hmerchant.symm.trans hmade'.merchant))
  refine ⟨Option.some.inj (hmade.url.symm.trans hmade'.url), ?_,
    hmade.header.trans hmade'.header.symm⟩
  have hsame : outcomeOf t i = outcomeOf t j := by
    unfold outcomeOf
    rw [hpublic]
  rw [hmade.content, hmade'.content, hsame]

/-- **A merchant is never told two things of one payment**: two posts whose bodies name one
transaction, now and at any later time, go to one url, with one event and one text. -/
theorem told_alike (hdepth : 2 ≤ worker.depth) (hids : (ms.map (·.id)).Nodup)
    (h : World.Reached gateway worker requests ms w)
    (hr : Relation.ReflTransGen (World.Step worker) w w') (hp : post ∈ w.posts)
    (hp' : post' ∈ w'.posts) {transactionId : String} (hnames : Names post transactionId)
    (hnames' : Names post' transactionId) : post.url = post'.url ∧ post.content = post'.content ∧
      post.webhookEvent = post'.webhookEvent := by
  obtain ⟨hsound, hlater⟩ := h.sound.run hr
  obtain ⟨m, hm, t, i, event, hmade, -⟩ := madeFor_of_post hdepth h hp
  obtain ⟨m', hm', t', i', event', hmade', -⟩ := madeFor_of_post hdepth (h.trans hr) hp'
  have hfinal : t ∈ w'.config.shared.transactions :=
    hlater.final t hmade.ended.1 (hmade.ended.2 ▸ targetTxn_ne_pending)
  obtain rfl := eq_of_key hsound.config.inv.publicIds hfinal hmade'.ended.1
    ((hmade.names.eq hnames).trans (hnames'.eq hmade'.names))
  exact hmade.alike hlater hsound.config.inv.balanced.keys hids hm hm' hmade'

namespace Sample

open PaymentGateway.Runs.Serial.Sample PaymentGateway.Results.Origins.Sample

def celery : Worker := ⟨5, 30, shopGateway.signing.signPayload, 1000⟩

/-- The payment has succeeded, and the notification is handed over. -/
def notified : World (Fin 3) :=
  World.fireAll (checkout ++ settlement)
    ⟨database.start (Db.empty [shop]) programs, [], []⟩

theorem hexdigest : Hexdigest shopGateway.signing.signPayload :=
  hexdigest_const (by decide +kernel) (by decide +kernel)

theorem reached_notified : World.Reached shopGateway celery purchase [shop] notified := by
  have hstart : World.start shopGateway purchase [shop] =
      ⟨database.start (Db.empty [shop]) programs, [], []⟩ :=
    congrArg (fun p => World.mk (database.start (Db.empty [shop]) p) [] []) (funext prog_purchase)
  unfold World.Reached
  rw [hstart]
  exact World.run_fireAll (by decide +kernel)

/-- A task waits, nothing has been posted, and there is one payment. -/
theorem rows_notified : notified.tasks ≠ [] ∧ notified.posts = [] ∧
    ∀ t ∈ notified.config.shared.transactions, t.publicId = newId "txn" "token" := by
  decide +kernel

/-- What has been posted. -/
def posted (posts : List Post) : World (Fin 3) := { notified with posts := posts }

/-- A worker posts it, and posts it again. -/
theorem reached_posted : ∃ post post', World.Reached shopGateway celery purchase [shop]
    (posted [post]) ∧ World.Step celery (posted [post]) (posted [post, post']) := by
  obtain ⟨task, ht⟩ := List.exists_mem_of_ne_nil notified.tasks rows_notified.1
  have hdepth : 2 ≤ celery.depth := by decide
  obtain ⟨post, hpost⟩ := postable hdepth reached_notified ht
  have hrun : deliverMerchantWebhook celery task 0 (.response 200 "") 0 =
      .ok (post, .returned "") := by
    unfold deliverMerchantWebhook
    dsimp only
    rw [hpost]
    rfl
  have hposts : notified = posted [] := by
    unfold posted
    rw [← rows_notified.2.1]
  have hreached := reached_notified
  rw [hposts] at hreached
  exact ⟨post, post, hreached.tail (.run ht hrun), .run ht hrun⟩

theorem told_posted : ∃ post, ∃ m ∈ [shop], ∃ t i event,
    TellsOf shopGateway.signing notified.config.shared m t i event post := by
  obtain ⟨post, post', h, -⟩ := reached_posted
  have hdepth : 2 ≤ celery.depth := by decide
  have htold := told_concurrent hexdigest rfl hdepth h (List.mem_singleton_self post)
  exact ⟨post, htold⟩

/-- What is posted is about the one payment. -/
theorem names_posted {posts : List Post} {post : Post}
    (h : World.Reached shopGateway celery purchase [shop] (posted posts)) (hp : post ∈ posts) :
    Names post (newId "txn" "token") := by
  have hdepth : 2 ≤ celery.depth := by decide
  obtain ⟨m, -, t, i, event, hmade, -⟩ := madeFor_of_post hdepth h hp
  have hnames := hmade.names
  rwa [rows_notified.2.2 t hmade.ended.1] at hnames

theorem told_alike_posted : ∃ post post' : Post, World.Reached shopGateway celery purchase [shop]
    (posted [post, post']) ∧ post.url = post'.url ∧ post.content = post'.content ∧
      post.webhookEvent = post'.webhookEvent := by
  obtain ⟨post, post', h, hs⟩ := reached_posted
  have hdepth : 2 ≤ celery.depth := by decide
  have hmem : post ∈ (posted [post]).posts := List.mem_singleton_self post
  have hmem' : post' ∈ (posted [post, post']).posts := List.mem_pair.mpr (.inr rfl)
  exact ⟨post, post', h.tail hs, told_alike hdepth (by decide) h (.single hs) hmem hmem'
    (names_posted h hmem) (names_posted (h.tail hs) hmem')⟩

end Sample

end PaymentGateway.Results.Posts
