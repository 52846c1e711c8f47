import PaymentGateway.Lib.Events
import PaymentGateway.Runs.Origins
import PaymentGateway.Workers.Tasks

/-! # From the gateway to the merchants

The endpoints hand the tasks of their notifications to the broker, and the workers run them. A task
may be lost, and it may be run at any time and any number of times, by any worker (`acks_late`). What
is handed over is the task of a delivery that is committed, so what is posted is too. -/

namespace PaymentGateway.Runs.Posts

open PaymentGateway.Core.Ids PaymentGateway.Models PaymentGateway.Schemas
open PaymentGateway.Lib.Program PaymentGateway.Lib.Sessions PaymentGateway.Lib.Events
open PaymentGateway.Lib.DecimalArith PaymentGateway.Db.Statements PaymentGateway.Db.Locking
open PaymentGateway.Services.Order PaymentGateway.Services.Payment PaymentGateway.Services.Webhook
open PaymentGateway.Api.Deps PaymentGateway.Api.Orders PaymentGateway.Api.Payments
open PaymentGateway.Api.Webhooks PaymentGateway.Workers.Tasks PaymentGateway.Outlines.Rules
open PaymentGateway.State.Histories PaymentGateway.Runs.Shapes PaymentGateway.Runs.Origins

/-! ### The programs that hand nothing over -/

/-- `deliver_merchant_webhook.delay(…)` -/
def Delays : Stmt → Prop
  | .delay _ _ _ _ => True
  | _ => False

section Quiet

theorem quiet_getCurrentMerchant {security : Security} {credentials : Credentials} :
    (getCurrentMerchant security credentials).Quiet Delays := by
  have hload : ∀ ms : List Merchant, (loadIntents ms).Quiet Delays := by
    intro ms
    induction ms with
    | nil => trivial
    | cons m ms ih => exact (quiet_execute id).bind fun _ => ih
  have hfind : (findMerchant security credentials).Quiet Delays := by
    unfold findMerchant
    split
    · split
      · trivial
      · trivial
      · exact (quiet_execute id).bind fun rows => (hload rows).bind fun _ => quiet_scalarOneOrNone
    · exact (quiet_execute id).bind fun rows => (hload rows).bind fun _ => quiet_scalarOneOrNone
    · trivial
  unfold getCurrentMerchant
  refine hfind.bind fun merchant => ?_
  cases merchant with
  | none => trivial
  | some m =>
    dsimp only
    split_ifs <;> trivial

theorem quiet_createOrder {merchant : Merchant} {payload : CreateOrderRequest} {ids : OrderIds} :
    (createOrder merchant payload ids).Quiet Delays := by
  unfold createOrder
  refine (quiet_execute id).bind fun rows => quiet_scalarOneOrNone.bind fun existing => ?_
  cases existing with
  | some existing => trivial
  | none =>
    have hcommit : commitIntent.Quiet Delays := by
      refine (quiet_execute id).tryCatch fun e => ?_
      cases e with
      | integrityError => exact (quiet_execute id).bind fun _ => trivial
      | _ => trivial
    refine (quiet_execute id).bind fun _ => hcommit.bind fun _ => ?_
    exact (quiet_execute id).bind fun _ => trivial

theorem quiet_initiateUpi {merchant : Merchant} {payload : UpiInitiateRequest} {ids : InitiateIds} :
    (initiateUpi merchant payload ids).Quiet Delays := by
  unfold initiateUpi
  refine (quiet_execute id).bind fun rows => quiet_scalarOneOrNone.bind fun intent => ?_
  cases intent with
  | none => trivial
  | some intent =>
    dsimp only
    split_ifs
    · trivial
    · refine (quiet_execute id).bind fun rows => quiet_scalarOneOrNone.bind fun duplicate => ?_
      cases duplicate with
      | some duplicate => trivial
      | none =>
        unfold startPayment
        refine Prog.quiet_ofExcept.bind fun _ => (quiet_execute id).bind fun _ => ?_
        refine Prog.quiet_ofExcept.bind fun _ => (quiet_execute id).bind fun _ => ?_
        refine (quiet_execute id).bind fun _ => (quiet_execute id).bind fun _ => ?_
        exact (quiet_execute id).bind fun _ => trivial

theorem quiet_postLedger {txn : Transaction} {intent : PaymentIntent} {amount : Decimal}
    {ids : CallbackIds} : (postLedger txn intent amount ids).Quiet Delays := by
  have hensure : ∀ accountType identifier merchantId id,
      (ensureAccountLocked accountType identifier merchantId id).Quiet Delays := fun _ _ _ _ =>
    (quiet_execute id).bind fun _ => (quiet_execute id).bind fun _ => quiet_scalarOne
  unfold postLedger
  refine (hensure _ _ _ _).bind fun _ => (hensure _ _ _ _).bind fun _ => ?_
  refine Prog.quiet_ofExcept.bind fun _ => (quiet_execute id).bind fun _ => ?_
  refine Prog.quiet_ofExcept.bind fun _ => (quiet_execute id).bind fun _ => ?_
  exact (quiet_execute id).bind fun _ => quiet_execute id

theorem quiet_processBankCallback {event : BankCallbackEvent} {psp : String} {amount : Decimal}
    {ids : CallbackIds} : (processBankCallback event psp amount ids).Quiet Delays := by
  unfold processBankCallback
  refine (quiet_execute id).bind fun rows => quiet_scalarOneOrNone.bind fun txn => ?_
  cases txn with
  | none => trivial
  | some txn =>
    refine (quiet_execute id).bind fun rows => quiet_scalarOne.bind fun intent => ?_
    refine Prog.quiet_ofExcept.bind fun differs => ?_
    split_ifs
    · trivial
    · exact (quiet_execute id).bind fun _ => trivial
    · exact (quiet_execute id).bind fun _ => trivial
    · unfold settle
      cases assertTransitions txn intent event with
      | error exc => exact (quiet_execute id).bind fun _ => trivial
      | ok u =>
        have hledger : (if event = .paymentSuccess then postLedger txn intent amount ids
            else pure ()).Quiet Delays := by
          split_ifs
          · exact quiet_postLedger
          · trivial
        refine (quiet_execute id).bind fun _ => (quiet_execute id).bind fun _ => ?_
        exact hledger.bind fun _ => (quiet_execute id).bind fun _ => trivial

end Quiet

/-! ### What is handed over -/

/-- What is handed over is the task of a delivery that is there. -/
def Backed (signing : Signing) (s : Stmt) (d : Db) : Prop :=
  ∀ id url payload secret, s = .delay id url payload secret → ∃ w ∈ d.deliveries,
    id = w.id ∧ url = w.url ∧ payload = w.payload ∧ secret = signing.merchantWebhookSecret

/-- Deliveries are only added. -/
def MoreDeliveries (d d' : Db) : Prop := d.deliveries <+: d'.deliveries

theorem MoreDeliveries.refl (d : Db) : MoreDeliveries d d := List.prefix_rfl

theorem MoreDeliveries.trans {d d' d'' : Db} (h : MoreDeliveries d d')
    (h' : MoreDeliveries d' d'') : MoreDeliveries d d'' :=
  List.IsPrefix.trans h h'

section Issued

variable {α : Type} {signing : Signing} {request : BankRequest} {l : Session} {d : Db} {p : Sql α}

theorem backed_of_not_delays (s : Stmt) (d : Db) (h : ¬ Delays s) : Backed signing s d := by
  rintro id url payload secret rfl
  exact absurd trivial h

/-- A program that hands nothing over. -/
theorem issues_of_quiet (h : p.Quiet Delays) :
    Issues database MoreDeliveries (Backed signing) p l d :=
  .of_quiet backed_of_not_delays h

/-- A statement, and what follows its response. -/
theorem issues_execute {s : Stmt} {f : s.Resp → Sql α} (hs : ¬ Delays s)
    (hf : ∀ d a, (exec s d l).1 = .ok a →
      Issues database MoreDeliveries (Backed signing) (f a) (exec s d l).2.2 (exec s d l).2.1) :
    Issues database MoreDeliveries (Backed signing) (execute s >>= f) l d := by
  rw [execute_bind]
  refine fun d' _ => ⟨backed_of_not_delays s d' hs, ?_⟩
  have hresp := hf d'
  simp only [Machine.after, Machine.session, database]
  cases hr : (exec s d' l).1 with
  | error e => trivial
  | ok a => exact hresp a hr

/-- **The dispatch** hands over the row that it has just read. -/
theorem issues_dispatch :
    Issues database MoreDeliveries (Backed signing) (dispatch signing request) l d := by
  unfold dispatch
  refine issues_execute id fun d w hr => ?_
  rw [exec_db (by simp), execute_bind]
  refine fun d' hmore => ⟨?_, issues_of_quiet ?_⟩
  · rintro id url payload secret he
    cases he
    exact ⟨w, hmore.subset (refreshDelivery_ok hr).1, rfl, rfl, rfl, rfl⟩
  · exact Prog.quiet_ofExcept.bind fun _ => Prog.quiet_ofExcept.bind fun _ => trivial

theorem issues_notify {callback : Callback} {result : CallbackResult} :
    Issues database MoreDeliveries (Backed signing) (notify signing request callback result) l d := by
  unfold notify
  refine (issues_of_quiet (quiet_execute id)).bind fun rows l d => ?_
  refine (issues_of_quiet quiet_scalarOneOrNone).bind fun merchant l d => ?_
  unfold inform
  cases merchant with
  | none => trivial
  | some m =>
    dsimp only
    split
    · trivial
    · split_ifs
      · unfold enqueue
        refine (issues_of_quiet (quiet_execute id)).bind fun _ l d => ?_
        exact (issues_of_quiet (quiet_execute id)).bind fun _ l d => issues_dispatch
      · trivial

/-- **Every request** hands over tasks of deliveries that are there, and nothing else. -/
theorem issues_request (gateway : Gateway) (r : Request) :
    Issues database MoreDeliveries (Backed gateway.signing) (r.prog gateway) l d := by
  cases r with
  | createOrder credentials payload ids =>
    refine issues_of_quiet (Prog.Quiet.bind ?_ fun _ => trivial)
    refine quiet_getCurrentMerchant.bind fun merchant => ?_
    exact quiet_createOrder.tryCatch fun exc => trivial
  | getOrder credentials orderId =>
    refine issues_of_quiet (Prog.Quiet.bind ?_ fun _ => trivial)
    refine quiet_getCurrentMerchant.bind fun merchant => (quiet_execute id).bind fun rows => ?_
    refine quiet_scalarOneOrNone.bind fun intent => ?_
    cases intent <;> trivial
  | initiateUpi credentials payload ids =>
    refine issues_of_quiet (Prog.Quiet.bind ?_ fun _ => trivial)
    refine quiet_getCurrentMerchant.bind fun merchant => ?_
    exact quiet_initiateUpi.tryCatch fun exc => trivial
  | bankCallback now signed ids deliveryId broker =>
    refine Issues.bind ?_ fun _ _ _ => trivial
    unfold Api.Webhooks.bankCallback
    refine (issues_of_quiet Prog.quiet_ofExcept).bind fun callback l d => ?_
    refine (issues_of_quiet ?_).bind fun result l d => issues_notify
    exact quiet_processBankCallback.tryCatch fun exc => trivial

end Issued

/-! ### The world -/

/-- The pool of requests, the tasks that the broker has been handed and has not lost, and what the
workers have posted. -/
structure World (ι : Type) where
  config : Config sql Db Session ι Reply
  tasks : List Task
  posts : List Post

/-- The task that a statement hands over. -/
def Stmt.handed : Stmt → List Task
  | .delay id url payload secret => [⟨id, url, payload, secret⟩]
  | _ => []

section Worlds

variable {ι : Type} [DecidableEq ι]

/-- A request fires its next statement. -/
def World.fire (w : World ι) (i : ι) : World ι where
  config := database.fire w.config i
  tasks := w.tasks ++ match (w.config.procs i).prog with
    | .call s _ => Stmt.handed s
    | _ => []
  posts := w.posts

/-- The requests of a schedule fire one after another. -/
def World.fireAll (is : List ι) (w : World ι) : World ι := is.foldl World.fire w

/-- A request goes on or dies, a task is lost, or a worker runs one. -/
inductive World.Step (worker : Worker) (w : World ι) : World ι → Prop
  | fire {i} (h : database.Enabled w.config i) : World.Step worker w (w.fire i)
  | kill {i} (h : ¬ (w.config.procs i).prog.Done) :
    World.Step worker w { w with config := database.kill w.config i }
  | lose {tasks} (h : tasks ⊆ w.tasks) : World.Step worker w { w with tasks := tasks }
  | run {task retries outcome jitter post verdict} (h : task ∈ w.tasks)
      (hrun : deliverMerchantWebhook worker task retries outcome jitter = .ok (post, verdict)) :
    World.Step worker w { w with posts := w.posts ++ [post] }

/-- The requests before their first statement. -/
def World.start (gateway : Gateway) (requests : ι → Request) (ms : List Merchant) : World ι :=
  ⟨pool gateway requests (Db.empty ms), [], []⟩

/-- A world that the requests and the workers reach. -/
def World.Reached (gateway : Gateway) (worker : Worker) (requests : ι → Request)
    (ms : List Merchant) : World ι → Prop :=
  Relation.ReflTransGen (World.Step worker) (World.start gateway requests ms)

/-- The task is that of the delivery. -/
def IsTask (signing : Signing) (task : Task) (row : WebhookDelivery) : Prop :=
  task = ⟨row.id, row.url, row.payload, signing.merchantWebhookSecret⟩

/-- Every task is that of a delivery, and every post was made for one. -/
structure World.Sound (gateway : Gateway) (worker : Worker) (requests : ι → Request)
    (ms : List Merchant) (w : World ι) : Prop where
  config : InOrder gateway ms requests w.config
  issues : PoolIssues database MoreDeliveries (Backed gateway.signing) w.config
  tasks : ∀ task ∈ w.tasks, ∃ row ∈ w.config.shared.deliveries, IsTask gateway.signing task row
  posts : ∀ post ∈ w.posts, ∃ row ∈ w.config.shared.deliveries, ∃ task,
    IsTask gateway.signing task row ∧ newPost worker task = .ok post

variable {gateway : Gateway} {worker : Worker} {requests : ι → Request} {ms : List Merchant}
  {w w' : World ι}

omit [DecidableEq ι] in
theorem sound_start : World.Sound gateway worker requests ms (World.start gateway requests ms) :=
  ⟨inOrder_start ms, fun i => issues_request gateway (requests i), fun _ h => (by cases h),
    fun _ h => by cases h⟩

/-- What a run posts is what `newPost` makes. -/
theorem newPost_of_run {task : Task} {retries : ℕ} {outcome : Outcome} {jitter : ℚ} {post : Post}
    {verdict : Verdict}
    (h : deliverMerchantWebhook worker task retries outcome jitter = .ok (post, verdict)) :
    newPost worker task = .ok post := by
  unfold deliverMerchantWebhook at h
  cases hpost : newPost worker task with
  | error e =>
    rw [hpost] at h
    cases h
  | ok q =>
    rw [hpost] at h
    dsimp only [bind, Except.bind] at h
    split at h <;> cases h <;> rfl

/-- A step of the pool, whatever is handed over. -/
theorem World.Sound.request (h : World.Sound gateway worker requests ms w) {m : Move ι}
    {c' : Config sql Db Session ι Reply} (hs : database.Step w.config m c') {tasks : List Task}
    (htasks : ∀ task ∈ tasks, task ∈ w.tasks ∨
      ∃ row ∈ w.config.shared.deliveries, IsTask gateway.signing task row) :
    World.Sound gateway worker requests ms ⟨c', tasks, w.posts⟩ := by
  obtain ⟨hconfig, hlater⟩ := inOrder_run h.config (.single ⟨m, trivial, hs⟩)
  have hmore : MoreDeliveries w.config.shared c'.shared := hlater.frame.deliveries
  refine ⟨hconfig, h.issues.step .refl .trans hs hmore, fun task ht => ?_, fun post hp => ?_⟩
  · rcases htasks task ht with ht | ⟨row, hrow, htask⟩
    · obtain ⟨row, hrow, htask⟩ := h.tasks task ht
      exact ⟨row, hmore.subset hrow, htask⟩
    · exact ⟨row, hmore.subset hrow, htask⟩
  · obtain ⟨row, hrow, task, htask, hpost⟩ := h.posts post hp
    exact ⟨row, hmore.subset hrow, task, htask, hpost⟩

/-- **Every step** of the requests, the broker and the workers keeps the world sound. -/
theorem World.Sound.step (h : World.Sound gateway worker requests ms w)
    (hs : World.Step worker w w') : World.Sound gateway worker requests ms w' := by
  cases hs with
  | @fire i he =>
    refine h.request (.fire he) fun task ht => ?_
    rcases List.mem_append.mp ht with ht | ht
    · exact .inl ht
    · obtain ⟨s, k, hp, -⟩ := he
      have hbacked := h.issues.fires .refl hp
      rw [hp] at ht
      cases s with
      | delay id url payload secret =>
        obtain ⟨row, hrow, rfl, rfl, rfl, rfl⟩ := hbacked id url payload secret rfl
        exact .inr ⟨row, hrow, List.mem_singleton.mp ht⟩
      | _ => cases ht
  | kill hd => exact h.request (.kill hd) fun task ht => .inl ht
  | lose ht => exact ⟨h.config, h.issues, fun task htask => h.tasks task (ht htask), h.posts⟩
  | @run task retries outcome jitter post verdict ht hrun =>
    refine ⟨h.config, h.issues, h.tasks, fun q hq => ?_⟩
    rcases List.mem_append.mp hq with hq | hq
    · exact h.posts q hq
    · obtain ⟨row, hrow, htask⟩ := h.tasks task ht
      exact ⟨row, hrow, task, htask, List.mem_singleton.mp hq ▸ newPost_of_run hrun⟩

/-- The database of a world that comes later. -/
theorem World.Sound.later (h : World.Sound gateway worker requests ms w)
    (hs : World.Step worker w w') : Later w.config.shared w'.config.shared := by
  cases hs with
  | fire he => exact (inOrder_run h.config (.single ⟨_, trivial, .fire he⟩)).2
  | kill hd => exact (inOrder_run h.config (.single ⟨_, trivial, .kill hd⟩)).2
  | lose ht => exact .refl _
  | run ht hrun => exact .refl _

theorem World.Sound.run (h : World.Sound gateway worker requests ms w)
    (hr : Relation.ReflTransGen (World.Step worker) w w') :
    World.Sound gateway worker requests ms w' ∧ Later w.config.shared w'.config.shared := by
  induction hr with
  | refl => exact ⟨h, .refl _⟩
  | tail _ hs ih => exact ⟨ih.1.step hs, ih.2.trans (ih.1.later hs)⟩

theorem World.Reached.sound (h : World.Reached gateway worker requests ms w) :
    World.Sound gateway worker requests ms w :=
  (sound_start.run h).1

theorem World.run_fireAll {is : List ι}
    (h : Machine.Allowed database (fun _ _ => True) is w.config) :
    Relation.ReflTransGen (World.Step worker) w (w.fireAll is) := by
  induction is generalizing w with
  | nil => exact .refl
  | cons i is ih => exact .head (.fire h.2.1) (ih h.2.2)

end Worlds

end PaymentGateway.Runs.Posts
