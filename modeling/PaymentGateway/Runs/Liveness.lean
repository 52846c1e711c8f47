import PaymentGateway.Lib.Termination
import PaymentGateway.Runs.LockOrder
import PaymentGateway.Runs.Origins

/-! # The endpoints lock in order

The authentication locks nothing, and the services lock in order (`Runs.LockOrder`). The outbox row
of a callback is committed by a session that has given up its locks: its commit may wait for others,
but none of them waits for it. -/

namespace PaymentGateway.Runs.Liveness

open PaymentGateway.Core.Ids PaymentGateway.Models PaymentGateway.Schemas
open PaymentGateway.Lib.Program PaymentGateway.Lib.Sessions PaymentGateway.Lib.Deadlock
open PaymentGateway.Lib.DecimalArith PaymentGateway.Db.Statements PaymentGateway.Db.LockOrder
open PaymentGateway.Services.Order PaymentGateway.Services.Payment PaymentGateway.Services.Webhook
open PaymentGateway.Api.Deps PaymentGateway.Api.Orders PaymentGateway.Api.Payments
open PaymentGateway.Api.Webhooks PaymentGateway.Runs.LockOrder PaymentGateway.Runs.Origins

variable {α β : Type} {J : Db → Prop} {ids : List UUID} {past : List Stmt} {l : Session} {s : Stmt}
  {n : ℕ} {security : Security} {credentials : Credentials} {signing : Signing}
  {request : BankRequest}

/-! ### Authentication -/

theorem inOrder_loadIntents {f : Unit → Sql α} (ms : List Merchant) (h : At n past l)
    (hf : ∀ past l, At n past l → Within J ids (f ()) past l) :
    Within J ids (loadIntents ms >>= f) past l := by
  induction ms generalizing past l with
  | nil => exact hf past l h
  | cons m ms ih =>
    unfold loadIntents
    rw [Prog.bind_assoc]
    exact inOrder_execute h (.inr rfl) (by simp) fun d _ _ _ =>
      ih (h.snoc le_rfl (.inl rfl) (List.Subset.refl _) rfl)

/-- The merchants that a SELECT has returned, with their intents. -/
theorem inOrder_loaded {f : Option Merchant → Sql α} {rows : List Merchant} (h : At n past l)
    (hf : ∀ o past l, At n past l → Within J ids (f o) past l) :
    Within J ids ((loadIntents rows >>= fun _ => scalarOneOrNone rows) >>= f) past l := by
  rw [Prog.bind_assoc]
  exact inOrder_loadIntents rows h fun past l h =>
    inOrder_scalarOneOrNone fun o _ => hf o past l h

theorem inOrder_findMerchant {f : Option Merchant → Sql α} (h : At n past l)
    (hf : ∀ o past l, At n past l → Within J ids (f o) past l) :
    Within J ids (findMerchant security credentials >>= f) past l := by
  unfold findMerchant
  cases credentials.token.filter (· ≠ "") with
  | some token =>
    dsimp only
    rcases security.decodeAccessToken token with detail | _ | merchantId
    · trivial
    · trivial
    · dsimp only
      rw [Prog.bind_assoc]
      exact inOrder_execute h (.inr rfl) (by simp) fun d rows _ _ =>
        inOrder_loaded (h.snoc le_rfl (.inl rfl) (List.Subset.refl _) rfl) hf
  | none =>
    cases credentials.apiKey with
    | none => exact hf none past l h
    | some apiKey =>
      dsimp only
      rw [Prog.bind_assoc]
      exact inOrder_execute h (.inr rfl) (by simp) fun d rows _ _ =>
        inOrder_loaded (h.snoc le_rfl (.inl rfl) (List.Subset.refl _) rfl) hf

theorem inOrder_getCurrentMerchant {f : Merchant → Sql α} (h : At n past l)
    (hf : ∀ m past l, At n past l → Within J ids (f m) past l) :
    Within J ids (getCurrentMerchant security credentials >>= f) past l := by
  unfold getCurrentMerchant
  rw [Prog.bind_assoc]
  refine inOrder_findMerchant h fun o past l h => ?_
  cases o with
  | none => trivial
  | some m =>
    dsimp only
    split_ifs
    · exact hf m past l h
    · trivial

/-! ### Orders -/

/-- A statement that locks and commits nothing may come at any time. -/
theorem ok_of_level (hs : level s = 7) (hc : s ≠ .commit) : Ok ids past s l :=
  ⟨fun _ _ hl => hs ▸ hl, fun id t x m e => (by
    subst e
    simp only [level] at hs
    split_ifs at hs <;> omega), fun e => absurd e hc⟩

theorem inOrder_commitIntent {f : Unit → Sql α} (h : At n past l)
    (hf : ∀ past l, At n past l → Within J ids (f ()) past l) :
    Within J ids (commitIntent >>= f) past l := by
  have hcommit : Within J ids (execute .commit >>= f) past l := inOrder_commit h hf
  refine ⟨hcommit.1, fun d hd => ?_⟩
  have hnext := hcommit.2 d hd
  change Within J ids ((Prog.ofExcept (exec .commit d l).1).tryCatch _ >>= f) _ _
  change Within J ids (Prog.ofExcept (exec .commit d l).1 >>= f) _ _ at hnext
  cases hr : (exec .commit d l).1 with
  | ok a =>
    rw [hr] at hnext
    exact hnext
  | error e =>
    cases e with
    | integrityError => exact ⟨ok_of_level rfl (by simp), fun _ _ => trivial⟩
    | _ => trivial

theorem inOrder_createOrder (merchant : Merchant) (payload : CreateOrderRequest) (new : OrderIds)
    (h : At n past l) : Within J ids (createOrder merchant payload new) past l := by
  unfold createOrder
  refine inOrder_execute h (.inr rfl) (by simp) fun d rows _ _ => ?_
  refine inOrder_scalarOneOrNone fun existing _ => ?_
  cases existing with
  | some existing => trivial
  | none =>
    refine inOrder_stage (h.snoc le_rfl (.inl rfl) (List.Subset.refl _) rfl)
      (by simp [newIntent, Write.rows]) fun past l h _ => ?_
    exact inOrder_commitIntent h fun past l h => inOrder_end h rfl fun _ => trivial

/-! ### Callbacks -/

/-- A callback that is answered has given up its locks. -/
theorem leaves_commit {a : α} :
    Leaves database J (fun _ _ l => Idle l) (execute .commit >>= fun _ => .ret a) past l := by
  refine Leaves.exec_bind fun d _ _ hok => ?_
  change Idle (exec .commit d l).2.2
  simp only [exec]
  split <;> exact ⟨rfl, rfl⟩

theorem leaves_processBankCallback (event : BankCallbackEvent) (psp : String) (amount : Decimal)
    (new : CallbackIds) : Leaves database J (fun _ _ l => Idle l)
      (processBankCallback event psp amount new) past l := by
  unfold processBankCallback
  refine Leaves.bind_last fun rows past l => Leaves.bind_last fun txn past l => ?_
  cases txn with
  | none => trivial
  | some txn =>
    refine Leaves.bind_last fun rows past l => Leaves.bind_last fun intent past l => ?_
    refine Leaves.bind_last fun differs past l => ?_
    split_ifs
    · trivial
    · exact leaves_commit
    · exact leaves_commit
    · unfold settle
      cases assertTransitions txn intent event with
      | error exc => exact Leaves.bind_last fun _ _ _ => trivial
      | ok u =>
        refine Leaves.bind_last fun _ past l => Leaves.bind_last fun _ past l => ?_
        exact Leaves.bind_last fun _ past l => leaves_commit

theorem guarded_dispatch : Guarded J (relaxed ids) (dispatch signing request) past l := by
  unfold dispatch
  refine Guarded.exec_bind (.inl (ok_of_level rfl (by simp))) fun _ delivery _ _ => ?_
  refine Guarded.exec_bind (.inl (ok_of_level rfl (by simp))) fun _ _ _ _ => ?_
  cases request.broker <;> trivial

theorem guarded_notify {callback : Callback} {result : CallbackResult} (h : Idle l) :
    Guarded J (relaxed ids) (notify signing request callback result) past l := by
  unfold notify
  refine Guarded.exec_bind (.inl (ok_of_level rfl (by simp))) fun d rows _ _ => ?_
  have hinform : ∀ o past, Guarded J (relaxed ids) (inform signing request callback result o) past
      l := by
    intro o past
    unfold inform
    split
    · trivial
    · split
      · trivial
      · split_ifs
        · unfold enqueue
          refine Guarded.exec_bind (.inl (ok_of_level rfl (by simp))) fun d _ _ _ => ?_
          -- nothing is locked, so that nobody waits for this commit
          refine Guarded.exec_bind (.inr ⟨rfl, h⟩) fun d _ _ _ => ?_
          exact guarded_dispatch
        · trivial
  match rows with
  | [] => exact hinform none _
  | [m] => exact hinform (some m) _
  | _ :: _ :: _ => trivial

/-- **`bank_callback`** locks in order. -/
theorem guarded_bankCallback (hJ : ∀ d, J d → ∀ t ∈ d.transactions, '@' ∈ t.vpa.toList)
    (hids : ∀ id, id = request.ids.payerAccountId ∨ id = request.ids.merchantAccountId → id ∈ ids) :
    Guarded J (relaxed ids) (bankCallback signing request) [] .closed := by
  unfold bankCallback
  cases request.verified with
  | error e => trivial
  | ok callback =>
    have hservice : Guarded J (relaxed ids) (processBankCallback callback.event
        callback.pspReference callback.amount request.ids) [] .closed :=
      (inOrder_processBankCallback _ _ _ _ hJ hids).mono (fun _ h => h) fun _ _ _ => .inl
    change Guarded J (relaxed ids) ((processBankCallback callback.event callback.pspReference
      callback.amount request.ids).tryCatch (fun exc => .raise (webhookException signing exc)) >>=
        notify signing request callback) [] .closed
    refine Guarded.bind (Q := fun _ _ l => Idle l) ?_ ?_ fun _ _ _ hl => guarded_notify hl
    · exact hservice.tryCatch fun _ _ _ => trivial
    · exact (leaves_processBankCallback _ _ _ _).tryCatch fun _ _ _ => trivial

/-! ### Requests -/

/-- The ids that a request draws for accounts. -/
def accountIds : Request → List UUID
  | .bankCallback _ _ ids _ _ => [ids.payerAccountId, ids.merchantAccountId]
  | _ => []

/-- **Every request** locks in order. -/
theorem guarded_request (gateway : Gateway)
    (hJ : ∀ d, J d → ∀ t ∈ d.transactions, '@' ∈ t.vpa.toList) (r : Request) :
    Guarded J (relaxed (accountIds r)) (r.prog gateway) [] .closed := by
  have hrelax : ∀ {α : Type} {p : Sql α}, Within J (accountIds r) p [] .closed →
      Guarded J (relaxed (accountIds r)) p [] .closed := fun h =>
    h.mono (fun _ h => h) fun _ _ _ => .inl
  cases r with
  | createOrder credentials payload new =>
    refine (hrelax ?_).bind_quiet fun _ => trivial
    exact inOrder_getCurrentMerchant at_nil fun m past l h =>
      (inOrder_createOrder m payload new h).tryCatch fun _ _ _ => trivial
  | getOrder credentials orderId =>
    refine (hrelax ?_).bind_quiet fun _ => trivial
    refine inOrder_getCurrentMerchant at_nil fun m past l h => ?_
    unfold Api.Orders.getOrder
    refine inOrder_execute h (.inr rfl) (by simp) fun d rows _ _ => ?_
    refine inOrder_scalarOneOrNone fun o _ => ?_
    cases o <;> trivial
  | initiateUpi credentials payload new =>
    refine (hrelax ?_).bind_quiet fun _ => trivial
    exact inOrder_getCurrentMerchant at_nil fun m past l h =>
      (inOrder_initiateUpi m payload new h).tryCatch fun _ _ _ => trivial
  | bankCallback now signed new deliveryId broker =>
    exact (guarded_bankCallback hJ (by simp [accountIds])).bind_quiet fun _ => trivial

end PaymentGateway.Runs.Liveness
