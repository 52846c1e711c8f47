import PaymentGateway.Api.Webhooks
import PaymentGateway.Outlines.Webhook
import PaymentGateway.Runs.Shapes
import PaymentGateway.State.Outbox

/-! # Runs of bank callbacks and their notifications

A pool of requests to `bank_callback`, any of which may die between two statements. A request that
has settled a payment owes its merchant a notification until it has committed the delivery (`Owes`);
`Orderly` moves let it get that far, and answer no other request for the payment before. -/

namespace PaymentGateway.Runs.Notifications

open PaymentGateway.Core.Ids PaymentGateway.Models PaymentGateway.Schemas
open PaymentGateway.Lib.Program PaymentGateway.Lib.Sessions PaymentGateway.Lib.Interference
open PaymentGateway.Lib.Tables PaymentGateway.Lib.DecimalArith
open PaymentGateway.Db.Statements PaymentGateway.Db.Locking PaymentGateway.Db.Flush
open PaymentGateway.Db.Replay PaymentGateway.Services.Webhook PaymentGateway.Api.Webhooks
open PaymentGateway.State.Changes PaymentGateway.State.Invariant PaymentGateway.State.Outbox
open PaymentGateway.Outlines.Rules PaymentGateway.Outlines.Webhook PaymentGateway.Runs.Shapes

/-- The requests before their first statement. -/
def pool {ι : Type} (signing : Signing) (requests : ι → BankRequest) (d : Db) :
    Config sql Db Session ι WebhookAck :=
  database.start d fun i => bankCallback signing (requests i)

/-! ### Orderly moves -/

/-- The provider reference of a request that passes step 1. -/
def reference (request : BankRequest) : Option String :=
  match request.verified with
  | .ok callback => some callback.pspReference
  | .error _ => none

def isDelivery : Write → Bool
  | .addDelivery _ => true
  | _ => false

/-- The request looks up its merchant and answers right away: it has no notification to write. -/
def skips (d : Db) (l : Session) : Sql WebhookAck → Bool
  | .call (.selectMerchantByPsp psp) k => (k (exec (.selectMerchantByPsp psp) d l).1).Done
  | _ => false

/-- The request has a notification to write: it looks up its merchant and does not answer yet, or it
is about to stage the delivery, or to commit it. -/
def owes (d : Db) (l : Session) : Sql WebhookAck → Bool
  | .call (.selectMerchantByPsp psp) k => !(k (exec (.selectMerchantByPsp psp) d l).1).Done
  | .call (.stage w) _ => isDelivery w
  | .call .commit _ => l.pending.any isDelivery
  | _ => false

/-- The request commits, and the flush fails. -/
def flushFails (d : Db) (l : Session) : Sql WebhookAck → Bool
  | .call .commit _ => !(l.flush d).isOk
  | _ => false

section Moves

variable {ι : Type} (requests : ι → BankRequest) (c : Config sql Db Session ι WebhookAck)

/-- The process `i` owes a notification. -/
def Owes (i : ι) : Prop := owes c.shared (c.procs i).loc (c.procs i).prog

/-- A request that owes a notification is not killed and its commit does not fail, and no request
for a payment answers without a notification while another owes it. -/
def Orderly : Move ι → Prop
  | .kill i => ¬ Owes c i
  | .fire i =>
    (Owes c i → ¬ flushFails c.shared (c.procs i).loc (c.procs i).prog) ∧
    (skips c.shared (c.procs i).loc (c.procs i).prog →
      ∀ j, Owes c j → reference (requests j) ≠ reference (requests i))

instance (i : ι) : Decidable (Owes c i) := inferInstanceAs (Decidable (_ = true))

instance [Fintype ι] (m : Move ι) : Decidable (Orderly requests c m) :=
  match m with
  | .kill _ => inferInstanceAs (Decidable (¬ _))
  | .fire _ => inferInstanceAs (Decidable ((_ → ¬ _) ∧ (_ → ∀ _, _ → _)))

end Moves

/-! ### Where a request stands -/

/-- Nothing is inserted or staged. -/
def Idle (l : Session) : Prop := l.inserted = [] ∧ l.pending = []

/-- The database is consistent, and references are unique. -/
def Sane (d : Db) : Prop := Consistent d ∧ PspUnique d

/-- What `process_bank_callback` may commit. -/
abbrev settling (callback : Callback) : Db → Db → Prop :=
  Settles callback.event callback.pspReference callback.amount

/-- `p` is what is left of `process_bank_callback`. If it answers, the payment is settled. If the
payment was not settled yet, it answers no replay, or it raises and the payment is not settled. -/
structure Processing (callback : Callback) (p : Sql CallbackResult) (l : Session) (d : Db) :
    Prop where
  outline : Outline (contract Sane (fun _ _ _ => True) (settling callback))
    (fun r l d => ∀ res, r = .ok res →
      Idle l ∧ SettledAs callback.pspReference res.transactionDbId d)
    p l d
  fresh : ¬ Settled callback.pspReference d →
    Outline (contract (fun d => Sane d ∧ ¬ Settled callback.pspReference d) (fun _ _ _ => True)
        (settling callback))
      (fun r _ d => (∀ res, r = .ok res → res.replay = false) ∧
        ∀ e, r = .error e → ¬ Settled callback.pspReference d) p l d
  oneShot : p.OneShot Ends

/-- The payments of the reference are notified, as far as their merchants want it. -/
def Notified (psp : String) (d : Db) : Prop :=
  ∀ m ∈ merchantsOf psp d, ∀ url ∈ m.webhookUrl, url ≠ "" → Delivered psp d

/-- What is left of a request, and its session. The flag: it has a notification to write. -/
inductive Phase (signing : Signing) (request : BankRequest) (d : Db) :
    Bool → Sql WebhookAck → Session → Prop
  | processing {callback p l} (hv : request.verified = .ok callback)
      (h : Processing callback p l d) :
      Phase signing request d false
        (p.tryCatch (fun exc => throw (webhookException signing exc)) >>=
          notify signing request callback) l
  | looking {callback res l} (hv : request.verified = .ok callback) (hl : Idle l)
      (hs : SettledAs callback.pspReference res.transactionDbId d) (hr : res.replay = false)
      (hn : Notifiable callback.pspReference d) :
      Phase signing request d true (notify signing request callback res) l
  | staging {callback w l} (hv : request.verified = .ok callback) (hl : Idle l)
      (hs : SettledAs callback.pspReference w.transactionId d) :
      Phase signing request d true (enqueue signing request w) l
  | committing {callback w l} (hv : request.verified = .ok callback)
      (hl : l.inserted = [] ∧ l.pending = [.addDelivery w])
      (hs : SettledAs callback.pspReference w.transactionId d) :
      Phase signing request d true (execute .commit >>= fun _ => dispatch signing request) l
  | delivered {callback p l} (hv : request.verified = .ok callback)
      (h : Delivered callback.pspReference d) (hq : p.Quiet Commits) :
      Phase signing request d false p l
  | ended {p l} (hd : p.Done)
      (h : ∀ callback ack, request.verified = .ok callback → p.result? = some (.ok ack) →
        Notified callback.pspReference d) : Phase signing request d false p l

section Phases

variable {signing : Signing} {request : BankRequest} {callback : Callback} {d d' : Db} {l : Session}
  {p : Sql WebhookAck} {q : Sql CallbackResult} {b : Bool} {psp : String}

/-- The sequel of a lookup of merchants. -/
theorem notify_eq (result : CallbackResult) : notify signing request callback result =
    .call (.selectMerchantByPsp callback.pspReference) fun rows =>
      Prog.ofExcept rows >>= fun rows =>
        scalarOneOrNone rows >>= inform signing request callback result := rfl

/-- **A callback settles its payment.** -/
theorem processing_start :
    Processing callback (processBankCallback callback.event callback.pspReference callback.amount
      request.ids) .closed d := by
  have hsettled : ∀ {res d}, Answered callback.event callback.pspReference res d →
      SettledAs callback.pspReference res.transactionDbId d := by
    rintro res d ⟨t, ht, hpsp, hid, hs⟩
    refine ⟨t, ht, hpsp, hid, ?_⟩
    rw [hs, targetTxn]
    split_ifs <;> decide
  refine ⟨?_, fun _ => ?_, oneShot_processBankCallback _ _ _ _⟩
  · refine outline_processBankCallback (fun _ h => h.1) (fun _ _ h => h) (.inl fun _ h => h.2) ?_ ?_
    · rintro res loaded d ha - - _ h
      cases h
      exact ⟨⟨rfl, rfl⟩, hsettled ha.answered⟩
    · rintro e l d - - res h
      cases h
  · refine outline_processBankCallback (fun _ h => h.1.1) (fun _ _ h => h) (.inl fun _ h => h.1.2)
      ?_ ?_
    · rintro res loaded d ha hreplay -
      refine ⟨fun _ h => ?_, fun _ h => (by cases h)⟩
      cases h
      by_contra hr
      exact (hreplay (Bool.not_eq_false _ ▸ hr)).2 ⟨_, hsettled ha.answered⟩
    · rintro e l d - hj
      exact ⟨fun _ h => (by cases h), fun _ _ => hj.2⟩

/-- One merchant with a url: the delivery is staged next. -/
theorem inform_eq {result : CallbackResult} {m : Merchant} {url : String}
    (hurl : m.webhookUrl = some url) (hne : url ≠ "") (hr : result.replay = false) :
    inform signing request callback result (some m) =
      enqueue signing request (newDelivery signing request callback.event m url result) := by
  simp only [inform, hurl]
  exact if_pos ⟨hne, hr⟩

theorem Phase.owes (h : Phase signing request d true p l) : owes d l p = true := by
  cases h with
  | looking hv hl hs hr hn =>
    obtain ⟨m, url, hm, hurl, hne⟩ := hn
    rw [notify_eq]
    change (!decide (Prog.Done
      (scalarOneOrNone (merchantsOf _ d) >>= inform signing request _ _))) = true
    rw [hm]
    change (!decide (Prog.Done (inform signing request _ _ (some m)))) = true
    rw [inform_eq hurl hne hr]
    rfl
  | staging hv hl hs => rfl
  | committing hv hl hs =>
    change l.pending.any isDelivery = true
    rw [hl.2]
    rfl

/-- A process that has ended closes its session. -/
theorem Phase.proceed (h : Phase signing request d b p l) :
    Phase signing request d b p (database.proceed p l).loc := by
  by_cases hd : p.Done
  · cases h with
    | @processing callback q l hv h =>
      cases q with
      | ret res => exact absurd hd id
      | call s k => exact absurd hd id
      | raise e => exact .ended trivial fun _ _ _ hr => by cases hr
    | looking hv hl hs hr hn => exact absurd hd id
    | staging hv hl hs => exact absurd hd id
    | committing hv hl hs => exact absurd hd id
    | delivered hv h hq => exact .delivered hv h hq
    | ended hd h => exact .ended hd h
  · have hl : (database.proceed p l).loc = l := if_neg hd
    rw [hl]
    exact h

theorem Processing.advance (h : Processing callback q l d) (hf : Frame l.locks d d')
    (ha : Advance d d') : Processing callback q l d' where
  outline := h.outline.interfere hf fun _ _ hq res hr =>
    ⟨(hq res hr).1, ha.settled (hq res hr).2⟩
  fresh hn := by
    have hn' : ¬ Settled callback.pspReference d := fun ⟨id, hs⟩ => hn ⟨id, ha.settled hs⟩
    refine (h.fresh hn').interfere hf fun _ _ hq => ⟨hq.1, fun _ _ => hn⟩
  oneShot := h.oneShot

/-- The steps of the others leave a request where it is. -/
theorem Phase.advance (h : Phase signing request d b p l) (hf : Frame l.locks d d')
    (ha : Advance d d') : Phase signing request d' b p l := by
  cases h with
  | processing hv h => exact .processing hv (h.advance hf ha)
  | looking hv hl hs hr hn => exact .looking hv hl (ha.settled hs) hr (ha.notifiable.mpr hn)
  | staging hv hl hs => exact .staging hv hl (ha.settled hs)
  | committing hv hl hs => exact .committing hv hl (ha.settled hs)
  | delivered hv h hq => exact .delivered hv (ha.delivered h) hq
  | ended hd h =>
    refine .ended hd fun callback ack hv hr m hm url hurl hne => ha.delivered ?_
    rw [ha.merchants] at hm
    exact h callback ack hv hr m hm url hurl hne

/-! ### A turn of a request -/

/-- What a statement of a request does: it advances the database; a payment it settles it owes a
notification for, if there is someone to notify; and what it owed it still owes, or has written. -/
structure Turn (signing : Signing) (request : BankRequest) (d : Db) (b : Bool) (d' : Db) (b' : Bool)
    (p : Sql WebhookAck) (l : Session) : Prop where
  phase : Phase signing request d' b' p l
  advance : Advance d d'
  sane : Sane d'
  settles : ∀ psp, Settled psp d' → Notifiable psp d' →
    Settled psp d ∨ (b' = true ∧ reference request = some psp)
  pays : b = true → b' = true ∨ ∀ psp, reference request = some psp → Delivered psp d'

theorem turn_read {b' : Bool} (hd : Sane d) (h : Phase signing request d b' p l)
    (hb : b = true → b' = true) : Turn signing request d b d b' p l :=
  ⟨h, .refl d, hd, fun _ hs _ => .inl hs, fun h => .inl (hb h)⟩

theorem reference_eq (hv : request.verified = .ok callback) :
    reference request = some callback.pspReference := by
  unfold reference
  rw [hv]

theorem settling_finished (h : settling callback d d') :
    ∃ t i, t.pspReference = some callback.pspReference ∧ Finished t i d d' := by
  cases h with
  | failed he ht ha h => exact ⟨_, _, ht, finished_of_failed h⟩
  | succeeded he ht ha h => exact ⟨_, _, ht, finished_of_succeeded h⟩

/-- A change of `process_bank_callback`. -/
theorem settling_cases (hd : Sane d) (hg : d' = d ∨ settling callback d d') :
    Advance d d' ∧ Sane d' ∧
      ∀ psp, Settled psp d' → Settled psp d ∨ psp = callback.pspReference := by
  rcases hg with rfl | hg
  · exact ⟨.refl _, hd, fun _ hs => .inl hs⟩
  · obtain ⟨t, i, ht, hf⟩ := settling_finished hg
    exact ⟨hf.advance, ⟨hd.1.change hg.change, hg.pspUnique hd.2⟩, fun _ => hf.settled hd.1.keys ht⟩

/-- `process_bank_callback` goes on, or ends. -/
theorem turn_processing {s : Stmt} {k : Except Exc s.Resp → Sql CallbackResult} (hown : Own d l)
    (hd : Sane d) (hv : request.verified = .ok callback)
    (h : Processing callback (.call s k) l d) :
    ∃ b', Turn signing request d false (exec s d l).2.1 b'
      ((k (exec s d l).1).tryCatch (fun exc => throw (webhookException signing exc)) >>=
        notify signing request callback) (exec s d l).2.2 := by
  obtain ⟨hg, hk⟩ := h.outline d (.refl d) ⟨hown, hd, trivial⟩
  have hfresh := fun hn => (h.fresh hn d (.refl d) ⟨hown, ⟨hd, hn⟩, trivial⟩).2
  change (exec s d l).2.1 = d ∨ settling callback d (exec s d l).2.1 at hg
  change Outline _ _ (k (exec s d l).1) (exec s d l).2.2 (exec s d l).2.1 at hk
  change _ → Outline _ _ (k (exec s d l).1) (exec s d l).2.2 (exec s d l).2.1 at hfresh
  rcases h.oneShot with ⟨-, hdone⟩ | ⟨hs, hrest⟩
  · obtain ⟨ha, hsane, hsettled⟩ := settling_cases hd hg
    have hdone := hdone (exec s d l).1
    generalize k (exec s d l).1 = q at hk hfresh hdone
    generalize (exec s d l).2.1 = d' at hk hfresh ha hsane hsettled
    cases q with
    | call s k => exact absurd hdone id
    | raise e =>
      refine ⟨false, .ended trivial fun _ _ _ hr => (by cases hr), ha, hsane,
        fun psp hs _ => .inl ?_, fun hb => (by cases hb)⟩
      by_contra hn
      obtain rfl := (hsettled psp hs).resolve_left hn
      exact (hfresh hn).2 e rfl hs
    | ret res =>
      obtain ⟨hl, hres⟩ := hk res rfl
      by_cases hw : ¬ Settled callback.pspReference d ∧ Notifiable callback.pspReference d'
      · obtain ⟨hn, hw⟩ := hw
        refine ⟨true, .looking hv hl hres ((hfresh hn).1 res rfl) hw, ha, hsane, fun psp hs _ => ?_,
          fun _ => .inl rfl⟩
        refine (hsettled psp hs).imp id fun e => ⟨rfl, ?_⟩
        rw [reference_eq hv, e]
      · refine ⟨false, .processing hv ⟨fun _ h => ?_, fun hn' => absurd ⟨_, hres⟩ hn', trivial⟩, ha,
          hsane, fun psp hs hwp => .inl ?_, fun hb => (by cases hb)⟩
        · cases h
          exact ⟨hl, hres⟩
        · by_contra hn
          obtain rfl := (hsettled psp hs).resolve_left hn
          exact hw ⟨hn, hwp⟩
  · have hsame : (exec s d l).2.1 = d := exec_db fun hc => hs (.inl hc)
    rw [hsame] at hk hfresh ⊢
    exact ⟨false, turn_read hd (.processing hv ⟨hk, hfresh, hrest _⟩) id⟩

/-- The lookup of merchants, after a callback that owes nothing. If the request ends there, what its
merchant wants is delivered. -/
theorem turn_answered {res : CallbackResult} (hd : Sane d) (hl : Idle l)
    (hv : request.verified = .ok callback)
    (hs : SettledAs callback.pspReference res.transactionDbId d)
    (hdone : skips d l (notify signing request callback res) → Notifiable callback.pspReference d →
      Delivered callback.pspReference d) :
    ∃ b', Turn signing request d false d b'
      (scalarOneOrNone (merchantsOf callback.pspReference d) >>=
        inform signing request callback res) l := by
  have hskips : skips d l (notify signing request callback res) =
      decide (Prog.Done (scalarOneOrNone (merchantsOf callback.pspReference d) >>=
        inform signing request callback res)) := rfl
  rw [hskips] at hdone
  have hend : ∀ p : Sql WebhookAck, p.Done → ((∃ ack, p.result? = some (.ok ack)) →
      Notified callback.pspReference d) → ∃ b', Turn signing request d false d b' p l := by
    intro p hp h
    refine ⟨false, turn_read hd (.ended hp fun callback' ack hv' hr => ?_) id⟩
    cases hv.symm.trans hv'
    exact h ⟨ack, hr⟩
  match hm : merchantsOf callback.pspReference d with
  | [] =>
    refine hend _ trivial fun _ m hmem => ?_
    rw [hm] at hmem
    cases hmem
  | _ :: _ :: _ => exact hend _ trivial fun ⟨_, hr⟩ => by cases hr
  | [m] =>
    rw [hm] at hdone
    change ∃ b', Turn signing request d false d b' (inform signing request callback res (some m)) l
    by_cases hw : ∃ url, m.webhookUrl = some url ∧ url ≠ "" ∧ res.replay = false
    · obtain ⟨url, hurl, hne, hr⟩ := hw
      rw [inform_eq hurl hne hr]
      exact ⟨true, turn_read hd (.staging hv hl hs) fun h => by cases h⟩
    · have hret : inform signing request callback res (some m) = .ret accepted := by
        unfold inform
        dsimp only
        split
        · rfl
        · rename_i url hurl
          exact if_neg fun h => hw ⟨url, hurl, h.1, h.2⟩
      have hskip : Prog.Done (scalarOneOrNone [m] >>= inform signing request callback res) := by
        change Prog.Done (inform signing request callback res (some m))
        rw [hret]
        trivial
      rw [hret]
      refine hend _ trivial fun _ m' hmem url hurl hne => ?_
      obtain rfl := List.mem_singleton.mp (hm ▸ hmem)
      exact hdone (decide_eq_true hskip) ⟨m', url, hm, hurl, hne⟩

theorem turn_looking {res : CallbackResult} (hd : Sane d) (hl : Idle l)
    (hv : request.verified = .ok callback)
    (hs : SettledAs callback.pspReference res.transactionDbId d) (hr : res.replay = false)
    (hn : Notifiable callback.pspReference d) :
    Turn signing request d true d true (scalarOneOrNone (merchantsOf callback.pspReference d) >>=
      inform signing request callback res) l := by
  obtain ⟨m, url, hm, hurl, hne⟩ := hn
  rw [hm]
  change Turn signing request d true d true (inform signing request callback res (some m)) l
  rw [inform_eq hurl hne hr]
  exact turn_read hd (.staging hv hl hs) id

/-- The delivery is committed. -/
theorem turn_committing {w : WebhookDelivery} (hd : Sane d) (hv : request.verified = .ok callback)
    (hl : l.inserted = [] ∧ l.pending = [.addDelivery w])
    (hs : SettledAs callback.pspReference w.transactionId d)
    (hflush : ¬ flushFails d l (execute .commit >>= fun _ => dispatch signing request)) :
    Turn signing request d true (exec .commit d l).2.1 false
      (Prog.ofExcept (exec .commit d l).1 >>= fun _ => dispatch signing request)
      (exec .commit d l).2.2 := by
  have hflush : ¬ ((!(l.flush d).isOk) = true) := hflush
  cases hf : l.flush d with
  | error e =>
    rw [hf] at hflush
    exact absurd rfl hflush
  | ok d' =>
    have hw : d' = withDelivery w d := by
      unfold Session.flush at hf
      rw [hl.1, hl.2, List.append_nil] at hf
      obtain ⟨d₁, h₁, hf⟩ := bind_ok hf
      cases hf
      obtain rfl := addDelivery_ok h₁
      rfl
    subst hw
    simp only [exec, hf]
    have hdelivered : Delivered callback.pspReference (withDelivery w d) :=
      delivered_withDelivery hs
    refine ⟨.delivered hv hdelivered ?_, advance_withDelivery w d,
      ⟨consistent_withDelivery hd.1, hd.2⟩,
      fun _ hs _ => .inl hs, fun _ => .inr fun psp hpsp => ?_⟩
    · refine (quiet_execute (by simp [Commits])).bind fun _ => ?_
      exact (quiet_execute (by simp [Commits])).bind fun _ =>
        Prog.quiet_ofExcept.bind fun _ => trivial
    · rw [reference_eq hv] at hpsp
      cases hpsp
      exact hdelivered

end Phases

/-! ### The invariant of a run -/

section Runs

variable {ι : Type} {signing : Signing} {requests : ι → BankRequest} {d : Db} {i : ι}
  {c c' : Config sql Db Session ι WebhookAck} {owing : ι → Bool}

/-- Every request stands somewhere, and what is settled is delivered, or some request owes it. -/
structure Inv (signing : Signing) (requests : ι → BankRequest)
    (c : Config sql Db Session ι WebhookAck) (owing : ι → Bool) : Prop where
  sane : Sane c.shared
  pool : isolation.Pool c
  phase : ∀ i, Phase signing (requests i) c.shared (owing i) (c.procs i).prog (c.procs i).loc
  delivered : ∀ psp, Settled psp c.shared → Notifiable psp c.shared →
    Delivered psp c.shared ∨ ∃ i, owing i = true ∧ reference (requests i) = some psp

theorem inv_pool (hd : Sane d)
    (h : ∀ psp, Settled psp d → Notifiable psp d → Delivered psp d) :
    Inv signing requests (pool signing requests d) fun _ => false := by
  refine ⟨hd, isolation.pool_start d _, fun i => ?_, fun psp hs hn => .inl (h psp hs hn)⟩
  change Phase signing (requests i) d false (bankCallback signing (requests i)) .closed
  unfold bankCallback
  cases hv : (requests i).verified with
  | error e => exact .ended trivial fun _ _ _ hr => by cases hr
  | ok callback => exact .processing hv processing_start

theorem Inv.owes (h : Inv signing requests c owing) (hi : owing i = true) : Owes c i := by
  have hp := h.phase i
  rw [hi] at hp
  exact hp.owes

/-- A request that has answered leaves no one to be notified. -/
theorem Inv.answered (h : Inv signing requests c owing) {callback : Callback} {ack : WebhookAck}
    (hv : (requests i).verified = .ok callback) (hr : (c.procs i).prog.result? = some (.ok ack)) :
    Notified callback.pspReference c.shared := by
  have hph := h.phase i
  generalize (c.procs i).prog = p at hph hr
  generalize (c.procs i).loc = l at hph
  generalize owing i = b at hph
  cases hph with
  | @processing callback q l hv hq => cases q <;> cases hr
  | looking hv hl hs hr' hn => cases hr
  | staging hv hl hs => cases hr
  | committing hv hl hs => cases hr
  | delivered hv' hd hq =>
    cases hv.symm.trans hv'
    exact fun _ _ _ _ _ => hd
  | ended hd h => exact h callback ack hv hr

variable [DecidableEq ι]

/-- A turn of one request, seen from all. -/
theorem Inv.turn (h : Inv signing requests c owing) (he : database.Enabled c i) {s : Stmt}
    {k : Except Exc s.Resp → Sql WebhookAck} (hp : (c.procs i).prog = Prog.call s k) (b' : Bool)
    (ht : Turn signing (requests i) c.shared (owing i) (exec s c.shared (c.procs i).loc).2.1 b'
      (k (exec s c.shared (c.procs i).loc).1) (exec s c.shared (c.procs i).loc).2.2) :
    Inv signing requests (database.fire c i) (Function.update owing i b') := by
  have hpool := isolation.pool_step h.pool (.fire he)
  obtain ⟨s', k', hp', hw⟩ := he
  rw [hp] at hp'
  cases hp'
  rw [Machine.fire_call hp] at hpool ⊢
  refine ⟨ht.sane, hpool, fun j => ?_, fun psp hs hn => ?_⟩
  · by_cases hj : j = i
    · subst hj
      simp only [Function.update_self]
      exact ht.phase.proceed
    · simp only [Function.update_of_ne hj]
      exact (h.phase j).advance (frame_exec (hw j hj)) ht.advance
  · rcases ht.settles psp hs hn with hs | ⟨hb, hr⟩
    · rcases h.delivered psp hs (ht.advance.notifiable.mp hn) with hd | ⟨j, hj, hr⟩
      · exact .inl (ht.advance.delivered hd)
      · by_cases hji : j = i
        · subst hji
          rcases ht.pays hj with hb | hd
          · exact .inr ⟨j, by rw [Function.update_self, hb], hr⟩
          · exact .inl (hd psp hr)
        · exact .inr ⟨j, by rw [Function.update_of_ne hji, hj], hr⟩
    · exact .inr ⟨i, by rw [Function.update_self, hb], hr⟩

theorem Inv.fire (h : Inv signing requests c owing) (hP : Orderly requests c (.fire i))
    (he : database.Enabled c i) :
    ∃ b', Inv signing requests (database.fire c i) (Function.update owing i b') := by
  obtain ⟨s, k, hp, hw⟩ := id he
  have hph := h.phase i
  have hown : Own c.shared (c.procs i).loc := h.pool.own i
  have howes := fun hi => hP.1 (h.owes (i := i) hi)
  have hskips := hP.2
  have hturn := fun (s : Stmt) (k : Except Exc s.Resp → Sql WebhookAck) hp =>
    h.turn (s := s) (k := k) he hp
  generalize hprog : (c.procs i).prog = p at hph howes hskips hturn
  generalize (c.procs i).loc = l at hph hown howes hskips hturn
  generalize howing : owing i = b at hph howes hturn
  cases hph with
  | @processing callback q l hv hq =>
    cases q with
    | call s k =>
      obtain ⟨b', ht⟩ := turn_processing hown h.sane hv hq
      exact ⟨b', hturn _ _ rfl b' ht⟩
    | ret res =>
      obtain ⟨hl, hs⟩ := hq.outline res rfl
      obtain ⟨b', ht⟩ := turn_answered h.sane hl hv hs fun hskip hn => by
        -- no one else owes this notification
        refine (h.delivered _ ⟨_, hs⟩ hn).resolve_right ?_
        rintro ⟨j, hj, hr⟩
        exact hskips hskip j (h.owes hj) (hr.trans (reference_eq hv).symm)
      exact ⟨b', hturn _ _ rfl b' ht⟩
    | raise e => rw [hp] at hprog; cases hprog
  | looking hv hl hs hr hn => exact ⟨true, hturn _ _ rfl true (turn_looking h.sane hl hv hs hr hn)⟩
  | staging hv hl hs =>
    refine ⟨true, hturn _ _ rfl true (turn_read h.sane (.committing hv ⟨hl.1, ?_⟩ hs) id)⟩
    change _ ++ [_] = [_]
    rw [hl.2]
    rfl
  | committing hv hl hs =>
    exact ⟨false, hturn _ _ rfl false (turn_committing h.sane hv hl hs (howes rfl))⟩
  | @delivered callback q l hv hd hq =>
    cases hprog.symm.trans hp
    have hsame : (exec s c.shared l).2.1 = c.shared := exec_db hq.1
    refine ⟨false, hturn _ _ rfl false ?_⟩
    rw [hsame]
    exact turn_read h.sane (.delivered hv hd (hq.2 _)) id
  | ended hd _ => rw [hprog.symm.trans hp] at hd; exact absurd hd id

theorem Inv.kill (h : Inv signing requests c owing) (hP : Orderly requests c (.kill i))
    (hi : ¬ (c.procs i).prog.Done) : Inv signing requests (database.kill c i) owing := by
  have howing : owing i = false := by
    by_contra hb
    exact hP (h.owes (Bool.not_eq_false _ ▸ hb))
  refine ⟨h.sane, isolation.pool_step h.pool (.kill hi), fun j => ?_, h.delivered⟩
  by_cases hj : j = i
  · subst hj
    rw [howing]
    simp only [Machine.kill, Function.update_self]
    exact .ended trivial fun _ _ _ hr => by cases hr
  · simp only [Machine.kill, Function.update_of_ne hj]
    exact h.phase j

/-- **Every state of an orderly run** has the invariant. -/
theorem Inv.run (h : Inv signing requests c owing) (hr : database.Run (Orderly requests) c c') :
    ∃ owing, Inv signing requests c' owing := by
  refine hr.invariant (fun c => ∃ owing, Inv signing requests c owing) ⟨owing, h⟩ ?_
  rintro c m c' ⟨owing, h⟩ hP hs
  cases hs with
  | fire he =>
    obtain ⟨b', h'⟩ := h.fire hP he
    exact ⟨_, h'⟩
  | kill hd => exact ⟨_, h.kill hP hd⟩

end Runs

end PaymentGateway.Runs.Notifications
