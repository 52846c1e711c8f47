import PaymentGateway.Runs.Notifications
import PaymentGateway.Specs.Notification

/-! # The deliveries of a run

A pool of requests to `bank_callback` in any interleaving; requests may die and commits may fail. At
most one request answers a payment without a replay, and it alone may write a delivery for it: from
then on it holds the transaction (`Stand`), until it has committed the delivery or ended. What the
delivery says was true when the payment was settled, and a settled payment does not change
(`Keeps`). -/

namespace PaymentGateway.Runs.Deliveries

open PaymentGateway.Core.Ids PaymentGateway.Models PaymentGateway.Schemas
open PaymentGateway.Lib.Program PaymentGateway.Lib.Sessions PaymentGateway.Lib.Interference
open PaymentGateway.Lib.Tables PaymentGateway.Db.Statements PaymentGateway.Db.Locking
open PaymentGateway.Db.Flush PaymentGateway.Db.Replay PaymentGateway.Services.Webhook
open PaymentGateway.Api.Webhooks PaymentGateway.State.Changes PaymentGateway.State.Invariant
open PaymentGateway.State.Outbox PaymentGateway.Outlines.Rules PaymentGateway.Outlines.Webhook
open PaymentGateway.Runs.Shapes PaymentGateway.Runs.Notifications
open PaymentGateway.Specs.Notification

/-! ### What a delivery says -/

/-- The delivery is for the merchant of its transaction, and tells how that has ended. -/
def Agrees (w : WebhookDelivery) (d : Db) : Prop :=
  ∃ t ∈ d.transactions, ∃ i ∈ d.intents, t.id = w.transactionId ∧ i.id = t.intentId ∧
    w.merchantId = i.merchantId ∧ Describes w.payload t i

/-- The delivery is as the endpoint writes it for its transaction, which the event has settled. -/
def Written (w : WebhookDelivery) (d : Db) : Prop :=
  ∃ t ∈ d.transactions, ∃ i ∈ d.intents, t.id = w.transactionId ∧ i.id = t.intentId ∧
    w.merchantId = i.merchantId ∧ ∃ event, t.state = targetTxn event ∧
      w.payload = notification event ⟨false, t.id, t.publicId, some i.publicId, t.state.value⟩

/-- The result is the answer of a callback that has settled a payment of the reference. -/
def Tells (callback : Callback) (res : CallbackResult) (d : Db) : Prop :=
  ∃ t ∈ d.transactions, ∃ i ∈ d.intents, i.id = t.intentId ∧
    t.pspReference = some callback.pspReference ∧ t.state = targetTxn callback.event ∧
    res = settledResult t i callback.event

/-- Transactions that are settled stay as they are; intents keep their ids and merchants. -/
structure Keeps (d d' : Db) : Prop where
  settled : ∀ t ∈ d.transactions, t.state ≠ .pending → t ∈ d'.transactions
  intents : ∀ i ∈ d.intents, ∃ j ∈ d'.intents,
    j.id = i.id ∧ j.publicId = i.publicId ∧ j.merchantId = i.merchantId

section Settled

variable {d d' : Db} {t : Transaction} {i : PaymentIntent} {w : WebhookDelivery}
  {callback : Callback} {event : BankCallbackEvent} {res : CallbackResult}

theorem targetTxn_ne_pending : targetTxn event ≠ .pending := by
  cases event <;> decide

theorem targetIntent_value : (targetIntent event).value = (targetTxn event).value := by
  cases event <;> rfl

theorem Keeps.refl (d : Db) : Keeps d d := ⟨fun _ h _ => h, fun i h => ⟨i, h, rfl, rfl, rfl⟩⟩

theorem keeps_finished (k : Keys d) (ht : t ∈ d.transactions) (hs : t.state = .pending)
    (h : Finished t i d d') : Keeps d d' := by
  obtain ⟨status, hi⟩ := h.intents
  obtain ⟨state, -, ht'⟩ := h.transactions
  refine ⟨fun u hu hsu => ?_, fun j hj => ⟨withStatus i.id status j, ?_, by simp⟩⟩
  · have hne : u.id ≠ t.id := fun e => by
      obtain rfl := eq_of_key k.transactions hu ht e
      exact hsu hs
    rw [ht']
    exact List.mem_map.mpr ⟨u, hu, withState_of_ne hne⟩
  · rw [hi]
    exact List.mem_map_of_mem hj

theorem Keeps.written (h : Keeps d d') (hw : Written w d) : Written w d' := by
  obtain ⟨t, ht, i, hi, htw, hit, hm, event, hstate, hp⟩ := hw
  obtain ⟨j, hj, hid, hpublic, hmerchant⟩ := h.intents i hi
  refine ⟨t, h.settled t ht (hstate ▸ targetTxn_ne_pending), j, hj, htw, hid.trans hit,
    hm.trans hmerchant.symm, event, hstate, ?_⟩
  rw [hpublic]
  exact hp

theorem Keeps.tells (h : Keeps d d') (hr : Tells callback res d) : Tells callback res d' := by
  obtain ⟨t, ht, i, hi, hit, hpsp, hstate, hres⟩ := hr
  obtain ⟨j, hj, hid, hpublic, -⟩ := h.intents i hi
  refine ⟨t, h.settled t ht (hstate ▸ targetTxn_ne_pending), j, hj, hid.trans hit, hpsp, hstate, ?_⟩
  rw [settledResult, hpublic]
  exact hres

/-- The transaction of a delivery is settled. -/
theorem Written.settled (h : Written w d) :
    ∃ t ∈ d.transactions, t.id = w.transactionId ∧ t.state ≠ .pending := by
  obtain ⟨t, ht, i, -, htw, -, -, event, hstate, -⟩ := h
  exact ⟨t, ht, htw, hstate ▸ targetTxn_ne_pending⟩

theorem Written.agrees (h : Written w d) : Agrees w d := by
  obtain ⟨t, ht, i, hi, htw, hit, hm, event, hstate, hp⟩ := h
  exact ⟨t, ht, i, hi, htw, hit, hm, hp ▸ describes_notification hstate false t.id⟩

theorem Tells.settled (h : Tells callback res d) :
    ∃ t ∈ d.transactions, t.id = res.transactionDbId ∧ t.state ≠ .pending := by
  obtain ⟨t, ht, i, -, -, -, hstate, rfl⟩ := h
  exact ⟨t, ht, rfl, hstate ▸ targetTxn_ne_pending⟩

/-- The delivery that is made of the answer, for the merchant of its payment. -/
theorem written_newDelivery (h : Tells callback res d) {m : Merchant}
    (hm : ∀ t ∈ d.transactions, t.pspReference = some callback.pspReference →
      ∀ i ∈ d.intents, i.id = t.intentId → i.merchantId = m.id) {signing : Signing}
    {request : BankRequest} {url : String} :
    Written (newDelivery signing request callback.event m url res) d := by
  obtain ⟨t, ht, i, hi, hit, hpsp, hstate, rfl⟩ := h
  refine ⟨t, ht, i, hi, rfl, hit, (hm t ht hpsp i hi hit).symm, callback.event, hstate, ?_⟩
  rw [hstate, ← targetIntent_value]
  rfl

/-- A reference that has one transaction has one merchant. -/
theorem merchant_of_unique (k : Keys d) (hunique : PspUnique d) {psp : String} {m : Merchant}
    (hm : m ∈ merchantsOf psp d) (ht : t ∈ d.transactions) (hpsp : t.pspReference = some psp)
    (hi : i ∈ d.intents) (hit : i.id = t.intentId) : i.merchantId = m.id := by
  obtain ⟨-, j, hj, hjm, u, hu, huj, hupsp⟩ := mem_merchantsOf.mp hm
  obtain rfl := eq_of_key hunique ht hu (hpsp.trans hupsp.symm)
  obtain rfl := eq_of_key k.intents hi hj (hit.trans huj)
  exact hjm

/-- A reference for which one row is found has one merchant. -/
theorem merchant_of_single (howned : Owned d) {psp : String} {m : Merchant}
    (hm : merchantsOf psp d = [m]) (ht : t ∈ d.transactions) (hpsp : t.pspReference = some psp)
    (hi : i ∈ d.intents) (hit : i.id = t.intentId) : i.merchantId = m.id := by
  obtain ⟨m', hm', hmi⟩ := howned i hi
  have hmem : m' ∈ merchantsOf psp d :=
    mem_merchantsOf.mpr ⟨hm', i, hi, hmi.symm, t, ht, hit.symm, hpsp⟩
  rw [hm] at hmem
  rw [← List.mem_singleton.mp hmem, hmi]

end Settled

/-! ### Where a request stands -/

/-- If `s` is the commit, the payment is settled already. -/
def LateCommit (callback : Callback) (s : Stmt) (d : Db) : Prop :=
  s = .commit → Sane d ∧ Settled callback.pspReference d

/-- `p` is what is left of `process_bank_callback`, under way. It answers with what has become of
the payment; and if the payment was settled when it committed, its answer is a replay. -/
structure Processed (callback : Callback) (p : Sql CallbackResult) (l : Session) (d : Db) :
    Prop where
  going : ¬ p.Done
  outline : Outline (contract Sane (fun _ _ _ => True) (settling callback))
    (fun r l d => ∀ res, r = .ok res →
      Idle l ∧ Reported callback.event callback.pspReference res d) p l d
  replay : Outline (contract Sane (fun s d _ => LateCommit callback s d) (settling callback))
    (fun r _ _ => ∀ res, r = .ok res → res.replay = true) p l d
  oneShot : p.OneShot Ends

/-- What is left of a request, and its session. The option is the transaction it holds. -/
inductive Stand (signing : Signing) (request : BankRequest) (d : Db) :
    Option UUID → Sql WebhookAck → Session → Prop
  | processing {callback p l} (hv : request.verified = .ok callback)
      (h : Processed callback p l d) :
      Stand signing request d none
        (p.tryCatch (fun exc => throw (webhookException signing exc)) >>=
          notify signing request callback) l
  | notifying {callback res l} (hv : request.verified = .ok callback) (hl : Idle l)
      (h : Tells callback res d) :
      Stand signing request d (some res.transactionDbId) (notify signing request callback res) l
  | staging {w l} (hl : Idle l) (h : Written w d) :
      Stand signing request d (some w.transactionId) (enqueue signing request w) l
  | committing {w l} (hl : l.inserted = [] ∧ l.pending = [.addDelivery w]) (h : Written w d) :
      Stand signing request d (some w.transactionId)
        (execute .commit >>= fun _ => dispatch signing request) l
  | quiet {p l} (hq : p.Quiet Commits) : Stand signing request d none p l

section Stands

variable {signing : Signing} {request : BankRequest} {callback : Callback} {d d' : Db} {l : Session}
  {p : Sql WebhookAck} {q : Sql CallbackResult} {b b' : Option UUID} {res : CallbackResult}

theorem processed_start :
    Processed callback (processBankCallback callback.event callback.pspReference callback.amount
      request.ids) .closed d := by
  refine ⟨Prog.not_done_call _ _, ?_, ?_, oneShot_processBankCallback _ _ _ _⟩
  · refine outline_processBankCallback (fun _ h => h.1) (fun _ _ h => h) (.inl fun _ h => h.2) ?_ ?_
    · rintro res loaded d hr - - _ h
      cases h
      exact ⟨⟨rfl, rfl⟩, hr⟩
    · rintro e l d - - res h
      cases h
  · refine outline_processBankCallback (fun _ h => h.1) (fun _ _ h => h) (.inl fun _ h => h.2) ?_ ?_
    · rintro res loaded d - - hawaited _ h
      cases h
      by_contra hr
      -- at its commit the payment was settled, and waited for the callback
      obtain ⟨l₀, d₀, hs, t, ht, hpsp, hpending⟩ := hawaited (Bool.not_eq_true _ ▸ hr)
      obtain ⟨hd, id, u, hu, hupsp, -, hsettled⟩ := hs rfl
      obtain rfl := eq_of_key hd.2 ht hu (hpsp.trans hupsp.symm)
      exact hsettled hpending
    · rintro e l d - - res h
      cases h

/-- A request that holds a transaction has settled it. -/
theorem Stand.settled {x : UUID} (h : Stand signing request d (some x) p l) :
    ∃ t ∈ d.transactions, t.id = x ∧ t.state ≠ .pending := by
  cases h with
  | notifying hv hl h => exact h.settled
  | staging hl h => exact h.settled
  | committing hl h => exact h.settled

/-- A process that has ended closes its session. -/
theorem Stand.proceed (h : Stand signing request d b p l) :
    Stand signing request d b p (database.proceed p l).loc := by
  by_cases hd : p.Done
  · cases h with
    | @processing callback q l hv h =>
      cases q with
      | call s k => exact absurd hd id
      | ret res => exact absurd trivial h.going
      | raise e => exact absurd trivial h.going
    | notifying hv hl h => exact absurd hd id
    | staging hl h => exact absurd hd id
    | committing hl h => exact absurd hd id
    | quiet hq => exact .quiet hq
  · have hl : (database.proceed p l).loc = l := if_neg hd
    rw [hl]
    exact h

/-- The steps of the others leave a request where it is. -/
theorem Stand.keeps (h : Stand signing request d b p l) (hf : Frame l.locks d d')
    (hk : Keeps d d') : Stand signing request d' b p l := by
  cases h with
  | processing hv h =>
    exact .processing hv ⟨h.going,
      h.outline.interfere hf fun _ hr => absurd (Prog.done_of_result hr) h.going,
      h.replay.interfere hf fun _ hr => absurd (Prog.done_of_result hr) h.going, h.oneShot⟩
  | notifying hv hl h => exact .notifying hv hl (hk.tells h)
  | staging hl h => exact .staging hl (hk.written h)
  | committing hl h => exact .committing hl (hk.written h)
  | quiet hq => exact .quiet hq

/-! ### A turn of a request -/

/-- What a statement of a request does: it keeps what is settled; it takes hold of a transaction
only when it settles it; and it writes no delivery but one for the transaction that it holds. -/
structure Turn (signing : Signing) (request : BankRequest) (d : Db) (b : Option UUID) (d' : Db)
    (b' : Option UUID) (p : Sql WebhookAck) (l : Session) : Prop where
  stand : Stand signing request d' b' p l
  keeps : Keeps d d'
  sane : Sane d'
  takes : ∀ x, b' = some x → b = some x ∨ ∃ t ∈ d.transactions, t.id = x ∧ t.state = .pending
  writes : d'.deliveries = d.deliveries ∨
    ∃ w, b = some w.transactionId ∧ b' = none ∧ Written w d ∧ d'.deliveries = d.deliveries ++ [w]

theorem turn_same (hd : Sane d) (h : Stand signing request d b' p l)
    (hb : b' = none ∨ b' = b) : Turn signing request d b d b' p l := by
  refine ⟨h, .refl d, hd, fun x hx => .inl ?_, .inl rfl⟩
  rcases hb with rfl | rfl
  · cases hx
  · exact hx

/-- An answer that is a replay is followed by no commit. -/
theorem quiet_notify (hr : res.replay = true) :
    (notify signing request callback res).Quiet Commits := by
  unfold notify
  refine (quiet_execute (by simp [Commits])).bind fun rows => ?_
  refine quiet_scalarOneOrNone.bind fun merchant => ?_
  unfold inform
  cases merchant with
  | none => trivial
  | some m =>
    dsimp only
    split
    · trivial
    · rw [if_neg (by simp [hr])]
      trivial

/-- A change that `process_bank_callback` commits. -/
theorem settling_keeps (hd : Sane d) (hg : d' = d ∨ settling callback d d') :
    Keeps d d' ∧ Sane d' ∧ d'.deliveries = d.deliveries := by
  rcases hg with rfl | hg
  · exact ⟨.refl _, hd, rfl⟩
  · obtain ⟨hd', -⟩ := (settling_cases hd (.inr hg)).2
    cases hg with
    | failed he ht ha h =>
      exact ⟨keeps_finished hd.1.keys h.txn h.pending (finished_of_failed h), hd', by rw [h.db]⟩
    | succeeded he ht ha h =>
      exact ⟨keeps_finished hd.1.keys h.txn h.pending (finished_of_succeeded h), hd', by rw [h.db]⟩

/-- A payment that was not settled, and is now, was waiting for its callback. -/
theorem tells_pending (hd : Sane d) (hg : d' = d ∨ settling callback d d') (hd' : Sane d')
    (hn : ¬ Settled callback.pspReference d) (h : Tells callback res d') :
    ∃ t ∈ d.transactions, t.id = res.transactionDbId ∧ t.state = .pending := by
  obtain ⟨u, hu, i, -, -, hpsp, hstate, rfl⟩ := h
  rcases hg with rfl | hg
  · exact absurd ⟨u.id, u, hu, hpsp, rfl, hstate ▸ targetTxn_ne_pending⟩ hn
  · have hopen : ∃ t i, t.pspReference = some callback.pspReference ∧ t.state = .pending ∧
        Finished t i d d' := by
      cases hg with
      | failed he ht ha h => exact ⟨_, _, ht, h.pending, finished_of_failed h⟩
      | succeeded he ht ha h => exact ⟨_, _, ht, h.pending, finished_of_succeeded h⟩
    obtain ⟨t, j, ht, hpending, hf⟩ := hopen
    obtain ⟨state, -, hts⟩ := hf.transactions
    have hmem : withState t.id state t ∈ d'.transactions := hts ▸ List.mem_map_of_mem hf.txn
    obtain rfl := eq_of_key hd'.2 hmem hu (by rw [withState_pspReference, ht, hpsp])
    exact ⟨t, hf.txn, by rw [settledResult, withState_id], hpending⟩

/-- `process_bank_callback` goes on, or ends. -/
theorem turn_processing {s : Stmt} {k : Except Exc s.Resp → Sql CallbackResult} (hown : Own d l)
    (hd : Sane d) (hv : request.verified = .ok callback)
    (h : Processed callback (.call s k) l d) :
    ∃ b', Turn signing request d none (exec s d l).2.1 b'
      ((k (exec s d l).1).tryCatch (fun exc => throw (webhookException signing exc)) >>=
        notify signing request callback) (exec s d l).2.2 := by
  obtain ⟨hg, hk⟩ := h.outline d (.refl d) ⟨hown, hd, trivial⟩
  have hreplay := fun hs => (h.replay d (.refl d) ⟨hown, hd, hs⟩).2
  change (exec s d l).2.1 = d ∨ settling callback d (exec s d l).2.1 at hg
  change Outline _ _ (k (exec s d l).1) (exec s d l).2.2 (exec s d l).2.1 at hk
  change _ → Outline _ _ (k (exec s d l).1) (exec s d l).2.2 (exec s d l).2.1 at hreplay
  obtain ⟨hkeeps, hd', hdeliveries⟩ := settling_keeps hd hg
  cases hq : k (exec s d l).1 with
  | call s' k' =>
    rw [hq] at hk hreplay
    obtain ⟨hs, hrest⟩ : ¬ Ends s ∧ ∀ r, (k r).OneShot Ends := by
      refine h.oneShot.resolve_left ?_
      rintro ⟨-, hdone⟩
      have := hdone (exec s d l).1
      rw [hq] at this
      exact this
    have hrest := hrest (exec s d l).1
    rw [hq] at hrest
    have hlate : LateCommit callback s d := fun hc => absurd (.inl hc) hs
    exact ⟨none, .processing hv ⟨Prog.not_done_call _ _, hk, hreplay hlate, hrest⟩, hkeeps, hd',
      fun _ hx => (by cases hx), .inl hdeliveries⟩
  | raise e =>
    exact ⟨none, .quiet trivial, hkeeps, hd', fun _ hx => (by cases hx), .inl hdeliveries⟩
  | ret res =>
    rw [hq] at hk hreplay
    obtain ⟨hl, hres⟩ := hk res rfl
    by_cases hr : res.replay = true
    · exact ⟨none, .quiet (quiet_notify hr), hkeeps, hd', fun _ hx => (by cases hx),
        .inl hdeliveries⟩
    · have hn : ¬ Settled callback.pspReference d := fun hset =>
        hr (hreplay (fun _ => ⟨hd, hset⟩) res rfl)
      have htells : Tells callback res (exec s d l).2.1 := by
        obtain ⟨t, ht, i, hi, hit, hpsp, hstate, hres⟩ := hres
        refine ⟨t, ht, i, hi, hit, hpsp, hstate, hres.resolve_left ?_⟩
        rintro rfl
        exact hr rfl
      refine ⟨some res.transactionDbId, .notifying hv hl htells, hkeeps, hd', fun x hx => .inr ?_,
        .inl hdeliveries⟩
      cases hx
      exact tells_pending hd hg hd' hn htells

/-- The lookup of the merchant. -/
theorem turn_notifying (hd : Sane d) (hl : Idle l) (h : Tells callback res d) :
    ∃ b', Turn signing request d (some res.transactionDbId) d b'
      (scalarOneOrNone (merchantsOf callback.pspReference d) >>=
        inform signing request callback res) l := by
  match hm : merchantsOf callback.pspReference d with
  | [] => exact ⟨none, turn_same hd (.quiet trivial) (.inl rfl)⟩
  | _ :: _ :: _ => exact ⟨none, turn_same hd (.quiet trivial) (.inl rfl)⟩
  | [m] =>
    change ∃ b', Turn signing request d _ d b' (inform signing request callback res (some m)) l
    unfold inform
    dsimp only
    split
    · exact ⟨none, turn_same hd (.quiet trivial) (.inl rfl)⟩
    · rename_i url hurl
      split_ifs
      · refine ⟨_, turn_same hd (.staging hl ?_) (.inr rfl)⟩
        exact written_newDelivery h fun t ht hpsp i hi hit => merchant_of_unique hd.1.keys hd.2
          (hm ▸ List.mem_singleton_self m) ht hpsp hi hit
      · exact ⟨none, turn_same hd (.quiet trivial) (.inl rfl)⟩

/-- The commit of the delivery. -/
theorem turn_committing {w : WebhookDelivery} (hd : Sane d)
    (hl : l.inserted = [] ∧ l.pending = [.addDelivery w]) (hw : Written w d) :
    Turn signing request d (some w.transactionId) (exec .commit d l).2.1 none
      (Prog.ofExcept (exec .commit d l).1 >>= fun _ => dispatch signing request)
      (exec .commit d l).2.2 := by
  have hquiet : ∀ r : Except Exc Unit, ((Prog.ofExcept r : Sql Unit) >>= fun _ =>
      dispatch signing request).Quiet Commits := fun r => by
    refine Prog.quiet_ofExcept.bind fun _ => ?_
    refine (quiet_execute (by simp [Commits])).bind fun _ => ?_
    exact (quiet_execute (by simp [Commits])).bind fun _ => Prog.quiet_ofExcept.bind fun _ => trivial
  cases hf : l.flush d with
  | error e =>
    simp only [exec, hf]
    exact turn_same hd (.quiet (hquiet _)) (.inl rfl)
  | ok d' =>
    have hdb : d' = withDelivery w d := by
      unfold Session.flush at hf
      rw [hl.1, hl.2, List.append_nil] at hf
      obtain ⟨d₁, h₁, hf⟩ := bind_ok hf
      cases hf
      obtain rfl := addDelivery_ok h₁
      rfl
    subst hdb
    simp only [exec, hf]
    refine ⟨.quiet (hquiet _), ⟨fun _ h _ => h, fun i hi => ⟨i, hi, rfl, rfl, rfl⟩⟩,
      ⟨consistent_withDelivery hd.1, hd.2⟩, fun _ hx => (by cases hx), .inr ⟨w, rfl, rfl, hw, rfl⟩⟩

end Stands

/-! ### The invariant of a run -/

section Runs

variable {ι : Type} {signing : Signing} {requests : ι → BankRequest} {d : Db} {i : ι}
  {c c' : Config sql Db Session ι WebhookAck} {held : ι → Option UUID}

/-- No two requests hold one transaction, no delivery is for one that is held, no two deliveries
are for one transaction, and each says what has become of it. -/
structure Inv (signing : Signing) (requests : ι → BankRequest)
    (c : Config sql Db Session ι WebhookAck) (held : ι → Option UUID) : Prop where
  sane : Sane c.shared
  pool : isolation.Pool c
  stand : ∀ i, Stand signing (requests i) c.shared (held i) (c.procs i).prog (c.procs i).loc
  distinct : ∀ i j x, held i = some x → held j = some x → i = j
  unwritten : ∀ i x, held i = some x → ∀ w ∈ c.shared.deliveries, w.transactionId ≠ x
  once : (c.shared.deliveries.map (·.transactionId)).Nodup
  written : ∀ w ∈ c.shared.deliveries, Written w c.shared

theorem inv_pool (hd : Sane d) (h : d.deliveries = []) :
    Inv signing requests (pool signing requests d) fun _ => none := by
  have hnone : ∀ w ∈ d.deliveries, Written w d := by simp [h]
  refine ⟨hd, isolation.pool_start d _, fun i => ?_, fun _ _ _ hx => (by cases hx),
    fun _ _ hx => (by cases hx), ?_, hnone⟩
  · change Stand signing (requests i) d none (bankCallback signing (requests i)) .closed
    unfold bankCallback
    cases hv : (requests i).verified with
    | error e => exact .quiet trivial
    | ok callback => exact .processing hv processed_start
  · change (d.deliveries.map _).Nodup
    rw [h]
    exact List.nodup_nil

/-- A transaction that waits for its callback is not held, and has no delivery. -/
theorem Inv.free (h : Inv signing requests c held) {x : UUID}
    (hx : ∃ t ∈ c.shared.transactions, t.id = x ∧ t.state = .pending) :
    (∀ j, held j ≠ some x) ∧ ∀ w ∈ c.shared.deliveries, w.transactionId ≠ x := by
  obtain ⟨t, ht, hid, hpending⟩ := hx
  have hsettled : ¬ ∃ u ∈ c.shared.transactions, u.id = x ∧ u.state ≠ .pending := by
    rintro ⟨u, hu, huid, hus⟩
    obtain rfl := eq_of_key h.sane.1.keys.transactions ht hu (hid.trans huid.symm)
    exact hus hpending
  refine ⟨fun j hj => ?_, fun w hw e => ?_⟩
  · have hs := h.stand j
    rw [hj] at hs
    exact hsettled hs.settled
  · obtain ⟨u, hu, huid, hus⟩ := (h.written w hw).settled
    exact hsettled ⟨u, hu, huid.trans e, hus⟩

/-! A turn of the request `i`, after which it holds `b'`. -/

section Turns

variable {b' : Option UUID} {p' : Sql WebhookAck} {l' : Session}

/-- What the request holds it held before, or no one did: no other request holds it, and no
delivery is for it. -/
theorem Inv.alone (h : Inv signing requests c held)
    (ht : Turn signing (requests i) c.shared (held i) d b' p' l') {x : UUID} (hb : b' = some x) :
    (∀ j, j ≠ i → held j ≠ some x) ∧ ∀ w ∈ c.shared.deliveries, w.transactionId ≠ x := by
  rcases ht.takes x hb with hi | hpending
  · exact ⟨fun j hj hx => hj (h.distinct j i x hx hi), h.unwritten i x hi⟩
  · obtain ⟨hfree, hnew⟩ := h.free hpending
    exact ⟨fun j _ => hfree j, hnew⟩

theorem Inv.once_turn (h : Inv signing requests c held)
    (ht : Turn signing (requests i) c.shared (held i) d b' p' l') :
    (d.deliveries.map (·.transactionId)).Nodup := by
  rcases ht.writes with hsame | ⟨v, hv, -, -, happend⟩
  · rw [hsame]
    exact h.once
  · rw [happend]
    exact nodup_append_key h.once (h.unwritten i _ hv)

theorem Inv.written_turn (h : Inv signing requests c held)
    (ht : Turn signing (requests i) c.shared (held i) d b' p' l') (w : WebhookDelivery)
    (hw : w ∈ d.deliveries) : Written w d := by
  rcases ht.writes with hsame | ⟨v, -, -, hwritten, happend⟩
  · rw [hsame] at hw
    exact ht.keeps.written (h.written w hw)
  · rw [happend] at hw
    rcases List.mem_append.mp hw with hw | hw
    · exact ht.keeps.written (h.written w hw)
    · rw [List.mem_singleton.mp hw]
      exact ht.keeps.written hwritten

variable [DecidableEq ι]

theorem held_cases {j : ι} {x : UUID} (hx : Function.update held i b' j = some x) :
    (j = i ∧ b' = some x) ∨ (j ≠ i ∧ held j = some x) := by
  by_cases hj : j = i
  · subst hj
    exact .inl ⟨rfl, by simpa using hx⟩
  · exact .inr ⟨hj, by simpa [Function.update_of_ne hj] using hx⟩

theorem Inv.distinct_turn (h : Inv signing requests c held)
    (ht : Turn signing (requests i) c.shared (held i) d b' p' l') (j j' : ι) (x : UUID)
    (hj : Function.update held i b' j = some x) (hj' : Function.update held i b' j' = some x) :
    j = j' := by
  rcases held_cases hj with ⟨rfl, hb⟩ | ⟨hne, hx⟩ <;>
    rcases held_cases hj' with ⟨rfl, hb'⟩ | ⟨hne', hx'⟩
  · rfl
  · exact absurd hx' ((h.alone ht hb).1 _ hne')
  · exact absurd hx ((h.alone ht hb').1 _ hne)
  · exact h.distinct j j' x hx hx'

/-- A delivery that is written is for what its writer held, and does not hold any more. -/
theorem Inv.unwritten_turn (h : Inv signing requests c held)
    (ht : Turn signing (requests i) c.shared (held i) d b' p' l') (j : ι) (x : UUID)
    (hj : Function.update held i b' j = some x) (w : WebhookDelivery) (hw : w ∈ d.deliveries) :
    w.transactionId ≠ x := by
  rcases ht.writes with hsame | ⟨v, hv, hb', -, happend⟩
  · rw [hsame] at hw
    rcases held_cases hj with ⟨rfl, hb⟩ | ⟨hne, hx⟩
    · exact (h.alone ht hb).2 w hw
    · exact h.unwritten j x hx w hw
  · rcases held_cases hj with ⟨rfl, hb⟩ | ⟨hne, hx⟩
    · rw [hb'] at hb
      cases hb
    · rw [happend] at hw
      rcases List.mem_append.mp hw with hw | hw
      · exact h.unwritten j x hx w hw
      · rw [List.mem_singleton.mp hw]
        rintro rfl
        exact hne (h.distinct j i _ hx hv)

/-- The turn, seen from all. -/
theorem Inv.turn (h : Inv signing requests c held) (he : database.Enabled c i) {s : Stmt}
    {k : Except Exc s.Resp → Sql WebhookAck} (hp : (c.procs i).prog = Prog.call s k)
    (b' : Option UUID)
    (ht : Turn signing (requests i) c.shared (held i) (exec s c.shared (c.procs i).loc).2.1 b'
      (k (exec s c.shared (c.procs i).loc).1) (exec s c.shared (c.procs i).loc).2.2) :
    Inv signing requests (database.fire c i) (Function.update held i b') := by
  have hpool := isolation.pool_step h.pool (.fire he)
  obtain ⟨s', k', hp', hw⟩ := he
  rw [hp] at hp'
  cases hp'
  rw [Machine.fire_call hp] at hpool ⊢
  refine ⟨ht.sane, hpool, fun j => ?_, h.distinct_turn ht, h.unwritten_turn ht, h.once_turn ht,
    h.written_turn ht⟩
  by_cases hj : j = i
  · subst hj
    simp only [Function.update_self]
    exact ht.stand.proceed
  · simp only [Function.update_of_ne hj]
    exact (h.stand j).keeps (frame_exec (hw j hj)) ht.keeps

end Turns

variable [DecidableEq ι]

theorem Inv.fire (h : Inv signing requests c held) (he : database.Enabled c i) :
    ∃ b', Inv signing requests (database.fire c i) (Function.update held i b') := by
  obtain ⟨s, k, hp, hw⟩ := id he
  have hstand := h.stand i
  have hown : Own c.shared (c.procs i).loc := h.pool.own i
  have hturn := fun (s : Stmt) (k : Except Exc s.Resp → Sql WebhookAck) hp =>
    h.turn (s := s) (k := k) he hp
  generalize hprog : (c.procs i).prog = p at hstand hturn
  generalize (c.procs i).loc = l at hstand hown hturn
  generalize held i = b at hstand hturn
  cases hstand with
  | @processing callback q l hv hq =>
    cases q with
    | call s k =>
      obtain ⟨b', ht⟩ := turn_processing hown h.sane hv hq
      exact ⟨b', hturn _ _ rfl b' ht⟩
    | ret res => exact absurd trivial hq.going
    | raise e => exact absurd trivial hq.going
  | notifying hv hl htells =>
    obtain ⟨b', ht⟩ := turn_notifying h.sane hl htells
    exact ⟨b', hturn _ _ rfl b' ht⟩
  | staging hl hw =>
    refine ⟨_, hturn _ _ rfl _ (turn_same h.sane (.committing ⟨hl.1, ?_⟩ hw) (.inr rfl))⟩
    change _ ++ [_] = [_]
    rw [hl.2]
    rfl
  | committing hl hw => exact ⟨none, hturn _ _ rfl none (turn_committing h.sane hl hw)⟩
  | @quiet q l hq =>
    cases hprog.symm.trans hp
    have hsame : (exec s c.shared l).2.1 = c.shared := exec_db hq.1
    refine ⟨none, hturn _ _ rfl none ?_⟩
    rw [hsame]
    exact turn_same h.sane (.quiet (hq.2 _)) (.inl rfl)

theorem Inv.kill (h : Inv signing requests c held) (hi : ¬ (c.procs i).prog.Done) :
    Inv signing requests (database.kill c i) (Function.update held i none) := by
  have hupdate : ∀ j x, Function.update held i none j = some x → held j = some x := by
    intro j x hx
    rcases held_cases hx with ⟨-, hb⟩ | ⟨-, hx⟩
    · cases hb
    · exact hx
  refine ⟨h.sane, isolation.pool_step h.pool (.kill hi), fun j => ?_,
    fun j j' x hj hj' => h.distinct j j' x (hupdate j x hj) (hupdate j' x hj'),
    fun j x hj => h.unwritten j x (hupdate j x hj), h.once, h.written⟩
  by_cases hj : j = i
  · subst hj
    simp only [Machine.kill, Function.update_self]
    exact .quiet trivial
  · simp only [Machine.kill, Function.update_of_ne hj]
    exact h.stand j

/-- **Every state of every run** has the invariant. -/
theorem Inv.run (h : Inv signing requests c held)
    (hr : database.Run (fun _ _ => True) c c') : ∃ held, Inv signing requests c' held := by
  refine hr.invariant (fun c => ∃ held, Inv signing requests c held) ⟨held, h⟩ ?_
  rintro c m c' ⟨held, h⟩ - hs
  cases hs with
  | fire he =>
    obtain ⟨b', h'⟩ := h.fire he
    exact ⟨_, h'⟩
  | kill hd => exact ⟨_, h.kill hd⟩

end Runs

end PaymentGateway.Runs.Deliveries
