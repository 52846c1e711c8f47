import PaymentGateway.Runs.Deliveries
import PaymentGateway.Runs.Serial

/-! # No notification is lost, or sent twice

Once a callback is acknowledged, the merchant's notification is in the outbox, if every request that
has settled a payment gets as far as committing its delivery, and no other request for the payment
is acknowledged before. A request that dies in between takes the notification with it: the callback
that is sent again counts as a replay. Whatever dies or fails, no payment has two deliveries, and
what a delivery says is true. -/

namespace PaymentGateway.Results.Notifications

open PaymentGateway.Core.Ids PaymentGateway.Models PaymentGateway.Schemas
open PaymentGateway.Lib.Program PaymentGateway.Lib.Sessions PaymentGateway.Lib.Tables
open PaymentGateway.Db.Statements PaymentGateway.Services.Webhook PaymentGateway.Api.Webhooks
open PaymentGateway.State.Outbox PaymentGateway.Runs.Serial PaymentGateway.Runs.Notifications
open PaymentGateway.Runs.Deliveries (Agrees)

/-- The transactions of the reference have a delivery, if their merchant has a webhook url. -/
def InOutbox (psp : String) (d : Db) : Prop :=
  ∀ t ∈ d.transactions, t.pspReference = some psp → ∀ i ∈ d.intents, i.id = t.intentId →
    ∀ m ∈ d.merchants, m.id = i.merchantId → ∀ url ∈ m.webhookUrl, url ≠ "" →
      ∃ w ∈ d.deliveries, w.transactionId = t.id

/-- The request has been acknowledged. -/
def Acknowledged {ι : Type} (c : Config sql Db Session ι WebhookAck) (i : ι) : Prop :=
  ∃ ack, (c.procs i).prog.result? = some (.ok ack)

theorem inOutbox_of_notified {psp : String} {d : Db} (hd : Sane d) (h : Notified psp d) :
    InOutbox psp d := by
  intro t ht hpsp i hi hit m hm hmi url hurl hne
  have hmem : m ∈ merchantsOf psp d :=
    mem_merchantsOf.mpr ⟨hm, i, hi, hmi.symm, t, ht, hit.symm, hpsp⟩
  obtain ⟨u, hu, hu', w, hw, hwu⟩ := h m hmem url hurl hne
  obtain rfl := eq_of_key hd.2 ht hu (hpsp.trans hu'.symm)
  exact ⟨w, hw, hwu⟩

theorem delivered_of_inOutbox {psp : String} {d : Db} (h : InOutbox psp d) (hn : Notifiable psp d) :
    Delivered psp d := by
  obtain ⟨m, url, hm, hurl, hne⟩ := hn
  obtain ⟨hm, i, hi, him, t, ht, hti, htp⟩ := mem_merchantsOf.mp (hm ▸ List.mem_singleton_self m)
  exact ⟨t, ht, htp, h t ht htp i hi hti.symm m hm him.symm url hurl hne⟩

/-- **No lost notification.** In every orderly run of callbacks, from a reachable database in which
the payments that are already settled are in the outbox: if a callback has been acknowledged, so is
its payment. -/
theorem acknowledged_inOutbox {ι : Type} [DecidableEq ι] {signing : Signing}
    {requests : ι → BankRequest} {d : Db} {c : Config sql Db Session ι WebhookAck} (h : Reachable d)
    (hstart : ∀ psp, Settled psp d → InOutbox psp d)
    (hr : database.Run (Orderly requests) (pool signing requests d) c) {i : ι} {callback : Callback}
    (hv : (requests i).verified = .ok callback) (hack : Acknowledged c i) :
    InOutbox callback.pspReference c.shared := by
  obtain ⟨owing, hinv⟩ := (inv_pool ⟨h.consistent, h.pspUnique⟩ fun psp hs hn =>
    delivered_of_inOutbox (hstart psp hs) hn).run hr
  obtain ⟨ack, hack⟩ := hack
  exact inOutbox_of_notified hinv.sane (hinv.answered hv hack)

/-- **No doubled notification.** In every run of callbacks from a reachable database, with crashes
and failures anywhere: a transaction has at most one delivery, which agrees with it. -/
theorem one_delivery {ι : Type} [DecidableEq ι] {signing : Signing} {requests : ι → BankRequest}
    {d : Db} {c : Config sql Db Session ι WebhookAck} (h : Reachable d)
    (hr : database.Run (fun _ _ => True) (pool signing requests d) c) :
    (c.shared.deliveries.map (·.transactionId)).Nodup ∧
      ∀ w ∈ c.shared.deliveries, Agrees w c.shared := by
  obtain ⟨held, hinv⟩ := (Runs.Deliveries.inv_pool ⟨h.consistent, h.pspUnique⟩ h.deliveries).run hr
  exact ⟨hinv.once, fun w hw => (hinv.written w hw).agrees⟩

/-! ### A callback that is sent twice -/

namespace Sample

def uuid := Runs.Serial.Sample.uuid

def signing : Signing := ⟨"merchant-secret", fun _ _ => "signature", .error .typeError⟩

/-- An order whose payment is initiated. -/
def initiated : Db :=
  serveAll [Runs.Serial.Sample.ordering Runs.Serial.Sample.rupees, Runs.Serial.Sample.initiating]
    (Db.empty [Runs.Serial.Sample.shop])

def callback : Callback := ⟨.paymentSuccess, newId "psp" "token", .finite false 100 0⟩

/-- The bank calls back, and once more; the broker is out of reach the first time. -/
def requests : Two → BankRequest
  | .first => ⟨.ok callback, ⟨uuid 4, uuid 5, uuid 6, uuid 7⟩, uuid 8, .error .operationalError⟩
  | .second => ⟨.ok callback, ⟨uuid 9, uuid 10, uuid 11, uuid 12⟩, uuid 13, .ok ()⟩

abbrev State := Config sql Db Session Two WebhookAck

def start : State := pool signing requests initiated

/-- The first request has committed the payment. -/
def settled : State := database.fireAll (List.replicate 13 .first) start

/-- It goes on to its end, and the second is served. -/
def resent : State := database.fireAll (List.replicate 5 .first ++ List.replicate 4 .second) settled

/-- It dies. -/
def crashed : State := database.kill settled .first

/-- The second is served. -/
def lost : State := database.fireAll (List.replicate 4 .second) crashed

theorem initiated_reachable : Reachable initiated :=
  reachable_serveAll (reachable_empty _) (by decide)

theorem initiated_pending (psp : String) : ¬ Settled psp initiated := by
  rintro ⟨id, t, ht, -, -, hs⟩
  have hpending : ∀ t ∈ initiated.transactions, t.state = .pending := by decide
  exact hs (hpending t ht)

end Sample

/-- The first request ends in a `500`, after its delivery; the second is acknowledged. -/
theorem acknowledged_inOutbox_resent :
    ¬ Acknowledged Sample.resent .first ∧ Acknowledged Sample.resent .second ∧
      InOutbox (newId "psp" "token") Sample.resent.shared := by
  have hr : database.Run (Orderly Sample.requests) Sample.start Sample.resent :=
    (Machine.run_fireAll (by decide +kernel)).trans (Machine.run_fireAll (by decide +kernel))
  have hack : Acknowledged Sample.resent .second := ⟨accepted, by decide +kernel⟩
  refine ⟨?_, hack, acknowledged_inOutbox Sample.initiated_reachable
    (fun psp hs => absurd hs (Sample.initiated_pending psp)) hr (i := .second) rfl hack⟩
  rintro ⟨ack, h⟩
  have hend : (Sample.resent.procs .first).prog.result? = some (.error .operationalError) := by
    decide +kernel
  rw [hend] at h
  cases h

/-- The callback that is sent twice leaves one delivery. -/
theorem one_delivery_resent :
    Sample.resent.shared.deliveries.length = 1 ∧
      ∀ w ∈ Sample.resent.shared.deliveries, Agrees w Sample.resent.shared := by
  have hr : database.Run (fun _ _ => True) Sample.start Sample.resent :=
    (Machine.run_fireAll (by decide +kernel)).trans (Machine.run_fireAll (by decide +kernel))
  exact ⟨by decide +kernel, (one_delivery Sample.initiated_reachable hr).2⟩

/-- A crash between the two commits: the callback is sent again and acknowledged, and there is no
delivery. -/
theorem lost_notification :
    Reachable Sample.initiated ∧ (∀ psp, ¬ Settled psp Sample.initiated) ∧
    database.Run (fun _ _ => True) Sample.start Sample.lost ∧ Acknowledged Sample.lost .second ∧
    (∃ t ∈ Sample.lost.shared.transactions, t.state = .success) ∧
    ¬ InOutbox (newId "psp" "token") Sample.lost.shared := by
  have hrun : database.Run (fun _ _ => True) Sample.start Sample.settled :=
    Machine.run_fireAll (by decide +kernel)
  refine ⟨Sample.initiated_reachable, Sample.initiated_pending, ?_, ⟨accepted, by decide +kernel⟩,
    by decide +kernel, fun h => ?_⟩
  · refine (hrun.tail ⟨.kill .first, trivial, .kill (by decide +kernel)⟩).trans ?_
    exact Machine.run_fireAll (by decide +kernel)
  · have hnone : Sample.lost.shared.deliveries = [] := by decide +kernel
    revert h
    unfold InOutbox
    rw [hnone]
    decide +kernel

end PaymentGateway.Results.Notifications
