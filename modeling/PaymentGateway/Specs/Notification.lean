import PaymentGateway.Api.Webhooks
import PaymentGateway.Core.Loads
import PaymentGateway.Lib.JsonRoundTrip

/-! # What a notification says

A notification is an object: an event, and as data the ids of a transaction and of its order and a
status. `Says` is about what `json.loads` reads, not about how the text was written; so is
`Describes`, for the row of a transaction. The text that the endpoint writes is read so
(`says_notification`). -/

namespace PaymentGateway.Specs.Notification

open PaymentGateway.Core.Ids PaymentGateway.Core.Loads PaymentGateway.Models
open PaymentGateway.Schemas PaymentGateway.Lib.Numerals PaymentGateway.Lib.Json
open PaymentGateway.Lib.JsonLoads PaymentGateway.Lib.JsonRoundTrip
open PaymentGateway.Services.Webhook PaymentGateway.Api.Webhooks

/-- `json.loads` reads these members, and no others. -/
def Says (payload event transactionId orderId status : String) : Prop :=
  ∀ depth, 2 ≤ depth → loadsString depth payload = .ok (.obj
    [(text "event", .str (text event)),
      (text "data", .obj [(text "transaction_id", .str (text transactionId)),
        (text "order_id", .str (text orderId)), (text "status", .str (text status))])])

/-- The text tells how the transaction of the order has ended. -/
def Describes (payload : String) (t : Transaction) (i : PaymentIntent) : Prop :=
  t.state = .success ∧ Says payload "payment.success" t.publicId i.publicId "SUCCESS" ∨
    t.state = .failed ∧ Says payload "payment.failed" t.publicId i.publicId "FAILED"

variable {depth : ℕ} {t : Transaction} {i : PaymentIntent} {event : BankCallbackEvent}

theorem text_inj {s s' : String} (h : text s = text s') : s = s' :=
  String.toList_inj.mp (List.map_injective_iff.mpr (fun _ _ => Char.toNat_inj.mp) h)

/-- A text says one thing. -/
theorem Says.transactionId_eq {payload e e' x x' o o' s s' : String} (h : Says payload e x o s)
    (h' : Says payload e' x' o' s') : x = x' := by
  have hsame := (h 2 le_rfl).symm.trans (h' 2 le_rfl)
  simp only [Except.ok.injEq, Json.obj.injEq, List.cons.injEq, Prod.mk.injEq, Json.str.injEq] at hsame
  exact text_inj hsame.2.1.2.1.2

/-- The members of a notification, as they are read. -/
theorem loadsString_notification (hdepth : 2 ≤ depth) (event : BankCallbackEvent)
    (result : CallbackResult) :
    loadsString depth (notification event result) = .ok (.obj
      [(text "event", .str (text event.value)),
        (text "data", .obj [(text "transaction_id", .str (text result.transactionId)),
          (text "order_id", (result.orderId.map fun s => Json.str (text s)).getD .null),
          (text "status", .str (text result.status))])]) := by
  have hnesting : nesting (.obj [("event", .str event.value),
      ("data", .obj [("transaction_id", .str result.transactionId),
        ("order_id", (result.orderId.map Value.str).getD .null),
        ("status", .str result.status)])]) = 2 := by
    cases result.orderId <;> simp [nesting, nestingMembers]
  have hloads := loadsText_dumps separates_default (hnesting.le.trans hdepth)
  unfold loadsString notification
  rw [hloads]
  cases result.orderId <;> rfl

/-- The notification of a settled payment. -/
theorem says_notification (event : BankCallbackEvent) {result : CallbackResult} {orderId : String}
    (h : result.orderId = some orderId) :
    Says (notification event result) event.value result.transactionId orderId result.status := by
  intro depth hdepth
  rw [loadsString_notification hdepth, h]
  rfl

theorem describes_notification (ht : t.state = targetTxn event) (replay : Bool) (id : UUID) :
    Describes (notification event ⟨replay, id, t.publicId, some i.publicId, t.state.value⟩) t i := by
  have hsays : Says (notification event ⟨replay, id, t.publicId, some i.publicId, t.state.value⟩)
      event.value t.publicId i.publicId t.state.value := says_notification event rfl
  cases event with
  | paymentSuccess =>
    have hs : t.state = .success := ht
    rw [hs] at hsays ⊢
    exact .inl ⟨hs, hsays⟩
  | paymentFailed =>
    have hs : t.state = .failed := ht
    rw [hs] at hsays ⊢
    exact .inr ⟨hs, hsays⟩

end PaymentGateway.Specs.Notification
