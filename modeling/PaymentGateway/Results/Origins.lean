import PaymentGateway.Results.SignedAmounts
import PaymentGateway.Runs.Origins
import PaymentGateway.State.Payments

/-! # Where the money comes from

What holds of the database in every interleaving of the endpoints, with deaths and failing commits
anywhere. The orders of a merchant may be reopened by a stale read, and be paid twice; but no payment
is posted that the bank has not signed, none is posted twice, and the ledger always adds up. -/

namespace PaymentGateway.Results.Origins

open PaymentGateway.Core.Ids PaymentGateway.Models PaymentGateway.Schemas
open PaymentGateway.Lib.Program PaymentGateway.Lib.Sessions PaymentGateway.Lib.DecimalArith
open PaymentGateway.Db.Statements PaymentGateway.Db.Locking PaymentGateway.Services.Webhook
open PaymentGateway.Api.Deps PaymentGateway.Api.Webhooks PaymentGateway.Api.Verification
open PaymentGateway.Api.Callbacks
open PaymentGateway.State.Changes PaymentGateway.State.Invariant PaymentGateway.State.Histories
open PaymentGateway.Outlines.Webhook PaymentGateway.Outlines.Requests PaymentGateway.Specs.Callback
open PaymentGateway.State.Payments PaymentGateway.Runs.Origins PaymentGateway.Results.Replays

variable {ι : Type} [DecidableEq ι] {gateway : Gateway} {ms : List Merchant}
  {requests : ι → Request} {c c' : Config sql Db Session ι Reply} {t : Transaction}
  {i : PaymentIntent}

/-- The configurations that the requests reach, from a database with merchants only. -/
abbrev Reaches (gateway : Gateway) (ms : List Merchant) (requests : ι → Request)
    (c : Config sql Db Session ι Reply) : Prop :=
  database.Run (fun _ _ => True) (pool gateway requests (Db.empty ms)) c

theorem traced_run (hr : Reaches gateway ms requests c) :
    Traced gateway ms requests c.shared :=
  (inOrder_run (inOrder_start ms) hr).1.inv

/-! ### The ledger -/

/-- **The ledger adds up, whatever runs at once**: a transaction has entries if and only if it
succeeded, and then a debit of its payer and a credit of its merchant, of the amount of its intent;
every balance is the sum of the entries on the account, none is negative, and the two sides have one
total. -/
theorem ledger_concurrent (hr : Reaches gateway ms requests c) :
    (∀ t ∈ c.shared.transactions, (entriesOf c.shared t ≠ [] ↔ t.state = .success) ∧
      (t.state = .success → ∃ i ∈ c.shared.intents, i.id = t.intentId ∧
        ∃ x y, entriesOf c.shared t = [x, y] ∧ IsDebit c.shared t i x ∧ IsCredit c.shared i y)) ∧
    (∀ a ∈ c.shared.accounts, a.balance.units = posted c.shared a.id ∧ 0 ≤ a.balance.units) ∧
    total .virtual c.shared.accounts = total .merchantSettlement c.shared.accounts := by
  have hb := (traced_run hr).balanced
  have hpair : ∀ t ∈ c.shared.transactions, t.state = .success →
      ∃ i ∈ c.shared.intents, i.id = t.intentId ∧ ∃ x y, entriesOf c.shared t = [x, y] ∧
        IsDebit c.shared t i x ∧ IsCredit c.shared i y := by
    intro t ht hs
    obtain ⟨i, hi, hit⟩ := hb.keys.intent_of t ht
    exact ⟨i, hi, hit, hb.posted.pair t ht hs i hi hit⟩
  refine ⟨fun t ht => ⟨⟨fun hne => ?_, fun hs => ?_⟩, hpair t ht⟩, fun a ha => ?_, hb.posted.total⟩
  · by_contra hs
    exact hne (hb.posted.none t ht hs)
  · obtain ⟨i, -, -, x, y, hxy, -⟩ := hpair t ht hs
    rw [hxy]
    exact List.cons_ne_nil _ _
  · rw [hb.posted.balance a ha]
    exact ⟨rfl, balance_nonneg hb a⟩

/-- **Balances are a view of the payments**, whatever runs at once: on every account is the total of
the payments that succeeded from its vpa, or to its merchant, and a payment that succeeded has both
accounts. So a merchant is paid neither more nor less than what the bank has confirmed. -/
theorem balances_concurrent (hr : Reaches gateway ms requests c) :
    (∀ a ∈ c.shared.accounts, a.balance.units = received c.shared a) ∧
    ∀ t ∈ c.shared.transactions, t.state = .success → ∃ i ∈ c.shared.intents, i.id = t.intentId ∧
      (∃ a ∈ c.shared.accounts, IsPayer t a) ∧ ∃ a ∈ c.shared.accounts, IsPayee i a := by
  have hb := (traced_run hr).balanced
  refine ⟨fun a ha => balance_received hb ha, fun t ht hs => ?_⟩
  obtain ⟨i, hi, hit⟩ := hb.keys.intent_of t ht
  obtain ⟨x, y, -, ⟨-, -, -, a, ha, -, hpayer⟩, ⟨-, -, -, b, hb', -, hpayee⟩⟩ :=
    hb.posted.pair t ht hs i hi hit
  exact ⟨i, hi, hit, ⟨a, ha, hpayer⟩, b, hb', hpayee⟩

/-! ### The origin of an entry -/

/-- The payment was confirmed in a callback that carries the signature of its own body, with the
amount of the order. -/
def Confirmed (gateway : Gateway) (requests : ι → Request) (t : Transaction) (i : PaymentIntent) :
    Prop :=
  ∃ r now signed ids deliveryId broker callback,
    requests r = .bankCallback now signed ids deliveryId broker ∧
    Authentic gateway.signing.signPayload gateway.settings signed.body signed.xSignature ∧
    receive gateway now signed = .ok callback ∧ callback.event = .paymentSuccess ∧
    t.pspReference = some callback.pspReference ∧ callback.amount.value? = some i.amount.value

theorem authentic_of_receive {now : ℚ} {signed : SignedRequest} {callback : Callback}
    (h : Runs.Origins.receive gateway now signed = .ok callback) :
    Authentic gateway.signing.signPayload gateway.settings signed.body signed.xSignature := by
  have hpasses : Passes gateway.signing.signPayload gateway.settings now signed := by
    unfold Passes
    unfold Runs.Origins.receive receiveCallback receivePayload at h
    cases hv : verify gateway.signing.signPayload gateway.settings now signed with
    | error e =>
      rw [hv] at h
      cases h
    | ok u => rfl
  exact (passes_iff.mp hpasses).1

omit [DecidableEq ι] in
theorem confirmed_of_origin (h : SettlementOrigin gateway requests t i) (hs : t.state = .success) :
    Confirmed gateway requests t i := by
  obtain ⟨r, now, signed, ids, deliveryId, broker, callback, hr, hcallback, hpsp, hstate, ha⟩ := h
  refine ⟨r, now, signed, ids, deliveryId, broker, callback, hr, authentic_of_receive hcallback,
    hcallback, ?_, hpsp, ?_⟩
  · cases he : callback.event with
    | paymentSuccess => rfl
    | paymentFailed =>
      rw [he, hs] at hstate
      cases hstate
  · have hamount := amountDiffers_iff.mp ha
    rw [HasAmount, Numeric.value_toDecimal] at hamount
    exact hamount

/-- **Every entry goes back to three requests**: an order with the credentials of its merchant, the
initiation of its payment with credentials of the same merchant, and a confirmation that the bank has
signed. The amount of the entry is that of the order, and the bank's. -/
theorem entry_origin (hr : Reaches gateway ms requests c) {e : LedgerEntry}
    (he : e ∈ c.shared.entries) :
    ∃ t ∈ c.shared.transactions, ∃ i ∈ c.shared.intents, t.id = e.transactionId ∧
      i.id = t.intentId ∧ t.state = .success ∧ e.amount = i.amount ∧
      OrderOrigin gateway ms requests i ∧ PaymentOrigin gateway ms requests t i ∧
      Confirmed gateway requests t i := by
  have h := traced_run hr
  obtain ⟨t, ht, hte⟩ := h.balanced.posted.txn_of e he
  obtain ⟨i, hi, hit, hpayment, hsettled⟩ := h.payments t ht
  have hmem : e ∈ entriesOf c.shared t := List.mem_filter.mpr ⟨he, decide_eq_true hte.symm⟩
  have hs : t.state = .success := by
    by_contra hs
    rw [h.balanced.posted.none t ht hs] at hmem
    cases hmem
  obtain ⟨x, y, hxy, hx, hy⟩ := h.balanced.posted.pair t ht hs i hi hit
  have hamount : e.amount = i.amount := by
    rw [hxy, List.mem_pair] at hmem
    rcases hmem with rfl | rfl
    · exact hx.2.1
    · exact hy.2.1
  exact ⟨t, ht, i, hi, hte, hit, hs, hamount, h.orders i hi, hpayment,
    confirmed_of_origin (hsettled (by rw [hs]; decide)) hs⟩

/-! ### The history of a row -/

/-- What is on an account only grows. -/
theorem posted_le {d d' : Db} (hb : Balanced d') (he : d.entries <+: d'.entries) (id : UUID) :
    posted d id ≤ posted d' id := by
  obtain ⟨es, hes⟩ := he
  have hnew : 0 ≤ ((es.filter (·.accountId = id)).map (·.amount.units)).sum := by
    refine List.sum_nonneg fun x hx => ?_
    obtain ⟨e, he, rfl⟩ := List.mem_map.mp hx
    have hmem : e ∈ d'.entries := hes ▸ List.mem_append_right _ (List.mem_filter.mp he).1
    exact (entry_pos hb hmem).le
  unfold posted
  rw [← hes, List.filter_append, List.map_append, List.sum_append]
  exact le_add_of_nonneg_right hnew

/-- **No request takes anything back**: whatever runs on, every order is still there and has at most
another status, every transaction too, and it is untouched once it is final; entries and deliveries
are only appended, and no balance sinks. -/
theorem history_concurrent (hr : Reaches gateway ms requests c)
    (hr' : database.Run (fun _ _ => True) c c') :
    (∀ i ∈ c.shared.intents, ∃ status, { i with status := status } ∈ c'.shared.intents) ∧
    (∀ t ∈ c.shared.transactions, ∃ state, { t with state := state } ∈ c'.shared.transactions ∧
      (t.state ≠ .pending → t ∈ c'.shared.transactions)) ∧
    c.shared.entries <+: c'.shared.entries ∧ c.shared.deliveries <+: c'.shared.deliveries ∧
    ∀ a ∈ c.shared.accounts, ∃ balance, { a with balance := balance } ∈ c'.shared.accounts ∧
      a.balance.units ≤ balance.units := by
  have h := (inOrder_run (inOrder_start ms) hr).1
  obtain ⟨h', hlater⟩ := inOrder_run h hr'
  refine ⟨fun i hi => ?_, fun t ht => ?_, hlater.frame.entries, hlater.frame.deliveries,
    fun a ha => ?_⟩
  · obtain ⟨j, hj, hij, -⟩ := hlater.frame.intents.exists_mem hi
    exact ⟨j.status, hij ▸ hj⟩
  · obtain ⟨u, hu, htu, -⟩ := hlater.frame.transactions.exists_mem ht
    exact ⟨u.state, htu ▸ hu, hlater.final t ht⟩
  · obtain ⟨b, hb, hab, -⟩ := hlater.frame.accounts.exists_mem ha
    refine ⟨b.balance, hab ▸ hb, ?_⟩
    have hid : b.id = a.id := by rw [hab]
    rw [h.inv.balanced.posted.balance a ha, h'.inv.balanced.posted.balance b hb, hid]
    exact posted_le h'.inv.balanced hlater.frame.entries a.id

/-! ### What a caller is shown -/

/-- **A caller is shown orders of its merchant only**: the answer to an order creation shows the order
that the merchant of the credentials has for the key, the answer to a read the order that was asked
for, and the answer to an initiation a payment of the order in the request. -/
theorem replies_concurrent (hr : Reaches gateway ms requests c) {r : ι} {reply : Reply}
    (h : (c.procs r).prog = .ret reply) : Speaks gateway ms (requests r) reply c.shared := by
  have houtline := (inOrder_run (inOrder_start ms) hr).1.outline r
  rw [h] at houtline
  exact houtline reply rfl

/-! ### An order that is paid -/

namespace Sample

open PaymentGateway.Runs.Serial.Sample

def confirmation : String :=
  "\x7b\"event\": \"payment.success\", \"psp_reference\": \"psp_token\", \"amount\": \"100\"\x7d"

/-- The HMAC-SHA256 of `confirmation` under the default secret. -/
def digest : String := "cff23bef776396082afba877da1f5ec191829865c27f6ceb83a85a96c33e5bfb"

def shopGateway : Gateway where
  security := ⟨fun _ => .error "Invalid or expired token", fun key => key ++ "-hash"⟩
  signing := ⟨"merchant-secret", fun _ _ => digest, .error .typeError⟩
  settings := Malformed.Sample.defaults
  depth := 1000

def credentials : Credentials := ⟨none, some "api-key"⟩

/-- An order, its initiation, and the bank's callback. -/
def purchase : Fin 3 → Request
  | 0 => .createOrder credentials rupees ⟨uuid 2, "token"⟩
  | 1 => .initiateUpi credentials alicePays ⟨uuid 3, "token", "token"⟩
  | 2 => .bankCallback 0 ⟨Lib.Utf8.encode confirmation, some digest, none⟩
    ⟨uuid 4, uuid 5, uuid 6, uuid 7⟩ (uuid 8) (.ok ())

def confirmed : Callback := ⟨.paymentSuccess, "psp_token", .finite false 100 0⟩

theorem receive_confirmation :
    (Runs.Origins.receive shopGateway 0
      ⟨Lib.Utf8.encode confirmation, some digest, none⟩).toOption = some confirmed := by
  decide +kernel

/-- What a callback does that is read. -/
def acknowledged (gateway : Gateway) (callback : Callback) (ids : CallbackIds) (deliveryId : UUID)
    (broker : Except Exc Unit) : Sql Reply := do
  let response ← Api.Webhooks.bankCallback gateway.signing ⟨.ok callback, ids, deliveryId, broker⟩
  return .ack response

theorem prog_of_receive {gateway : Gateway} {now : ℚ} {signed : SignedRequest} {callback : Callback}
    (h : (Runs.Origins.receive gateway now signed).toOption = some callback) (ids : CallbackIds)
    (deliveryId : UUID) (broker : Except Exc Unit) :
    (Request.bankCallback now signed ids deliveryId broker).prog gateway =
      acknowledged gateway callback ids deliveryId broker := by
  cases hr : Runs.Origins.receive gateway now signed with
  | error e =>
    rw [hr] at h
    cases h
  | ok a =>
    rw [hr] at h
    cases h
    simp only [Request.prog, hr]
    rfl

/-- The programs of the three requests. -/
def programs : Fin 3 → Sql Reply
  | 0 => (purchase 0).prog shopGateway
  | 1 => (purchase 1).prog shopGateway
  | 2 => acknowledged shopGateway confirmed ⟨uuid 4, uuid 5, uuid 6, uuid 7⟩ (uuid 8) (.ok ())

theorem prog_purchase : ∀ r : Fin 3, (purchase r).prog shopGateway = programs r
  | 0 => rfl
  | 1 => rfl
  | 2 => prog_of_receive receive_confirmation _ _ _

/-- The merchant's turns, for the order and then for its payment. -/
def checkout : List (Fin 3) := List.replicate 6 0 ++ List.replicate 9 1

/-- The bank's turns. -/
def settlement : List (Fin 3) := List.replicate 18 2

/-- The payment has begun. -/
def begun : Config sql Db Session (Fin 3) Reply :=
  database.fireAll checkout (database.start (Db.empty [shop]) programs)

def paid : Config sql Db Session (Fin 3) Reply := database.fireAll settlement begun

/-- No statement has to wait. -/
theorem allowed_paid :
    Machine.Allowed database (fun _ _ => True) checkout
      (database.start (Db.empty [shop]) programs) ∧
    Machine.Allowed database (fun _ _ => True) settlement begun := by
  decide +kernel

/-- Where the payment stands, and how its initiation was answered. -/
theorem rows_paid :
    total .virtual paid.shared.accounts = 1000000 ∧
    (paid.shared.accounts.length = 2 ∧
      ∀ a ∈ paid.shared.accounts, received paid.shared a = 1000000) ∧ paid.shared.entries ≠ [] ∧
    begun.shared.transactions.map (·.state) = [.pending] ∧
    paid.shared.transactions.map (·.state) = [.success] ∧
    (paid.procs 1).prog.result? = some (.ok (.payment
      ⟨newId "txn" "token", newId "ord" "token", .pending, some (newId "psp" "token")⟩)) := by
  decide +kernel

theorem reaches_begun : Reaches shopGateway [shop] purchase begun := by
  have hpool : pool shopGateway purchase (Db.empty [shop]) =
      database.start (Db.empty [shop]) programs :=
    congrArg (database.start (Db.empty [shop])) (funext prog_purchase)
  unfold Reaches
  rw [hpool]
  exact Machine.run_fireAll allowed_paid.1

theorem run_paid : database.Run (fun _ _ => True) begun paid :=
  Machine.run_fireAll allowed_paid.2

theorem reaches_paid : Reaches shopGateway [shop] purchase paid := reaches_begun.trans run_paid

theorem ledger_paid : (∀ a ∈ paid.shared.accounts, a.balance.units = posted paid.shared a.id) ∧
    total .virtual paid.shared.accounts = total .merchantSettlement paid.shared.accounts ∧
    total .virtual paid.shared.accounts = 1000000 :=
  ⟨fun a ha => ((ledger_concurrent reaches_paid).2.1 a ha).1, (ledger_concurrent reaches_paid).2.2,
    rows_paid.1⟩

theorem balances_paid : paid.shared.accounts.length = 2 ∧ ∀ a ∈ paid.shared.accounts,
    a.balance.units = received paid.shared a ∧ received paid.shared a = 1000000 :=
  ⟨rows_paid.2.1.1, fun a ha => ⟨(balances_concurrent reaches_paid).1 a ha, rows_paid.2.1.2 a ha⟩⟩

theorem origin_paid : ∃ e ∈ paid.shared.entries, ∃ t ∈ paid.shared.transactions,
    ∃ i ∈ paid.shared.intents, t.id = e.transactionId ∧ i.id = t.intentId ∧
      Confirmed shopGateway purchase t i := by
  obtain ⟨e, he⟩ := List.exists_mem_of_ne_nil paid.shared.entries rows_paid.2.2.1
  obtain ⟨t, ht, i, hi, hte, hit, -, -, -, -, hconfirmed⟩ := entry_origin reaches_paid he
  exact ⟨e, he, t, ht, i, hi, hte, hit, hconfirmed⟩

theorem history_paid : (begun.shared.transactions.map (·.state) = [.pending] ∧
      paid.shared.transactions.map (·.state) = [.success]) ∧
    ∀ i ∈ begun.shared.intents, ∃ status, { i with status := status } ∈ paid.shared.intents :=
  ⟨⟨rows_paid.2.2.2.1, rows_paid.2.2.2.2.1⟩, (history_concurrent reaches_begun run_paid).1⟩

theorem replies_paid : Speaks shopGateway [shop] (purchase 1)
    (.payment ⟨newId "txn" "token", newId "ord" "token", .pending, some (newId "psp" "token")⟩)
    paid.shared :=
  replies_concurrent reaches_paid (Prog.eq_ret_of_result rows_paid.2.2.2.2.2)

end Sample

end PaymentGateway.Results.Origins
