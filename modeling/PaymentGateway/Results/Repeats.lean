import PaymentGateway.Specs.Callback

/-! # Repeated and contradicting callbacks

Callbacks for one payment act as the first of them whose amount is that of the intent: it settles
the payment, and all others leave the database as it is. -/

namespace PaymentGateway.Results.Repeats

open PaymentGateway.Core.Ids PaymentGateway.Models PaymentGateway.Schemas
open PaymentGateway.Lib.Sessions PaymentGateway.Lib.DecimalArith PaymentGateway.Lib.Tables
open PaymentGateway.Db.Statements PaymentGateway.Services.Webhook
open PaymentGateway.State.Changes PaymentGateway.State.Invariant PaymentGateway.Outlines.Webhook
open PaymentGateway.Runs.Serial PaymentGateway.Specs.Callback

/-- The first call with the amount of the intent. -/
def firstValid (i : PaymentIntent) (cs : List BankCallback) : Option BankCallback :=
  cs.find? fun c => HasAmount i c.amount

/-- The answer to the call `c` if the payment was settled by `first`. -/
def repeated (t : Transaction) (first c : BankCallback) : Except Exc CallbackResult :=
  if c.event = first.event then .ok ⟨true, t.id, t.publicId, none, (targetTxn first.event).value⟩
  else .error (.invalidStateTransition ("Illegal transaction transition " ++
    (targetTxn first.event).value ++ " -> " ++ (targetTxn c.event).value))

/-- The answer to the call `c`, if `first` is the first valid call before it. -/
def answer (t : Transaction) (i : PaymentIntent) (first : Option BankCallback) (c : BankCallback) :
    Except Exc CallbackResult :=
  if c.amount = .snan then .error .invalidOperation
  else if ¬ HasAmount i c.amount then .error (.amountMismatch c.amount i.amount.toDecimal)
  else
    match first with
    | none => .ok (settledResult t i c.event)
    | some first => repeated t first c

variable {d : Db} {t : Transaction} {i : PaymentIntent} {psp : String} {c first : BankCallback}
  {cs : List BankCallback}

/-- A call with another amount is refused. -/
theorem serve_invalid (hd : Reachable d) (h : Found psp t i d) (hpsp : c.pspReference = psp)
    (ha : ¬ HasAmount i c.amount) (o : Option BankCallback) : c.serve d = (answer t i o c, d) := by
  subst hpsp
  unfold BankCallback.serve answer
  split_ifs with hs
  · rw [hs]
    exact serve_refused hd h verdict_snan
  · exact serve_refused hd h (verdict_differs hs ha)

theorem answer_valid (ha : HasAmount i c.amount) (o : Option BankCallback) : answer t i o c =
    match o with
    | none => .ok (settledResult t i c.event)
    | some first => repeated t first c := by
  unfold answer
  rw [if_neg ha.ne_snan, if_neg (not_not_intro ha)]

/-- A payment that is final answers every call, and stays as it is. -/
theorem serve_final (hd : Reachable d) (h : Found psp t i d) (hpsp : c.pspReference = psp)
    (hstate : t.state = targetTxn first.event) : c.serve d = (answer t i (some first) c, d) := by
  by_cases ha : HasAmount i c.amount
  · subst hpsp
    rw [answer_valid ha]
    unfold BankCallback.serve repeated
    dsimp only
    split_ifs with he
    · rw [serve_replayed hd h (verdict_replayed ha (by rw [he, hstate]))]
      unfold replayedResult
      rw [hstate]
    · exact serve_refused hd h (verdict_final ha hstate he)
  · exact serve_invalid hd h hpsp ha _

/-- The first valid call settles the payment. -/
theorem serve_first (hd : Reachable d) (h : Found psp t i d) (hpsp : c.pspReference = psp)
    (hp : t.state = .pending) (ha : HasAmount i c.amount) (hlen : t.vpa.length ≤ 128)
    (hr : InRange t i d) (hids : Fresh c.ids d) :
    c.serve d = (answer t i none c, settled t i c.event c.ids d) := by
  subst hpsp
  rw [answer_valid ha]
  unfold BankCallback.serve
  rw [serve_pending c.event hd h hids hr (amountDiffers_iff.mpr ha) hp,
    if_neg fun hc => Nat.not_lt.mpr hlen hc.2]

/-- A payment that is final stays as it is. -/
theorem afterAll_final (hd : Reachable d) (h : Found psp t i d)
    (hpsp : ∀ c ∈ cs, c.pspReference = psp) (hstate : t.state = targetTxn first.event) :
    afterAll cs d = d := by
  induction cs with
  | nil => rfl
  | cons c cs ih =>
    have hc : c.after d = d :=
      congrArg Prod.snd (serve_final hd h (hpsp c List.mem_cons_self) hstate)
    change afterAll cs (c.after d) = d
    rw [hc]
    exact ih fun c hc => hpsp c (List.mem_cons_of_mem _ hc)

/-- Before the first valid call nothing happens, and after it nothing more. -/
theorem afterAll_eq (hd : Reachable d) (h : Found psp t i d) (hp : t.state = .pending)
    (hlen : t.vpa.length ≤ 128) (hr : InRange t i d) (hpsp : ∀ c ∈ cs, c.pspReference = psp)
    (hids : ∀ c ∈ cs, Fresh c.ids d) :
    afterAll cs d = match firstValid i cs with
      | none => d
      | some c => settled t i c.event c.ids d := by
  induction cs with
  | nil => rfl
  | cons c cs ih =>
    have hcpsp := hpsp c List.mem_cons_self
    have hpsp' : ∀ c ∈ cs, c.pspReference = psp := fun c hc => hpsp c (List.mem_cons_of_mem _ hc)
    change afterAll cs (c.after d) = _
    unfold firstValid
    by_cases ha : HasAmount i c.amount
    · have hc : c.after d = settled t i c.event c.ids d := congrArg Prod.snd
        (serve_first hd h hcpsp hp ha hlen hr (hids c List.mem_cons_self))
      have hreach : Reachable (settled t i c.event c.ids d) := hc ▸ reachable_after hd c
      rw [List.find?_cons_of_pos (by simpa using ha), hc]
      exact afterAll_final hreach (found_settled h c.event c.ids) hpsp' rfl
    · have hc : c.after d = d := congrArg Prod.snd (serve_invalid hd h hcpsp ha none)
      rw [List.find?_cons_of_neg (by simpa using ha), hc]
      exact ih hpsp' fun c hc => hids c (List.mem_cons_of_mem _ hc)

/-- **Repeats.** Callbacks in a row for a pending payment leave the database as the first valid one
alone does, or as it was; that one settles the payment, later valid ones get a replay with the
stored status or are refused, and calls with another amount are refused. -/
theorem callbacks_act_once (hd : Reachable d) (ht : t ∈ d.transactions) (hp : t.state = .pending)
    (hpsp : t.pspReference = some psp) (hi : i ∈ d.intents) (hit : i.id = t.intentId)
    (hlen : t.vpa.length ≤ 128) (hr : InRange t i d)
    (hcs : ∀ c ∈ cs, c.pspReference = psp ∧ Fresh c.ids d) :
    afterAll cs d = (firstValid i cs).elim d (·.after d) ∧
      ∀ before c after, cs = before ++ c :: after →
        (c.serve (afterAll before d)).1 = answer t i (firstValid i before) c ∧
        (¬ (HasAmount i c.amount ∧ firstValid i before = none) →
          c.after (afterAll before d) = afterAll before d) ∧
        ∀ first, firstValid i before = some first →
          ∃ t' ∈ (afterAll before d).transactions, t'.id = t.id ∧
            t'.state = targetTxn first.event := by
  have h : Found psp t i d := ⟨ht, hpsp, hi, hit⟩
  refine ⟨?_, fun before c after hsplit => ?_⟩
  · rw [afterAll_eq hd h hp hlen hr (fun c hc => (hcs c hc).1) fun c hc => (hcs c hc).2]
    cases hf : firstValid i cs with
    | none => rfl
    | some c =>
      have hc : c ∈ cs := List.mem_of_find?_eq_some hf
      have ha : HasAmount i c.amount := by simpa using List.find?_some hf
      exact (congrArg Prod.snd
        (serve_first hd h (hcs c hc).1 hp ha hlen hr (hcs c hc).2)).symm
  · have hbefore : ∀ c ∈ before, c ∈ cs := fun c hc => hsplit ▸ List.mem_append_left _ hc
    have hc : c ∈ cs := hsplit ▸ List.mem_append_right _ List.mem_cons_self
    rw [afterAll_eq hd h hp hlen hr (fun c hc => (hcs c (hbefore c hc)).1)
      fun c hc => (hcs c (hbefore c hc)).2]
    cases hf : firstValid i before with
    | none =>
      dsimp only
      refine ⟨?_, fun hn => ?_, fun first hfirst => by cases hfirst⟩
      · by_cases ha : HasAmount i c.amount
        · rw [serve_first hd h (hcs c hc).1 hp ha hlen hr (hcs c hc).2]
        · rw [serve_invalid hd h (hcs c hc).1 ha none]
      · have ha : ¬ HasAmount i c.amount := fun ha => hn ⟨ha, rfl⟩
        exact congrArg Prod.snd (serve_invalid hd h (hcs c hc).1 ha none)
    | some first =>
      have hmem : first ∈ cs := hbefore first (List.mem_of_find?_eq_some hf)
      have ha : HasAmount i first.amount := by simpa using List.find?_some hf
      have hfirst := serve_first hd h (hcs first hmem).1 hp ha hlen hr (hcs first hmem).2
      have hafter : first.after d = settled t i first.event first.ids d := congrArg Prod.snd hfirst
      have hreach : Reachable (settled t i first.event first.ids d) :=
        hafter ▸ reachable_after hd first
      have hfound := found_settled h first.event first.ids
      have hserve := serve_final hreach hfound (hcs c hc).1 rfl
      dsimp only
      refine ⟨congrArg Prod.fst hserve, fun _ => congrArg Prod.snd hserve, fun _ he => ?_⟩
      cases he
      exact ⟨_, hfound.txn, rfl, rfl⟩

/-! ### Five callbacks for one order -/

namespace Sample

open PaymentGateway.Runs.Serial.Sample PaymentGateway.Specs.Callback.Sample

def send (event : BankCallbackEvent) (amount : Decimal) : BankCallback :=
  ⟨event, newId "psp" "token", amount, drawn⟩

def sent : List BankCallback :=
  [send .paymentFailed .nan, send .paymentSuccess hundred, send .paymentSuccess hundred,
    send .paymentFailed hundred, send .paymentSuccess .snan]

end Sample

open PaymentGateway.Runs.Serial.Sample PaymentGateway.Specs.Callback.Sample Sample

/-- Of five callbacks the second settles the payment of Alice, and the third is a replay. -/
theorem callbacks_act_once_alice :
    afterAll sent (waiting alicePays) =
        (send .paymentSuccess hundred).after (waiting alicePays) ∧
      ((send .paymentSuccess hundred).serve (afterAll (sent.take 2) (waiting alicePays))).1 =
        .ok ⟨true, uuid 3, newId "txn" "token", none, "SUCCESS"⟩ := by
  have hreach : Reachable (waiting alicePays) :=
    reachable_serveAll (reachable_empty [shop]) (by decide)
  have hcs : ∀ c ∈ sent, c.pspReference = newId "psp" "token" ∧ Fresh c.ids (waiting alicePays) := by
    have hdrawn := fresh alicePays
    simp [sent, send, hdrawn]
  have h := @callbacks_act_once (waiting alicePays) (transaction "alice@bank") intent
    (newId "psp" "token") sent hreach (by decide) rfl rfl (by decide) rfl (by decide)
    (inRange _ _ _) hcs
  have hhundred : HasAmount intent hundred := amountDiffers_iff.mp (by decide)
  have hnan : ¬ HasAmount intent .nan := fun hc => by
    have := amountDiffers_iff.mpr hc
    cases this
  have hfirst : firstValid intent (sent.take 2) = some (send .paymentSuccess hundred) := by
    simp [firstValid, sent, send, hnan, hhundred]
  have hall : firstValid intent sent = some (send .paymentSuccess hundred) := by
    simp [firstValid, sent, send, hnan, hhundred]
  refine ⟨h.1.trans (by rw [hall]; rfl), ?_⟩
  rw [(h.2 (sent.take 2) (send .paymentSuccess hundred) (sent.drop 3) rfl).1, hfirst]
  exact answer_valid hhundred _

/-- A signaling NaN is another amount, and is not answered with a mismatch. -/
theorem not_amountMismatch_snan : Reachable (waiting alicePays) ∧
    transaction "alice@bank" ∈ (waiting alicePays).transactions ∧
    intent ∈ (waiting alicePays).intents ∧
    ¬ HasAmount intent (send .paymentSuccess .snan).amount ∧
    ∀ expected actual, ((send .paymentSuccess .snan).serve (waiting alicePays)).1 ≠
      .error (.amountMismatch expected actual) := by
  have hreach : Reachable (waiting alicePays) :=
    reachable_serveAll (reachable_empty [shop]) (by decide)
  have hfound : Found (newId "psp" "token") (transaction "alice@bank") intent (waiting alicePays) :=
    ⟨by decide, rfl, by decide, rfl⟩
  have ha : ¬ HasAmount intent (send .paymentSuccess .snan).amount := by
    unfold HasAmount
    rw [intent.amount.value_toDecimal]
    rintro ⟨⟩
  refine ⟨hreach, hfound.txn, hfound.intent, ha, fun expected actual => ?_⟩
  rw [serve_invalid hreach hfound rfl ha none]
  unfold answer
  rw [if_pos (show (send .paymentSuccess .snan).amount = .snan from rfl)]
  rintro ⟨⟩

end PaymentGateway.Results.Repeats
