import PaymentGateway.Specs.Requests

/-! # Repeated initiations

`initiate_upi` answers for a transaction that is there already, of the same order and vpa, with its
ids and the constant `PENDING`. The row is never removed and its ids never change, and as long as
the intent is not final the transaction is in fact pending, since the two advance together. -/

namespace PaymentGateway.Results.Initiations

open PaymentGateway.Core.Ids PaymentGateway.Models PaymentGateway.Schemas
open PaymentGateway.Lib.Sessions PaymentGateway.Lib.Tables
open PaymentGateway.Db.Statements PaymentGateway.Db.Locking
open PaymentGateway.Services.StateMachine PaymentGateway.Services.Payment
open PaymentGateway.State.Changes PaymentGateway.State.Invariant PaymentGateway.Runs.Serial
open PaymentGateway.Specs.Requests

variable {d d' : Db} {c : Call} {cs : List Call} {merchant : Merchant}
  {payload payload' : UpiInitiateRequest} {ids ids' : InitiateIds} {r : UpiInitiateResponse}
  {t : Transaction} {i : PaymentIntent}

/-! ### Calls in a row -/

theorem frame_after (c : Call) (d : Db) : Frame [] d (c.after d) := by
  cases c with
  | createOrder merchant payload ids => exact frame_run _ d .closed
  | initiateUpi merchant payload ids => exact frame_run _ d .closed
  | processBankCallback event psp amount ids => exact frame_run _ d .closed

theorem frame_serveAll (cs : List Call) (d : Db) : Frame [] d (serveAll cs d) := by
  induction cs generalizing d with
  | nil => exact .refl d
  | cons c cs ih => exact (frame_after c d).trans (ih _)

theorem keeps_after (hd : Consistent d) (hu : PublicIds d) (c : Call) :
    Consistent (c.after d) ∧ PublicIds (c.after d) := by
  refine ⟨consistent_after hd, ?_⟩
  rcases c.after_cases hd with he | he
  · rw [he]; exact hu
  · exact hu.change (Call.effect_change he)

theorem keeps_serveAll (hd : Consistent d) (hu : PublicIds d) (cs : List Call) :
    Consistent (serveAll cs d) ∧ PublicIds (serveAll cs d) := by
  induction cs generalizing d with
  | nil => exact ⟨hd, hu⟩
  | cons c cs ih =>
    obtain ⟨hd', hu'⟩ := keeps_after hd hu c
    exact ih hd' hu'

/-! ### The transaction that is answered for -/

/-- The response `r` is about the transaction `t` of the merchant's order `i`, with the vpa of the
request. -/
structure About (merchant : Merchant) (payload : UpiInitiateRequest) (r : UpiInitiateResponse)
    (t : Transaction) (i : PaymentIntent) (d : Db) : Prop where
  intent : i ∈ d.intents
  orderId : i.publicId = payload.orderId
  merchantId : i.merchantId = merchant.id
  txn : t ∈ d.transactions
  intentId : t.intentId = i.id
  vpa : t.vpa = payload.vpa
  method : t.paymentMethod = .upi
  response : r = ⟨t.publicId, i.publicId, .pending, t.pspReference⟩

/-- Rows stay, up to the status and the state. -/
theorem About.frame (h : About merchant payload r t i d) (hf : Frame [] d d') :
    ∃ t' i', About merchant payload r t' i' d' := by
  obtain ⟨i', hi', hi, -⟩ := hf.intents.exists_mem h.intent
  obtain ⟨t', ht', ht, -⟩ := hf.transactions.exists_mem h.txn
  refine ⟨t', i', hi', ?_, ?_, ht', ?_, ?_, ?_, ?_⟩
  · rw [hi]; exact h.orderId
  · rw [hi]; exact h.merchantId
  · rw [hi, ht]; exact h.intentId
  · rw [ht]; exact h.vpa
  · rw [ht]; exact h.method
  · rw [hi, ht]; exact h.response

/-- A payment that is begun is about the row that it adds. -/
theorem about_begun (hi : i ∈ d.intents) (horder : i.publicId = payload.orderId)
    (hm : i.merchantId = merchant.id) (h : (begun i payload ids d).1 = .ok r) :
    ∃ t i', About merchant payload r t i' (begun i payload ids d).2 := by
  unfold begun at h ⊢
  cases hassert : assertIntentTransition i.status .processing with
  | error exc => rw [hassert] at h; cases h
  | ok u =>
    rw [hassert] at h
    dsimp only at h ⊢
    split_ifs at h ⊢ with hlen hnew
    cases h
    refine ⟨newTransaction i payload ids, withStatus i.id .processing i, ?_, ?_, ?_, ?_, ?_, rfl,
      rfl, ?_⟩
    · exact List.mem_map_of_mem hi
    · rw [withStatus_publicId]; exact horder
    · rw [withStatus_merchantId]; exact hm
    · exact List.mem_append_right _ (List.mem_singleton_self _)
    · rw [withStatus_id]; rfl
    · rw [withStatus_publicId]; rfl

theorem mem_of_duplicateOf {intentId : UUID} {vpa : String}
    (h : duplicateOf intentId vpa d = some t) :
    t ∈ d.transactions ∧ t.intentId = intentId ∧ t.vpa = vpa ∧ t.paymentMethod = .upi :=
  ⟨List.mem_of_find?_eq_some h, by simpa using List.find?_some h⟩

theorem publicId_of_orderOf {publicId : String} {merchantId : UUID}
    (h : orderOf publicId merchantId d = some i) : i.publicId = publicId := by
  have hi : i.publicId = publicId ∧ i.merchantId = merchantId := by simpa using List.find?_some h
  exact hi.1

/-- An initiation that succeeds answers for a transaction that is there. -/
theorem about_ok (hd : Consistent d)
    (h : database.serve (initiateUpi merchant payload ids) d = (.ok r, d')) :
    ∃ t i, About merchant payload r t i d' := by
  rw [serve_initiateUpi_eq hd.keys hd.coupled, initiating] at h
  cases horder : orderOf payload.orderId merchant.id d with
  | none => rw [horder] at h; cases congrArg Prod.fst h
  | some i =>
    obtain ⟨hi, hm⟩ := mem_of_orderOf horder
    have hpublic := publicId_of_orderOf horder
    rw [horder] at h
    dsimp only at h
    by_cases hfinal : i.status ∈ [PaymentStatus.success, .failed]
    · rw [if_pos hfinal] at h
      cases congrArg Prod.fst h
    · rw [if_neg hfinal] at h
      cases hdup : duplicateOf i.id payload.vpa d with
      | some t =>
        obtain ⟨ht, hintent, hvpa, hmethod⟩ := mem_of_duplicateOf hdup
        rw [hdup] at h
        cases h
        exact ⟨t, i, hi, hpublic, hm, ht, hintent, hvpa, hmethod, rfl⟩
      | none =>
        rw [hdup] at h
        dsimp only at h
        have habout := about_begun hi hpublic hm (congrArg Prod.fst h)
        rwa [congrArg Prod.snd h] at habout

/-- While its intent is not final, the transaction is pending. -/
theorem About.pending (hd : Consistent d) (h : About merchant payload r t i d)
    (hopen : i.status ∉ [PaymentStatus.success, .failed]) : t.state = .pending := by
  rcases hd.coupled.pair t h.txn i h.intent h.intentId.symm with ⟨-, ht⟩ | ⟨hs, -⟩ | ⟨hs, -⟩
  · exact ht
  · rw [hs] at hopen; exact absurd (by decide) hopen
  · rw [hs] at hopen; exact absurd (by decide) hopen

/-- A request of the same order and vpa is answered for the same transaction. -/
theorem About.replay (hd : Consistent d) (h : About merchant payload r t i d)
    (hopen : i.status ∉ [PaymentStatus.success, .failed])
    (horder : payload'.orderId = payload.orderId)
    (hvpa : payload'.vpa = payload.vpa) :
    database.serve (initiateUpi merchant payload' ids') d = (.ok r, d) := by
  have hi : orderOf payload'.orderId merchant.id d = some i := by
    have hrows := rows_orderOf hd.keys payload'.orderId merchant.id
    rw [filter_eq_singleton hd.keys.publicIds h.intent
      ⟨h.orderId.trans horder.symm, h.merchantId⟩ fun j _ hj =>
        hj.1.trans (h.orderId.trans horder.symm).symm] at hrows
    exact Option.toList_eq_singleton_iff.mp hrows.symm
  have ht : duplicateOf i.id payload'.vpa d = some t := by
    have hrows := rows_duplicateOf hd.coupled i.id payload'.vpa
    rw [filter_eq_singleton hd.coupled.one h.txn
      ⟨h.intentId, h.vpa.trans hvpa.symm, h.method⟩ fun u _ hu =>
        hu.1.trans h.intentId.symm] at hrows
    exact Option.toList_eq_singleton_iff.mp hrows.symm
  rw [serve_initiateUpi_eq hd.keys hd.coupled, initiating, hi]
  dsimp only
  rw [if_neg hopen, ht, h.response]

/-- What is initiated once is there to be answered for, until the intent has a final status. -/
theorem answered_again (hd : Reachable d)
    (h : database.serve (initiateUpi merchant payload ids) d = (.ok r, d')) (cs : List Call)
    (hopen : ∀ i ∈ (serveAll cs d').intents, i.publicId = payload.orderId →
      i.status ≠ .success ∧ i.status ≠ .failed)
    (horder : payload'.orderId = payload.orderId) (hvpa : payload'.vpa = payload.vpa) :
    database.serve (initiateUpi merchant payload' ids') (serveAll cs d') =
        (.ok r, serveAll cs d') ∧
      ∃ t, (serveAll cs d').transactions.filter (·.publicId = r.transactionId) = [t] ∧
        t.state = r.status := by
  have hfirst : d' = (Call.initiateUpi merchant payload ids).after d := by
    change d' = (database.serve (initiateUpi merchant payload ids) d).2
    rw [h]
  have hu : PublicIds d := hd.change (P := PublicIds) (fun _ => List.nodup_nil) fun _ _ => .change
  obtain ⟨hd', hu'⟩ := keeps_after hd.consistent hu (Call.initiateUpi merchant payload ids)
  rw [← hfirst] at hd' hu'
  obtain ⟨hd'', hu''⟩ := keeps_serveAll hd' hu' cs
  obtain ⟨t, i, habout⟩ := about_ok hd.consistent h
  obtain ⟨t, i, habout⟩ := habout.frame (frame_serveAll cs d')
  have hstatus : i.status ∉ [PaymentStatus.success, .failed] := by
    simpa using hopen i habout.intent habout.orderId
  refine ⟨habout.replay hd'' hstatus horder hvpa, t, ?_, ?_⟩
  · rw [habout.response]
    exact filter_eq_singleton hu'' habout.txn rfl fun u _ hu => hu
  · rw [habout.response]
    exact habout.pending hd'' hstatus

/-- Two vpas that are the same when they are stripped and in lower case. -/
def SameVpa (lower : String → String) (body body' : UpiInitiateBody) : Prop :=
  lower (stripped body'.vpa) = lower (stripped body.vpa)

theorem SameVpa.eq {lower : String → String} {body body' : UpiInitiateBody}
    (h : SameVpa lower body body') (hbody : body.validated lower = some payload)
    (hbody' : body'.validated lower = some payload') : payload'.vpa = payload.vpa := by
  obtain ⟨-, -, hvpa⟩ := UpiInitiateBody.validated_iff.mp hbody
  obtain ⟨-, -, hvpa'⟩ := UpiInitiateBody.validated_iff.mp hbody'
  rw [← (validateVpa_iff.mp hvpa).1, ← (validateVpa_iff.mp hvpa').1]
  exact h

/-- **Initiation is idempotent and truthful.** After an initiation that succeeded, and any calls that
leave the intent of the order without a final status, an initiation for the same order and vpa, up to
case and the white space around it, returns the same response and leaves the database as it is; the
transaction of the response is there once, in the state that the response says. -/
theorem initiation_idempotent {lower : String → String} {body body' : UpiInitiateBody}
    (hbody : body.validated lower = some payload) (hbody' : body'.validated lower = some payload')
    (hd : Reachable d)
    (h : database.serve (initiateUpi merchant payload ids) d = (.ok r, d')) (cs : List Call)
    (hopen : ∀ i ∈ (serveAll cs d').intents, i.publicId = body.orderId →
      i.status ≠ .success ∧ i.status ≠ .failed)
    (horder : body'.orderId = body.orderId) (hvpa : SameVpa lower body body') :
    database.serve (initiateUpi merchant payload' ids') (serveAll cs d') =
        (.ok r, serveAll cs d') ∧
      ∃ t, (serveAll cs d').transactions.filter (·.publicId = r.transactionId) = [t] ∧
        t.state = r.status := by
  obtain ⟨-, ho, -⟩ := UpiInitiateBody.validated_iff.mp hbody
  obtain ⟨-, ho', -⟩ := UpiInitiateBody.validated_iff.mp hbody'
  refine answered_again hd h cs (fun i hi hp => hopen i hi (hp.trans ho)) ?_
    (hvpa.eq hbody hbody')
  rw [ho', ho, horder]

/-! ### Alice asks twice -/

namespace Sample

open PaymentGateway.Runs.Serial.Sample

/-- The shop's order. -/
def ordered : Db := (ordering rupees).after (Db.empty [shop])

/-- The response to Alice. -/
def answer : UpiInitiateResponse :=
  ⟨newId "txn" "token", newId "ord" "token", .pending, some (newId "psp" "token")⟩

theorem key_valid : 8 ≤ "order-0002".length ∧ "order-0002".length ≤ 128 := by decide

/-- Bob tries to pay the same order, a callback comes for an unknown payment, and the shop creates
another order. -/
def between : List Call :=
  [.initiateUpi shop bobPays ⟨uuid 8, "bob", "bob"⟩,
    .processBankCallback .paymentSuccess "unknown" (.finite false 100 0)
      ⟨uuid 4, uuid 5, uuid 6, uuid 7⟩,
    .createOrder shop { dollars with
      idempotencyKey := "order-0002"
      idempotencyKey_valid := key_valid } ⟨uuid 9, "dollars"⟩]

/-- What `str.lower` does to ASCII. -/
def asciiLower (s : String) : String := String.ofList (s.toList.map Char.toLower)

/-- Alice's initiation, with the vpa as she types it. -/
def body (vpa : String) : UpiInitiateBody := ⟨"order-0001", newId "ord" "token", vpa⟩

theorem validated_body {vpa : String}
    (h : validateVpa asciiLower vpa = .ok "alice@bank") :
    (body vpa).validated asciiLower = some alicePays :=
  UpiInitiateBody.validated_iff.mpr ⟨rfl, rfl, h⟩

end Sample

open PaymentGateway.Runs.Serial.Sample Sample in
/-- After all this Alice gets the first answer again, although she now types her vpa with capitals
and a line break. -/
theorem initiation_idempotent_alice :
    (body "Alice@Bank\n").validated asciiLower = some alicePays ∧
    database.serve (initiateUpi shop alicePays ⟨uuid 10, "again", "again"⟩)
        (serveAll between (initiating.after Sample.ordered)) =
      (.ok answer, serveAll between (initiating.after Sample.ordered)) := by
  have hfresh : AllFresh [ordering rupees] (Db.empty [shop]) := by decide
  have hd : Reachable Sample.ordered := reachable_serveAll (reachable_empty [shop]) hfresh
  have h : database.serve (initiateUpi shop alicePays ⟨uuid 3, "token", "token"⟩) Sample.ordered =
      (.ok answer, initiating.after Sample.ordered) := by decide +kernel
  have hbody : (body "alice@bank").validated asciiLower = some alicePays :=
    validated_body (by decide +kernel)
  have hbody' : (body "Alice@Bank\n").validated asciiLower = some alicePays :=
    validated_body (by decide +kernel)
  have hvpa : SameVpa asciiLower (body "alice@bank") (body "Alice@Bank\n") := by
    unfold SameVpa
    decide +kernel
  exact ⟨hbody', (initiation_idempotent hbody hbody' hd h between (by decide +kernel) rfl hvpa).1⟩

end PaymentGateway.Results.Initiations
