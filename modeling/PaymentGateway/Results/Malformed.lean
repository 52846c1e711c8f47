import PaymentGateway.Api.Callbacks
import PaymentGateway.Results.Replays
import PaymentGateway.Results.Statuses

/-! # Malformed callbacks

Step 1 rejects most malformed requests with an `HTTPException`. What it does not catch are a
signature that is not ASCII, a timestamp that no float can hold, and, in a signed body, what cannot
be decoded, what has members of the wrong type, and an amount that is no number. -/

namespace PaymentGateway.Results.Malformed

open PaymentGateway.Lib.Numerals PaymentGateway.Lib.DecimalText PaymentGateway.Lib.DecimalArith
open PaymentGateway.Lib.Floats PaymentGateway.Lib.JsonLoads PaymentGateway.Core.Loads
open PaymentGateway.Core.Security PaymentGateway.Schemas PaymentGateway.Db.Statements
open PaymentGateway.Api.Verification PaymentGateway.Api.Callbacks PaymentGateway.Results.Replays
open PaymentGateway.Results.Statuses

/-- **A clean end** of step 1: an `HTTPException` with a 4xx status; or an event and an amount, with
a reference that is a text and not empty. -/
inductive Clean : Except Exc Payload → Prop
  | rejected {exc : Exc} (h : ClientError exc) : Clean (.error exc)
  | passed {payload : Payload} {t : Text} (hpsp : payload.pspReference = .str t) (hne : t ≠ []) :
    Clean (.ok payload)

theorem clean_error {exc : Exc} : Clean (.error exc) ↔ ClientError exc :=
  ⟨fun h => by cases h; assumption, .rejected⟩

/-! ### The condition -/

/-- The header is ASCII, if it is there. -/
def Ascii (header : Option String) : Prop :=
  ∀ s, header = some s → s.toList.all (·.toNat < 128) = true

/-- The signature is that of the body. -/
def Signed (signPayload : List UInt8 → String → String) (settings : Settings)
    (request : SignedRequest) : Prop :=
  request.xSignature = some (signPayload request.body settings.pspWebhookSecret)

/-- The timestamp is an integer that no float can hold. -/
def Overflows (header : Option String) : Prop :=
  ∃ s ts, header = some s ∧ parseInt s = some ts ∧ OverflowsFloat ts

/-- The timestamp is near, if it is there. -/
def Fresh (settings : Settings) (now : ℚ) (header : Option String) : Prop :=
  ∀ s, header = some s →
    ∃ ts, timestamp s = some ts ∧ |now - ts| ≤ settings.webhookVerifyToleranceSeconds

/-- Not a list, nor a dictionary. -/
def Hashable : Json → Prop
  | .arr _ => False
  | .obj _ => False
  | _ => True

/-- A number, or a text that `Decimal` takes. -/
def Convertible : Json → Prop
  | .int n => numDigits n.natAbs ≤ maxStrDigits
  | .float _ => True
  | .infinity _ => True
  | .nan => True
  | .str t => parseDecimal t ≠ none
  | _ => False

/-- If the event is one of the two and the reference is true, the reference is a text and the amount
can be converted. -/
def WellTyped (event pspReference amount : Json) : Prop :=
  Hashable event ∧ ((∃ e : BankCallbackEvent, event = .str (text e.value)) →
    truthy pspReference = true → (∃ t, pspReference = .str t) ∧ Convertible amount)

/-- `members.get(name)` -/
def get (members : List (Text × Json)) (name : String) : Json := (member name members).getD .null

/-- The body is no JSON, or an object with members of the right type. -/
def Readable (depth : ℕ) (body : List UInt8) : Prop :=
  loads depth body = .error .jsonDecode ∨ ∃ members, loads depth body = .ok (.obj members) ∧
    WellTyped (get members "event") (get members "psp_reference") (get members "amount")

/-! ### The body -/

section Body

variable {depth : ℕ} {body : List UInt8} {event psp amount : Json}

/-- The amount is converted, or an exception is raised that no client sees. -/
theorem decimalOf_cases (value : Json) : (Convertible value ∧ ∃ d, decimalOf value = .ok d) ∨
    (¬ Convertible value ∧ ∃ exc, decimalOf value = .error exc ∧ ¬ ClientError exc) := by
  have hdecimal : ∀ t, (∃ d, parseDecimal t = some d ∧ decimal t = .ok d) ∨
      (parseDecimal t = none ∧ decimal t = .error .invalidOperation) := fun t => by
    unfold decimal
    cases parseDecimal t <;> simp
  have hfloat : ∀ x, ∃ d, decimal (Lib.Floats.repr x) = .ok d := fun x => by
    obtain ⟨d, hd⟩ := exists_parseDecimal_repr x
    unfold decimal
    rw [hd]
    exact ⟨d, rfl⟩
  cases value with
  | int n =>
    change (numDigits n.natAbs ≤ maxStrDigits ∧ ∃ d, (strInt n).bind decimal = .ok d) ∨
      (¬ numDigits n.natAbs ≤ maxStrDigits ∧
        ∃ exc, (strInt n).bind decimal = .error exc ∧ ¬ ClientError exc)
    unfold strInt
    split_ifs with h
    · obtain ⟨d, hd, -⟩ := parseDecimal_int h
      refine .inl ⟨h, d, ?_⟩
      change decimal (intNumeral n).text = .ok d
      unfold decimal
      rw [hd]
    · exact .inr ⟨h, _, rfl, id⟩
  | float n => exact .inl ⟨trivial, hfloat _⟩
  | infinity negative => exact .inl ⟨trivial, hfloat (.infinity negative)⟩
  | nan => exact .inl ⟨trivial, hfloat .nan⟩
  | str t =>
    obtain ⟨d, hd, hdt⟩ | ⟨hnone, hdt⟩ := hdecimal t
    · exact .inl ⟨by change parseDecimal t ≠ none; rw [hd]; simp, d, hdt⟩
    · exact .inr ⟨fun h => h hnone, _, hdt, id⟩
  | null => exact .inr ⟨id, _, rfl, id⟩
  | bool b => cases b <;> exact .inr ⟨id, _, rfl, id⟩
  | arr items => exact .inr ⟨id, _, rfl, id⟩
  | obj members => exact .inr ⟨id, _, rfl, id⟩

theorem knownEvent_cases (event : Json) :
    (¬ Hashable event ∧ knownEvent event = .error .typeError) ∨
    (Hashable event ∧ (¬ ∃ e : BankCallbackEvent, event = .str (text e.value)) ∧
      knownEvent event = .ok none) ∨
    (Hashable event ∧ ∃ e : BankCallbackEvent, event = .str (text e.value) ∧
      knownEvent event = .ok (some e)) := by
  cases event with
  | arr items => exact .inl ⟨id, rfl⟩
  | obj members => exact .inl ⟨id, rfl⟩
  | str t =>
    by_cases hs : t = text BankCallbackEvent.paymentSuccess.value
    · exact .inr (.inr ⟨trivial, .paymentSuccess, by rw [hs], by rw [hs]; rfl⟩)
    by_cases hf : t = text BankCallbackEvent.paymentFailed.value
    · exact .inr (.inr ⟨trivial, .paymentFailed, by rw [hf], by rw [hf]; rfl⟩)
    refine .inr (.inl ⟨trivial, ?_, ?_⟩)
    · rintro ⟨e, he⟩
      cases e
      · exact hs (Json.str.inj he)
      · exact hf (Json.str.inj he)
    · unfold knownEvent
      simp [Ne.symm hs, Ne.symm hf]
  | _ => exact .inr (.inl ⟨trivial, fun ⟨_, he⟩ => (by cases he), rfl⟩)

theorem clean_checkMembers :
    Clean (checkMembers event psp amount) ↔ WellTyped event psp amount := by
  unfold WellTyped
  obtain ⟨hh, hk⟩ | ⟨hh, hno, hk⟩ | ⟨hh, e, he, hk⟩ := knownEvent_cases event
  · have hcheck : checkMembers event psp amount = .error .typeError := by
      unfold checkMembers
      rw [hk]
      rfl
    rw [hcheck, clean_error]
    exact iff_of_false id fun h => hh h.1
  · have hcheck : checkMembers event psp amount =
        .error (.httpException 400 "Malformed event payload") := by
      unfold checkMembers
      rw [hk]
      rfl
    rw [hcheck, clean_error]
    exact iff_of_true ⟨by decide, by decide⟩ ⟨hh, fun h => absurd h hno⟩
  · cases hp : truthy psp with
    | false =>
      have hcheck : checkMembers event psp amount =
          .error (.httpException 400 "Malformed event payload") := by
        unfold checkMembers
        rw [hk, hp]
        rfl
      rw [hcheck, clean_error]
      exact iff_of_true ⟨by decide, by decide⟩ ⟨hh, fun _ h => by cases h⟩
    | true =>
      -- the members are passed on, and the amount is converted
      have hcheck : checkMembers event psp amount =
          (decimalOf amount).map fun d => ⟨e, psp, d⟩ := by
        unfold checkMembers
        rw [hk, hp]
        cases decimalOf amount <;> rfl
      rw [hcheck]
      obtain ⟨hc, d, hd⟩ | ⟨hc, exc, hd, hexc⟩ := decimalOf_cases amount
      · rw [hd]
        constructor
        · rintro ⟨⟩
          rename_i t _ hpsp
          exact ⟨hh, fun _ _ => ⟨⟨t, hpsp⟩, hc⟩⟩
        · rintro ⟨-, h⟩
          obtain ⟨⟨t, ht⟩, -⟩ := h ⟨e, he⟩ rfl
          refine .passed (t := t) ht ?_
          rintro rfl
          rw [ht] at hp
          cases hp
      · rw [hd]
        exact iff_of_false (fun h => hexc (clean_error.mp h)) fun h => hc (h.2 ⟨e, he⟩ rfl).2

/-- **The body** ends step 1 cleanly just if it is readable. -/
theorem clean_readPayload : Clean (readPayload depth body) ↔ Readable depth body := by
  unfold Readable readPayload eventData loadsBody
  cases hl : loads depth body with
  | error e =>
    cases e with
    | jsonDecode => exact iff_of_true (.rejected ⟨by decide, by decide⟩) (.inl rfl)
    | _ => exact iff_of_false (fun h => clean_error.mp h) (by simp)
  | ok document =>
    cases document with
    | obj members =>
      change Clean (checkMembers (get members "event") (get members "psp_reference")
        (get members "amount")) ↔ _
      rw [clean_checkMembers]
      simp
    | _ => exact iff_of_false (fun h => clean_error.mp h) (by simp)

end Body

/-! ### The headers -/

variable {signPayload : List UInt8 → String → String} {settings : Settings} {depth : ℕ} {now : ℚ}
  {request : SignedRequest}

theorem checkSignature_cases (h : Hexdigest signPayload) :
    (Ascii request.xSignature ∧ Signed signPayload settings request ∧
      checkSignature signPayload settings request = .ok ()) ∨
    (Ascii request.xSignature ∧ ¬ Signed signPayload settings request ∧
      ∃ exc, checkSignature signPayload settings request = .error exc ∧ ClientError exc) ∨
    (¬ Ascii request.xSignature ∧
      checkSignature signPayload settings request = .error .typeError) := by
  have hdigest := h.ascii request.body settings.pspWebhookSecret
  have hlen := (h request.body settings.pspWebhookSecret).1
  unfold Ascii Signed checkSignature
  cases request.xSignature with
  | none =>
    exact .inr (.inl ⟨fun s hs => (by cases hs), fun hs => (by cases hs), _, rfl, by decide,
      by decide⟩)
  | some s =>
    by_cases hs : s = ""
    · refine .inr (.inl ⟨?_, ?_, ?_⟩)
      · rintro _ ⟨⟩
        rw [hs]
        rfl
      · intro heq
        rw [← Option.some.inj heq, hs] at hlen
        cases hlen
      · have hempty : (some s).filter (· ≠ "") = none := by simp [hs]
        rw [hempty]
        exact ⟨_, rfl, by decide, by decide⟩
    have hsome : (some s).filter (· ≠ "") = some s := by simp [hs]
    rw [hsome]
    cases hascii : s.toList.all (·.toNat < 128) with
    | false =>
      refine .inr (.inr ⟨fun hall => ?_, ?_⟩)
      · have htrue := hall s rfl
        rw [hascii] at htrue
        cases htrue
      · have hall : ((signPayload request.body settings.pspWebhookSecret).toList ++ s.toList).all
            (·.toNat < 128) = false := by
          rw [List.all_append, hascii, Bool.and_false]
        unfold verifySignature secureCompare
        dsimp only
        rw [if_neg (by rw [hall]; decide)]
        rfl
    | true =>
      have hall : ((signPayload request.body settings.pspWebhookSecret).toList ++ s.toList).all
          (·.toNat < 128) = true := by
        rw [List.all_append, hascii, hdigest]
        rfl
      have hheader : ∀ s', some s = some s' → s'.toList.all (·.toNat < 128) = true := by
        rintro _ ⟨⟩
        exact hascii
      unfold verifySignature
      dsimp only
      rw [secureCompare_ascii hall]
      by_cases heq : signPayload request.body settings.pspWebhookSecret = s
      · refine .inl ⟨hheader, congrArg some heq.symm, ?_⟩
        rw [decide_eq_true heq]
        rfl
      · refine .inr (.inl ⟨hheader, fun hc => heq (Option.some.inj hc).symm, ?_⟩)
        rw [decide_eq_false heq]
        exact ⟨_, rfl, by decide, by decide⟩

theorem checkTimestamp_cases :
    (¬ Overflows request.xTimestamp ∧ Fresh settings now request.xTimestamp ∧
      checkTimestamp settings now request = .ok ()) ∨
    (¬ Overflows request.xTimestamp ∧ ¬ Fresh settings now request.xTimestamp ∧
      ∃ exc, checkTimestamp settings now request = .error exc ∧ ClientError exc) ∨
    (Overflows request.xTimestamp ∧
      checkTimestamp settings now request = .error .overflowError) := by
  unfold Overflows Fresh checkTimestamp timestamp
  cases request.xTimestamp with
  | none => simp
  | some s =>
    dsimp only
    cases hts : parseInt s with
    | none =>
      refine .inr (.inl ⟨by simp [hts], by simp [hts], _, rfl, by decide, by decide⟩)
    | some ts =>
      dsimp only
      split_ifs with hf ht
      · exact .inr (.inr ⟨⟨s, ts, rfl, hts, hf⟩, rfl⟩)
      · exact .inr (.inl ⟨by simp [hts, hf], by simpa [hts, hf] using ht, _, rfl, by decide,
          by decide⟩)
      · exact .inl ⟨by simp [hts, hf], by simpa [hts, hf] using ht, rfl⟩

/-- **Step 1 ends cleanly** just if the signature is ASCII and, where it is that of the body, the
timestamp does not overflow a float and, where that is near, the body is readable. -/
theorem clean_iff (h : Hexdigest signPayload) :
    Clean (receivePayload signPayload settings depth now request) ↔
      Ascii request.xSignature ∧ (Signed signPayload settings request →
        ¬ Overflows request.xTimestamp ∧ (Fresh settings now request.xTimestamp →
          Readable depth request.body)) := by
  unfold receivePayload verify
  obtain ⟨ha, hs, hsig⟩ | ⟨ha, hs, exc, hsig, hexc⟩ | ⟨ha, hsig⟩ :=
    @checkSignature_cases signPayload settings request h
  · rw [hsig]
    obtain ⟨ho, hf, hts⟩ | ⟨ho, hf, exc, hts, hexc⟩ | ⟨ho, hts⟩ :=
      @checkTimestamp_cases settings now request
    · change Clean ((checkTimestamp settings now request).bind fun _ => _) ↔ _
      rw [hts]
      change Clean (readPayload depth request.body) ↔ _
      rw [clean_readPayload]
      simp [ha, hs, ho, hf]
    · change Clean ((checkTimestamp settings now request).bind fun _ => _) ↔ _
      rw [hts]
      exact iff_of_true (.rejected hexc) ⟨ha, fun _ => ⟨ho, fun h => absurd h hf⟩⟩
    · change Clean ((checkTimestamp settings now request).bind fun _ => _) ↔ _
      rw [hts]
      exact iff_of_false (fun h => clean_error.mp h) fun h => (h.2 hs).1 ho
  · rw [hsig]
    exact iff_of_true (.rejected hexc) ⟨ha, fun h => absurd h hs⟩
  · rw [hsig]
    exact iff_of_false (fun h => clean_error.mp h) fun h => ha h.1

/-! ### Two callbacks -/

theorem error_of_map {α β : Type} {r : Except Exc α} {f : α → β} {exc : Exc}
    (h : r.map f = .error exc) : r = .error exc := by
  cases r with
  | error exc' => exact congrArg _ (Except.error.inj h)
  | ok a => cases h

/-- The text of the reference, if it is one. -/
def referenceText (payload : Payload) : Text :=
  match payload.pspReference with
  | .str t => t
  | _ => []

theorem clean_of_referenceText {r : Except Exc Payload} {c : ℕ} {t : Text}
    (h : r.map referenceText = .ok (c :: t)) : Clean r := by
  cases r with
  | error exc => cases h
  | ok payload =>
    have ht : referenceText payload = c :: t := Except.ok.inj h
    unfold referenceText at ht
    split at ht
    · rename_i hp
      rw [ht] at hp
      exact .passed hp (List.cons_ne_nil _ _)
    · cases ht

namespace Sample

def defaults : Settings := ⟨"change-me-psp-webhook-secret", 300⟩

/-- A callback without an amount. -/
def short : String := "\x7b\"event\": \"payment.success\", \"psp_reference\": \"psp_1\"\x7d"

/-- The HMAC-SHA256 of `short` under the default secret. -/
def shortDigest : String := "268e082654321c1384908a1d85f6c28dddf9e2279430b72eb7f348bdca4db942"

def incomplete : SignedRequest := ⟨Lib.Utf8.encode short, some shortDigest, none⟩

def full : String :=
  "\x7b\"event\": \"payment.success\", \"psp_reference\": \"psp_1\", \"amount\": \"1500.0000\"\x7d"

/-- The HMAC-SHA256 of `full` under the default secret. -/
def fullDigest : String := "d2583808783bfed7b84a065775d86c7c287b248c0dc09caf305e2a4a7a512e38"

def complete : SignedRequest := ⟨Lib.Utf8.encode full, some fullDigest, none⟩

theorem hexdigest : Hexdigest fun _ _ => fullDigest :=
  hexdigest_const (by decide +kernel) (by decide +kernel)

end Sample

/-- The signed callback without an amount ends with the exception of `Decimal`. -/
theorem not_clean_short : ¬ Clean
    (receivePayload (fun _ _ => Sample.shortDigest) Sample.defaults 1000 0 Sample.incomplete) := by
  have hraised : (receivePayload (fun _ _ => Sample.shortDigest) Sample.defaults 1000 0
      Sample.incomplete).map (fun _ => ()) = .error .invalidOperation := by decide +kernel
  rw [error_of_map hraised, clean_error]
  exact id

/-- The signed callback with one is passed on, so its body is readable. -/
theorem readable_full : Readable 1000 Sample.complete.body := by
  have hpassed : (receivePayload (fun _ _ => Sample.fullDigest) Sample.defaults 1000 0
      Sample.complete).map referenceText = .ok (text "psp_1") := by decide +kernel
  have hclean : Clean
      (receivePayload (fun _ _ => Sample.fullDigest) Sample.defaults 1000 0 Sample.complete) :=
    clean_of_referenceText hpassed
  exact (((clean_iff Sample.hexdigest).mp hclean).2 rfl).2 fun s hs => (by cases hs)

end PaymentGateway.Results.Malformed
