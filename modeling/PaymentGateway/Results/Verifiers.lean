import PaymentGateway.Results.Replays

/-! # Two verifiers

The checks of signature and timestamp are written twice, in the endpoint and in the service. They
differ on an empty timestamp alone: to the service it is no timestamp, to the endpoint it is one
that cannot be read. -/

namespace PaymentGateway.Results.Verifiers

open PaymentGateway.Lib.Numerals PaymentGateway.Db.Statements PaymentGateway.Core.Security
open PaymentGateway.Api.Verification PaymentGateway.Results.Replays

variable {signPayload : List UInt8 → String → String} {settings : Settings} {now : ℚ}
  {payload : List UInt8} {signature : String} {stamp : Option String}

/-- The verifier of the service lets a request pass just if the endpoint does. -/
def Agree (signPayload : List UInt8 → String → String) (settings : Settings) (now : ℚ)
    (payload : List UInt8) (signature : String) (stamp : Option String) : Prop :=
  verifyBankSignature signPayload settings now payload signature stamp = .ok () ↔
    Passes signPayload settings now ⟨payload, some signature, stamp⟩

/-- What the service asks of a timestamp that is not empty. -/
theorem checkFreshness_iff : checkFreshness settings now stamp = .ok () ↔
    ∀ s, stamp = some s → s ≠ "" →
      ∃ ts, timestamp s = some ts ∧ |now - ts| ≤ settings.webhookVerifyToleranceSeconds := by
  unfold checkFreshness timestamp
  cases stamp with
  | none => simp
  | some s =>
    by_cases hs : s = ""
    · subst hs
      have hempty : (some "").filter (· ≠ "") = none := by decide
      rw [hempty]
      simp
    · simp only [Option.filter_some, hs, decide_true, ne_eq, not_false_eq_true, if_true,
        Option.some.injEq, forall_eq', forall_const]
      cases hts : parseInt s with
      | none => simp
      | some ts =>
        dsimp only
        split_ifs with hf ht
        · simp [hf]
        · simpa [hf] using ht
        · simpa [hf] using ht

theorem verifyBankSignature_iff :
    verifyBankSignature signPayload settings now payload signature stamp = .ok () ↔
      checkFreshness settings now stamp = .ok () ∧
        verifySignature signPayload payload settings.pspWebhookSecret signature = .ok true := by
  unfold verifyBankSignature
  cases checkFreshness settings now stamp with
  | error e => exact ⟨fun h => (by cases h), fun h => (by cases h.1)⟩
  | ok u =>
    cases hv : verifySignature signPayload payload settings.pspWebhookSecret signature with
    | error e => exact ⟨fun h => (by cases h), fun h => (by cases h.2)⟩
    | ok valid =>
      cases valid with
      | false => exact ⟨fun h => (by cases h), fun h => (by cases h.2)⟩
      | true => exact ⟨fun _ => ⟨rfl, rfl⟩, fun _ => rfl⟩

/-- No digest is empty, so the test for a missing signature changes nothing. -/
theorem authentic_iff (h : Hexdigest signPayload) :
    Authentic signPayload settings payload (some signature) ↔
      verifySignature signPayload payload settings.pspWebhookSecret signature = .ok true := by
  refine ⟨fun ⟨s, hs, _, hv⟩ => by cases hs; exact hv, fun hv => ⟨signature, rfl, ?_, hv⟩⟩
  rintro rfl
  unfold verifySignature secureCompare at hv
  split_ifs at hv
  have hempty : signPayload payload settings.pspWebhookSecret = "" := by simpa using hv
  have hlen := (h payload settings.pspWebhookSecret).1
  rw [hempty] at hlen
  cases hlen

/-- **The verifiers agree** unless the timestamp is empty and the signature that of the payload. -/
theorem verifiers_agree_iff (h : Hexdigest signPayload) :
    Agree signPayload settings now payload signature stamp ↔
      ¬ (stamp = some "" ∧
        verifySignature signPayload payload settings.pspWebhookSecret signature = .ok true) := by
  unfold Agree
  rw [verifyBankSignature_iff, checkFreshness_iff, passes_iff, authentic_iff h]
  constructor
  · rintro hagree ⟨rfl, hv⟩
    have hskip : ∀ s, some "" = some s → s ≠ "" → ∃ ts, timestamp s = some ts ∧
        |now - ts| ≤ settings.webhookVerifyToleranceSeconds := fun s hs hne =>
      absurd (Option.some.inj hs).symm hne
    obtain ⟨ts, hts, -⟩ := (hagree.mp ⟨hskip, hv⟩).2 "" rfl
    have hnone : timestamp "" = none := by decide +kernel
    rw [hnone] at hts
    cases hts
  · intro hnot
    refine ⟨fun ⟨hfresh, hv⟩ => ⟨hv, fun s hs => hfresh s hs ?_⟩,
      fun ⟨hv, hfresh⟩ => ⟨fun s hs _ => hfresh s hs, hv⟩⟩
    rintro rfl
    exact hnot ⟨hs, hv⟩

namespace Sample

/-- The HMAC-SHA256 of `[]` under the default secret. -/
def digest : String := "f0989981f462e518c21c73b94dd21dd9b32957e82e75b22ce0b4abe3b7b7633e"

def defaults : Settings := ⟨"change-me-psp-webhook-secret", 300⟩

theorem hexdigest : Hexdigest fun _ _ => digest :=
  hexdigest_const (by decide +kernel) (by decide +kernel)

end Sample

/-- A signed payload with an empty timestamp. -/
theorem not_agree_empty : ¬ Agree (fun _ _ => Sample.digest) Sample.defaults 1000 [0x5B, 0x5D]
    Sample.digest (some "") := by
  have hv : verifyBankSignature (fun _ _ => Sample.digest) Sample.defaults 1000 [0x5B, 0x5D]
      Sample.digest (some "") = .ok () := by decide +kernel
  have hnot : ¬ Passes (fun _ _ => Sample.digest) Sample.defaults 1000
      ⟨[0x5B, 0x5D], some Sample.digest, some ""⟩ := by
    unfold Passes
    decide +kernel
  exact fun h => hnot (h.mp hv)

/-- The same payload with a timestamp of the last minute. -/
theorem verifiers_agree_fresh : Agree (fun _ _ => Sample.digest) Sample.defaults 1000 [0x5B, 0x5D]
    Sample.digest (some "950") :=
  (verifiers_agree_iff Sample.hexdigest).mpr fun h => absurd h.1 (by decide)

end PaymentGateway.Results.Verifiers
