import PaymentGateway.Api.Verification
import Mathlib.Tactic.Linarith

/-! # How long a callback can be replayed

The signature covers the body, not the timestamp, and a callback without a timestamp is not checked
for its age. So the freshness window bounds the time between two acceptances of a signed body only
where both requests carry one and the same timestamp, or one of them is not accepted at all. -/

namespace PaymentGateway.Results.Replays

open PaymentGateway.Lib.Numerals PaymentGateway.Db.Statements PaymentGateway.Core.Security
open PaymentGateway.Api.Webhooks PaymentGateway.Api.Verification

variable {signPayload : List UInt8 → String → String} {settings : Settings} {now : ℚ}
  {body : List UInt8} {signature stamp first second : Option String}

/-- The request, received at `now`, passes the checks. -/
def Passes (signPayload : List UInt8 → String → String) (settings : Settings) (now : ℚ)
    (request : SignedRequest) : Prop := verify signPayload settings now request = .ok ()

/-- The signature is that of the body. -/
def Authentic (signPayload : List UInt8 → String → String) (settings : Settings) (body : List UInt8)
    (signature : Option String) : Prop :=
  ∃ s, signature = some s ∧ s ≠ "" ∧
    verifySignature signPayload body settings.pspWebhookSecret s = .ok true

/-- The integer of a timestamp, if a float can come near it. -/
def timestamp (text : String) : Option ℤ := (parseInt text).filter fun ts => ¬ OverflowsFloat ts

/-- The two headers are timestamps, and the same. -/
def SameTimestamp (first second : Option String) : Prop :=
  ∃ s t ts, first = some s ∧ second = some t ∧ timestamp s = some ts ∧ timestamp t = some ts

/-- The header is there, and no timestamp. -/
def Unreadable (stamp : Option String) : Prop := ∃ s, stamp = some s ∧ timestamp s = none

/-- Any two times at which requests with this body and signature pass the checks, one with the
header `first` and one with `second`, are at most twice the tolerance apart. -/
def WindowBounds (signPayload : List UInt8 → String → String) (settings : Settings)
    (body : List UInt8) (signature first second : Option String) : Prop :=
  ∀ t₁ t₂ : ℚ, Passes signPayload settings t₁ ⟨body, signature, first⟩ →
    Passes signPayload settings t₂ ⟨body, signature, second⟩ →
    |t₁ - t₂| ≤ 2 * settings.webhookVerifyToleranceSeconds

theorem checkSignature_iff (stamp : Option String) :
    checkSignature signPayload settings ⟨body, signature, stamp⟩ = .ok () ↔
      Authentic signPayload settings body signature := by
  unfold checkSignature Authentic
  cases signature with
  | none => simp
  | some s =>
    by_cases hs : s = ""
    · subst hs
      have hempty : (some "").filter (· ≠ "") = none := by decide
      rw [hempty]
      simp
    · simp only [Option.filter_some, hs, decide_true, ne_eq, not_false_eq_true, if_true,
        Option.some.injEq, exists_eq_left', true_and]
      cases hv : verifySignature signPayload body settings.pspWebhookSecret s with
      | error e => exact ⟨fun h => (by cases h), fun h => (by cases h)⟩
      | ok valid =>
        cases valid <;> exact ⟨fun h => (by cases h <;> rfl), fun h => (by cases h <;> rfl)⟩

/-- A timestamp is checked only if there is one. -/
theorem checkTimestamp_iff (body : List UInt8) (signature : Option String) :
    checkTimestamp settings now ⟨body, signature, stamp⟩ = .ok () ↔
      ∀ s, stamp = some s →
        ∃ ts, timestamp s = some ts ∧ |now - ts| ≤ settings.webhookVerifyToleranceSeconds := by
  unfold checkTimestamp timestamp
  cases stamp with
  | none => simp
  | some s =>
    simp only [Option.some.injEq, forall_eq']
    cases hts : parseInt s with
    | none => simp
    | some ts =>
      dsimp only
      split_ifs with hf ht
      · simp [hf]
      · simpa [hf] using ht
      · simpa [hf] using ht

theorem passes_iff : Passes signPayload settings now ⟨body, signature, stamp⟩ ↔
    Authentic signPayload settings body signature ∧ ∀ s, stamp = some s →
      ∃ ts, timestamp s = some ts ∧ |now - ts| ≤ settings.webhookVerifyToleranceSeconds := by
  rw [← checkSignature_iff stamp, ← checkTimestamp_iff body signature]
  unfold Passes verify
  cases checkSignature signPayload settings ⟨body, signature, stamp⟩ with
  | error e => exact ⟨fun h => (by cases h), fun h => (by cases h.1)⟩
  | ok u => exact ⟨fun h => ⟨rfl, h⟩, fun h => h.2⟩

/-- A header that is read and not rejected is absent, or a timestamp. -/
theorem readable_cases (h : ¬ Unreadable stamp) :
    stamp = none ∨ ∃ s ts, stamp = some s ∧ timestamp s = some ts := by
  cases stamp with
  | none => exact .inl rfl
  | some s =>
    cases hts : timestamp s with
    | none => exact absurd ⟨s, rfl, hts⟩ h
    | some ts => exact .inr ⟨s, ts, rfl, hts⟩

theorem passes_none (ha : Authentic signPayload settings body signature) (now : ℚ) :
    Passes signPayload settings now ⟨body, signature, none⟩ :=
  passes_iff.mpr ⟨ha, fun _ h => by cases h⟩

theorem passes_some (ha : Authentic signPayload settings body signature) {s : String} {ts : ℤ}
    (hts : timestamp s = some ts) (h : |now - ts| ≤ settings.webhookVerifyToleranceSeconds) :
    Passes signPayload settings now ⟨body, signature, some s⟩ :=
  passes_iff.mpr ⟨ha, fun _ hs => by cases hs; exact ⟨ts, hts, h⟩⟩

theorem exists_passes (ha : Authentic signPayload settings body signature)
    (h : ¬ Unreadable stamp) : ∃ t, Passes signPayload settings t ⟨body, signature, stamp⟩ := by
  rcases readable_cases h with rfl | ⟨s, ts, rfl, hts⟩
  · exact ⟨0, passes_none ha 0⟩
  · exact ⟨ts, passes_some ha hts (by simp)⟩

theorem WindowBounds.symm (h : WindowBounds signPayload settings body signature first second) :
    WindowBounds signPayload settings body signature second first := fun t₁ t₂ h₁ h₂ => by
  rw [abs_sub_comm]
  exact h t₂ t₁ h₂ h₁

/-- Without a timestamp a request passes at any time. -/
theorem not_windowBounds_none (ha : Authentic signPayload settings body signature)
    (h : ¬ Unreadable second) : ¬ WindowBounds signPayload settings body signature none second := by
  intro hw
  obtain ⟨t, ht⟩ := exists_passes ha h
  have := (abs_le.mp (hw (t + 2 * settings.webhookVerifyToleranceSeconds + 1) t
    (passes_none ha _) ht)).2
  linarith

/-- Of two timestamps that bound the window, none is after the other. -/
theorem WindowBounds.le {s u : String} {ts us : ℤ}
    (ha : Authentic signPayload settings body signature) (hs : timestamp s = some ts)
    (hu : timestamp u = some us)
    (h : WindowBounds signPayload settings body signature (some s) (some u)) : ts ≤ us := by
  have htol : (0 : ℚ) ≤ settings.webhookVerifyToleranceSeconds := Nat.cast_nonneg _
  have := (abs_le.mp (h (ts + settings.webhookVerifyToleranceSeconds)
    (us - settings.webhookVerifyToleranceSeconds)
    (passes_some ha hs (by rw [add_sub_cancel_left, abs_of_nonneg htol]))
    (passes_some ha hu (by rw [sub_sub_cancel_left, abs_neg, abs_of_nonneg htol])))).2
  exact_mod_cast (by linarith : (ts : ℚ) ≤ us)

/-- **The freshness window bounds replays** of an authentic body just where the two requests carry
one timestamp, or a header that is rejected. -/
theorem windowBounds_iff : WindowBounds signPayload settings body signature first second ↔
    ¬ Authentic signPayload settings body signature ∨ Unreadable first ∨ Unreadable second ∨
      SameTimestamp first second := by
  constructor
  · intro h
    by_contra hn
    simp only [not_or, not_not] at hn
    obtain ⟨ha, hfirst, hsecond, hsame⟩ := hn
    rcases readable_cases hfirst with rfl | ⟨s, ts, rfl, hs⟩
    · exact not_windowBounds_none ha hsecond h
    · rcases readable_cases hsecond with rfl | ⟨u, us, rfl, hu⟩
      · exact not_windowBounds_none ha hfirst h.symm
      · obtain rfl := le_antisymm (h.le ha hs hu) (h.symm.le ha hu hs)
        exact hsame ⟨s, u, ts, rfl, rfl, hs, hu⟩
  · intro h t₁ t₂ h₁ h₂
    obtain ⟨ha, h₁⟩ := passes_iff.mp h₁
    obtain ⟨-, h₂⟩ := passes_iff.mp h₂
    rcases h with h | ⟨s, rfl, hs⟩ | ⟨s, rfl, hs⟩ | ⟨s, u, ts, rfl, rfl, hs, hu⟩
    · exact absurd ha h
    · obtain ⟨ts, hts, -⟩ := h₁ s rfl
      rw [hs] at hts
      cases hts
    · obtain ⟨ts, hts, -⟩ := h₂ s rfl
      rw [hs] at hts
      cases hts
    · obtain ⟨ts₁, hts₁, h₁⟩ := h₁ s rfl
      obtain ⟨ts₂, hts₂, h₂⟩ := h₂ u rfl
      cases hs.symm.trans hts₁
      cases hu.symm.trans hts₂
      have h₁ := abs_le.mp h₁
      have h₂ := abs_le.mp h₂
      exact abs_le.mpr ⟨by linarith, by linarith⟩

/-- A callback sent again a day later, without its timestamp or with a new one, is accepted. -/
theorem replayed_later :
    ¬ WindowBounds (fun _ _ => "5e1f") ⟨"secret", 300⟩ [123, 125] (some "5e1f") (some "1000") none ∧
    ¬ WindowBounds (fun _ _ => "5e1f") ⟨"secret", 300⟩ [123, 125] (some "5e1f") (some "1000")
      (some "87400") := by
  have ha : Authentic (fun _ _ => "5e1f") ⟨"secret", 300⟩ [123, 125] (some "5e1f") :=
    ⟨"5e1f", rfl, by decide, secureCompare_ascii (by decide)⟩
  have hstamp : timestamp "1000" = some 1000 := by decide +kernel
  have hlater : timestamp "87400" = some 87400 := by decide +kernel
  have hfirst : Passes (fun _ _ => "5e1f") ⟨"secret", 300⟩ 1000
      ⟨[123, 125], some "5e1f", some "1000"⟩ := passes_some ha hstamp (by norm_num)
  have hbare : Passes (fun _ _ => "5e1f") ⟨"secret", 300⟩ 87400
      ⟨[123, 125], some "5e1f", none⟩ := passes_none ha 87400
  have hnew : Passes (fun _ _ => "5e1f") ⟨"secret", 300⟩ 87400
      ⟨[123, 125], some "5e1f", some "87400"⟩ := passes_some ha hlater (by norm_num)
  have hfar : ¬ |(1000 : ℚ) - 87400| ≤ 2 * (300 : ℕ) := by norm_num
  exact ⟨fun h => hfar (h _ _ hfirst hbare), fun h => hfar (h _ _ hfirst hnew)⟩

end PaymentGateway.Results.Replays
