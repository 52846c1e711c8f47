import PaymentGateway.Middleware.Headers
import PaymentGateway.Results.RateLimits

/-! # The headers of the rate limit

`X-RateLimit-Reset` is computed from the number of the bucket, so it is the start of the window in
which the request was counted and not its end: no response that carries it is sent before it. -/

namespace PaymentGateway.Results.RateHeaders

open PaymentGateway.Lib PaymentGateway.Lib.Program PaymentGateway.Lib.Sessions
open PaymentGateway.Lib.Interference
open PaymentGateway.Middleware.Statements (Request Response Exc)
open PaymentGateway.Middleware.Headers PaymentGateway.Middleware.RateLimit
open PaymentGateway.Middleware.Quota PaymentGateway.Results.RateLimits

variable {ι : Type} {xs : ι → Arrival} {c : Config (redis ι) (World ι) Unit ι Response} {i : ι}
  {w w' : World ι} {t : ℕ} {response : Response}

/-! ### What the headers promise -/

/-- The request is before its first statement. -/
def Next (xs : ι → Arrival) (c : Config (redis ι) (World ι) Unit ι Response) (i : ι) : Prop :=
  (c.procs i).prog = dispatch i (xs i)

/-- The request has been answered. -/
def Answered (c : Config (redis ι) (World ι) Unit ι Response) (i : ι) : Prop :=
  ∃ response, (c.procs i).prog = .ret response

/-- The requests of an identity that are counted, in order. -/
def countedOf (xs : ι → Arrival) (a : String) (w : World ι) : List ι :=
  ((counted w).filter fun p => (xs p.1).identity = a).map Prod.fst

/-- What a response to the request `i` says, sent at the time `t`: `remaining` requests are left
until `reset`, and then the count starts again. -/
structure Promise [DecidableEq ι] (xs : ι → Arrival)
    (c : Config (redis ι) (World ι) Unit ι Response) (i : ι) (t remaining reset : ℕ) : Prop where
  ahead : t < reset * 10 ^ 6
  near : reset * 10 ^ 6 ≤ t + 60 * 10 ^ 6
  /-- If no other request of the identity is in flight, and its next ones come before the reset,
  just the first of them are forwarded. -/
  forwarded : (∀ j, j ≠ i → Limited (xs j).request → (xs j).identity = (xs i).identity →
      Next xs c j ∨ (c.procs j).prog.Done) →
    ∀ c', server.Run ClockAdvances c c' →
      (∀ j ∈ (countedOf xs (xs i).identity c'.shared).drop
        (countedOf xs (xs i).identity c.shared).length, (xs j).readAt < reset * 10 ^ 6) →
      ∀ k j, ((countedOf xs (xs i).identity c'.shared).drop
          (countedOf xs (xs i).identity c.shared).length)[k]? = some j → Answered c' j →
        (Forwarded xs c' j ↔ k < remaining)
  /-- The first request from the reset on is forwarded. -/
  reopened : ∀ c', server.Run ClockAdvances c c' → ∀ j, Limited (xs j).request →
    (xs j).identity = (xs i).identity → reset * 10 ^ 6 ≤ (xs j).readAt → Answered c' j →
      (∀ l, l ≠ j → l ∈ countedOf xs (xs i).identity c'.shared → (xs l).readAt < reset * 10 ^ 6) →
        Forwarded xs c' j

/-- The headers of the response promise something, and it is so. -/
def Truthful [DecidableEq ι] (xs : ι → Arrival) (c : Config (redis ι) (World ι) Unit ι Response)
    (i : ι) (t : ℕ) (response : Response) : Prop :=
  ∃ remaining reset : ℕ,
    header "X-RateLimit-Remaining" response.headers = some remaining.repr ∧
    header "X-RateLimit-Reset" response.headers = some reset.repr ∧
    Promise xs c i t remaining reset

/-! ### The headers of a response -/

theorem header_setHeader (name value : String) (hs : List (String × String)) :
    header name (setHeader name value hs) = some value := by
  unfold header
  induction hs with
  | nil => simp [setHeader]
  | cons h hs ih =>
    unfold setHeader
    split_ifs with hname
    · simp
    · rw [List.find?_cons_of_neg (by simpa using hname)]
      exact ih

theorem header_reset (remaining resetEpoch : ℕ) (response : Response) :
    header "X-RateLimit-Reset" (setLimitHeaders remaining resetEpoch response).headers =
      some resetEpoch.repr :=
  header_setHeader _ _ _

/-- A limited request that is answered has read the clock, and is told the start of its window. -/
def Told (xs : ι → Arrival) (i : ι) (r : Except Exc Response) (w : World ι) : Prop :=
  match r with
  | .ok response => Limited (xs i).request → (xs i).readAt ≤ w.clock ∧
      header "X-RateLimit-Reset" response.headers = some (bucketOf (xs i) * window).repr
  | .error _ => True

/-- The clock goes forward. -/
def forward (ι : Type) : Contract (server (ι := ι)) where
  assume s w _ := Advances s w
  rely _ w w' := w.clock ≤ w'.clock
  guar w w' := w.clock ≤ w'.clock
  refl _ _ := le_rfl
  trans h h' := le_trans h h'

theorem told_callNext (outcome : Except Exc Response) (h : t ≤ w.clock) :
    Outline (forward ι) (fun _ _ w => t ≤ w.clock) (callNext i outcome) () w := by
  refine Outline.call (fun w => t ≤ w.clock) (fun _ _ hr h => h.trans hr) h fun w h _ => ?_
  refine ⟨le_rfl, Outline.call (fun w => t ≤ w.clock) (fun _ _ hr h => h.trans hr) h
    fun w h _ => ?_⟩
  cases outcome with
  | ok response => exact ⟨le_rfl, h⟩
  | error exc => exact ⟨le_rfl, h⟩

theorem told_dispatch :
    Outline (forward ι) (fun r _ w => Told xs i r w) (dispatch i (xs i)) () w := by
  unfold dispatch
  split_ifs with hl
  · refine Outline.call (fun _ => True) (fun _ _ _ _ => trivial) trivial fun w _ hadv => ⟨hadv, ?_⟩
    refine Outline.call (fun w => (xs i).readAt ≤ w.clock) (fun _ _ hr h => h.trans hr) le_rfl
      fun w hread (hadv : w.clock ≤ (xs i).countedAt) => ⟨hadv, ?_⟩
    change Outline (forward ι) _ (afterCount i (xs i).outcome (bucketOf (xs i)) _) () _
    unfold afterCount
    split_ifs
    · exact fun _ => ⟨hread.trans hadv, header_reset _ _ _⟩
    · exact (told_callNext (xs i).outcome (hread.trans hadv)).bind
        (fun response _ _ hread _ => ⟨hread, header_reset _ _ _⟩) fun _ _ _ _ => trivial
  · refine (told_callNext (xs i).outcome (Nat.zero_le _)).mono fun r _ w _ => ?_
    cases r with
    | ok response => exact fun hl' => absurd hl' hl
    | error exc => trivial

theorem fits_forward :
    Fits isolation (fun _ => True) ClockAdvances (fun _ : ι => forward ι) (Told xs) where
  assume {c i s k} hP _ _ hprog := by
    have hadv : NextAdvances c.shared (c.procs i).prog := hP
    rw [hprog] at hadv
    exact hadv
  keeps _ _ := trivial
  rely _ _ _ _ _ _ hg := hg
  stable {i r w w'} hq hr := by
    cases r with
    | error exc => trivial
    | ok response => exact fun hl => ⟨(hq hl).1.trans hr, (hq hl).2⟩
  crash _ _ := trivial

theorem told_answered [DecidableEq ι] (hrun : server.Run ClockAdvances (pool xs) c)
    (hl : Limited (xs i).request) (hres : (c.procs i).prog = .ret response) :
    (xs i).readAt ≤ c.shared.clock ∧
      header "X-RateLimit-Reset" response.headers = some (bucketOf (xs i) * window).repr := by
  have h := ((Sound.start trivial fun _ => told_dispatch).run fits_forward hrun).1.outline i
  rw [hres] at h
  exact h hl

/-- **The reset is never ahead**: it is the start of the window in which the request has read the
clock, whatever the run, and so no response is truthful. -/
theorem reset_not_ahead [DecidableEq ι] (hrun : server.Run ClockAdvances (pool xs) c)
    (hl : Limited (xs i).request) (hres : (c.procs i).prog = .ret response)
    (ht : c.shared.clock ≤ t) : ¬ Truthful xs c i t response := by
  rintro ⟨remaining, reset, -, hreset, hpromise⟩
  obtain ⟨hread, htold⟩ := told_answered hrun hl hres
  rw [hreset] at htold
  have heq : reset = bucketOf (xs i) * window :=
    Numerals.toList_repr_inj (congrArg String.toList (Option.some.inj htold))
  have hahead := hpromise.ahead
  rw [heq, bucketOf_eq, window] at hahead
  omega

namespace Sample

/-- The first of two requests, which reads the clock at second 59, is answered. -/
def answered : Config (redis Two) (World Two) Unit Two Response :=
  server.fireAll [.first, .first, .first, .first] (pool RateLimits.Sample.arrivals)

def ok : Response := setLimitHeaders 119 0 (.new [] 200 [] none)

theorem answered_first : (answered.procs .first).prog = .ret ok := rfl

end Sample

/-- At second 59 it says that the count starts again at second 0. -/
theorem not_truthful_zero :
    ¬ Truthful RateLimits.Sample.arrivals Sample.answered .first (59 * 10 ^ 6) Sample.ok := by
  rintro ⟨remaining, reset, -, hreset, hpromise⟩
  have hzero : header "X-RateLimit-Reset" Sample.ok.headers = some (0 : ℕ).repr := by
    decide +kernel
  rw [hzero] at hreset
  have heq : 0 = reset :=
    Numerals.toList_repr_inj (congrArg String.toList (Option.some.inj hreset))
  subst heq
  exact absurd hpromise.ahead (by decide)

/-- Nor is it so a second later. -/
theorem reset_not_ahead_second :
    ¬ Truthful RateLimits.Sample.arrivals Sample.answered .first (60 * 10 ^ 6) Sample.ok := by
  have hrun : server.Run ClockAdvances (pool RateLimits.Sample.arrivals) Sample.answered :=
    Machine.run_fireAll (by decide)
  exact reset_not_ahead hrun (by decide) Sample.answered_first (by decide)

end PaymentGateway.Results.RateHeaders
