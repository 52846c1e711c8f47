import PaymentGateway.Middleware.Quota

/-! # The rate limit

However requests and their steps interleave, at most 120 requests of an identity are forwarded in an
aligned window of 60 seconds and at most 240 in any 60 seconds; and a request is rejected only if
120 others of its identity were counted into its window. -/

namespace PaymentGateway.Results.RateLimits

open PaymentGateway.Lib.Program PaymentGateway.Lib.Sessions PaymentGateway.Lib.Interference
open PaymentGateway.Lib.Quotas
open PaymentGateway.Middleware.Statements (Request Response Exc)
open PaymentGateway.Middleware.RateLimit PaymentGateway.Middleware.Quota

variable {ι : Type} {xs : ι → Arrival} {c : Config (redis ι) (World ι) Unit ι Response} {i : ι}

instance (s : Stmt ι) (w : World ι) : Decidable (Advances s w) :=
  match s with
  | .time _ => inferInstanceAs (Decidable (_ ≤ _))
  | .incr _ _ _ _ => inferInstanceAs (Decidable (_ ≤ _))
  | .start _ => isTrue trivial
  | .await _ _ => isTrue trivial

/-- The next statement of the request does not read the clock of Redis before `w.clock`. -/
def NextAdvances (w : World ι) : Prog (redis ι) Response → Prop
  | .call s _ => Advances s w
  | .ret _ => True
  | .raise _ => True

instance (w : World ι) : (p : Prog (redis ι) Response) → Decidable (NextAdvances w p)
  | .call s _ => inferInstanceAs (Decidable (Advances s w))
  | .ret _ => isTrue trivial
  | .raise _ => isTrue trivial

/-- The clock of Redis does not go back. -/
def ClockAdvances (c : Config (redis ι) (World ι) Unit ι Response) : Move ι → Prop
  | .fire i => NextAdvances c.shared (c.procs i).prog
  | .kill _ => True

instance (c : Config (redis ι) (World ι) Unit ι Response) : (m : Move ι) →
    Decidable (ClockAdvances c m)
  | .fire i => inferInstanceAs (Decidable (NextAdvances c.shared (c.procs i).prog))
  | .kill _ => isTrue trivial

/-- A request has no state of its own in Redis. -/
def isolation : Isolation (server (ι := ι)) where
  Own _ _ := True
  Apart _ _ := True
  own_closed _ := trivial
  apart_closed _ := trivial
  apart_symm _ := trivial
  own_exec _ := trivial
  own_other _ _ _ _ := trivial
  apart_exec _ _ _ _ := trivial

theorem fits : Fits isolation (Counting xs) ClockAdvances (contract xs) (Ended xs) where
  assume {c i s k} hP _ hJ hprog := by
    have hadv : NextAdvances c.shared (c.procs i).prog := hP
    rw [hprog] at hadv
    exact ⟨hJ, hadv⟩
  keeps _ hg := hg.2.1
  rely {i j _ _ _ _} hij _ _ _ _ _ hg := by
    obtain ⟨hclock, -, es, he, hof⟩ := hg
    exact ⟨hclock, es, he, fun e h e' => hij ((hof e h).symm.trans e')⟩
  stable {i r w w'} hq hr := by
    cases r with
    | error exc => trivial
    | ok response =>
      intro hl
      obtain ⟨n, hn, hstarted⟩ := hq hl
      exact ⟨n, mem_rely hr hn, fun hle => mem_rely hr (hstarted hle)⟩
  crash _ _ := trivial

/-- What holds in every state of a run. -/
theorem sound [DecidableEq ι]
    (hprompt : ∀ i, Limited (xs i).request → (xs i).countedAt < (xs i).readAt + 60 * 10 ^ 6)
    (hrun : server.Run ClockAdvances (pool xs) c) :
    Sound isolation (Counting xs) (contract xs) (Ended xs) c :=
  ((Sound.start counting_start fun i =>
    outline_dispatch (hprompt i) fun _ h => by cases h).run fits hrun).1

/-- The request was to a limited path, and its handler was called. -/
def Forwarded (xs : ι → Arrival) (c : Config (redis ι) (World ι) Unit ι Response) (i : ι) : Prop :=
  Limited (xs i).request ∧ .started i ∈ c.shared.events

/-- The request was to a limited path, and was answered without its handler. -/
def Rejected (xs : ι → Arrival) (c : Config (redis ι) (World ι) Unit ι Response) (i : ι) : Prop :=
  Limited (xs i).request ∧ (∃ r, (c.procs i).prog = .ret r) ∧ .started i ∉ c.shared.events

/-- A bucket admits 120 requests. -/
theorem card_bucket (h : Counting xs c.shared) (a : String) (b : ℕ) {S : Finset ι}
    (hS : ∀ i ∈ S, Forwarded xs c i ∧ (xs i).identity = a ∧ bucketOf (xs i) = b) :
    S.card ≤ 120 := by
  refine (h.numbered a b).card_le fun i hi => ?_
  obtain ⟨⟨hl, hstarted⟩, ha, hb⟩ := hS i hi
  obtain ⟨n, hn, hmem⟩ := h.admitted i hstarted hl
  exact ⟨n, hn, mem_countedIn.mpr ⟨hmem, ha, hb⟩⟩

/-- **The rate limit.** In every run in which every request is counted within 60 seconds of reading
the clock. -/
theorem rate_limited [DecidableEq ι]
    (hprompt : ∀ i, Limited (xs i).request → (xs i).countedAt < (xs i).readAt + 60 * 10 ^ 6)
    (hrun : server.Run ClockAdvances (pool xs) c) :
    (∀ (a : String) (b : ℕ) (S : Finset ι), (∀ i ∈ S, Forwarded xs c i ∧ (xs i).identity = a ∧
      b * (60 * 10 ^ 6) ≤ (xs i).readAt ∧ (xs i).readAt < (b + 1) * (60 * 10 ^ 6)) →
        S.card ≤ 120) ∧
    (∀ (a : String) (s : ℚ) (S : Finset ι), (∀ i ∈ S, Forwarded xs c i ∧ (xs i).identity = a ∧
      s ≤ (xs i).readAt ∧ ((xs i).readAt : ℚ) < s + 60 * 10 ^ 6) → S.card ≤ 240) ∧
    ∀ i, Rejected xs c i → ∃ S : Finset ι, S.card = 120 ∧ ∀ j ∈ S, j ≠ i ∧
      (xs j).identity = (xs i).identity ∧ bucketOf (xs j) = bucketOf (xs i) ∧
      ∃ n, .counted j n ∈ c.shared.events := by
  have h := sound hprompt hrun
  refine ⟨fun a b S hS => ?_, fun a s S hS => ?_, fun i hi => ?_⟩
  · refine card_bucket h.inv a b fun i hi => ?_
    obtain ⟨hf, ha, hlow, hhigh⟩ := hS i hi
    refine ⟨hf, ha, ?_⟩
    rw [bucketOf_eq]
    omega
  · -- the readings are in two buckets
    have htwo : ∀ i ∈ S, bucketOf (xs i) = ⌈s⌉₊ / (60 * 10 ^ 6) ∨
        bucketOf (xs i) = ⌈s⌉₊ / (60 * 10 ^ 6) + 1 := fun i hi => by
      obtain ⟨-, -, hlow, hhigh⟩ := hS i hi
      rw [bucketOf_eq]
      exact two_windows (by norm_num) hlow (by exact_mod_cast hhigh)
    have hfirst : (S.filter fun i => bucketOf (xs i) = ⌈s⌉₊ / (60 * 10 ^ 6)).card ≤ 120 :=
      card_bucket h.inv a _ fun i hi => by
        obtain ⟨hi, hb⟩ := Finset.mem_filter.mp hi
        exact ⟨(hS i hi).1, (hS i hi).2.1, hb⟩
    have hsecond : (S.filter fun i => ¬ bucketOf (xs i) = ⌈s⌉₊ / (60 * 10 ^ 6)).card ≤ 120 :=
      card_bucket h.inv a (⌈s⌉₊ / (60 * 10 ^ 6) + 1) fun i hi => by
        obtain ⟨hi, hb⟩ := Finset.mem_filter.mp hi
        exact ⟨(hS i hi).1, (hS i hi).2.1, (htwo i hi).resolve_left hb⟩
    have := Finset.card_filter_add_card_filter_not (s := S)
      (fun i => bucketOf (xs i) = ⌈s⌉₊ / (60 * 10 ^ 6))
    omega
  · obtain ⟨hl, ⟨r, hr⟩, hnot⟩ := hi
    have hended := h.outline i
    rw [hr] at hended
    obtain ⟨n, hn, hstarted⟩ := hended hl
    have hlimit : 120 < n := by
      by_contra hle
      exact hnot (hstarted (Nat.not_lt.mp hle))
    have hin : (i, n) ∈ countedIn xs (xs i).identity (bucketOf (xs i)) c.shared :=
      mem_countedIn.mpr ⟨hn, rfl, rfl⟩
    have honce : ((countedIn xs (xs i).identity (bucketOf (xs i)) c.shared).map Prod.fst).Nodup :=
      h.inv.once.sublist (List.filter_sublist.map _)
    obtain ⟨S, hcard, hS⟩ := (h.inv.numbered _ _).earlier honce hin hlimit
    refine ⟨S, hcard, fun j hj => ?_⟩
    obtain ⟨hne, m, hm⟩ := hS j hj
    obtain ⟨hcounted, ha, hb⟩ := mem_countedIn.mp hm
    exact ⟨hne, ha, hb, m, hcounted⟩

/-! ### Two requests of one identity -/

namespace Sample

/-- A request with the API key "key", which reads the clock at second 59. -/
def arrival (second : ℕ) : Arrival where
  request := ⟨"GET", "/v1/orders", none, none, ⟨none, some "key"⟩, []⟩
  client := some "192.0.2.1"
  readAt := 59 * 10 ^ 6
  countedAt := second * 10 ^ 6
  outcome := .ok (.new [] 200 [] none)

def arrivals : Two → Arrival
  | .first => arrival 59
  | .second => arrival 61

/-- Both read the clock, both are counted, one of them in the next minute, and both are forwarded. -/
def forwarded : Config (redis Two) (World Two) Unit Two Response :=
  server.fireAll [.first, .second, .first, .second, .first, .second] (pool arrivals)

end Sample

open Sample

theorem rate_limited_two : (∀ i, Forwarded arrivals forwarded i) ∧
    (Finset.univ : Finset Two).card ≤ 120 := by
  have hall : ∀ i, Forwarded arrivals forwarded i := by
    intro i
    cases i <;> exact ⟨by decide, by decide⟩
  have hrun : server.Run ClockAdvances (pool arrivals) forwarded :=
    Machine.run_fireAll (by decide)
  have hprompt : ∀ i, Limited (arrivals i).request →
      (arrivals i).countedAt < (arrivals i).readAt + 60 * 10 ^ 6 := by
    intro i _
    cases i <;> decide
  refine ⟨hall, (rate_limited hprompt hrun).1 "key" 0 Finset.univ fun i _ => ⟨hall i, ?_⟩⟩
  cases i <;> exact ⟨rfl, by decide, by decide⟩

end PaymentGateway.Results.RateLimits
