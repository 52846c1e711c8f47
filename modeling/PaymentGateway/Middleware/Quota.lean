import PaymentGateway.Lib.Interference
import PaymentGateway.Lib.Numerals
import PaymentGateway.Lib.Quotas
import PaymentGateway.Lib.Tables
import PaymentGateway.Middleware.RateLimit

/-! # What the counters count

`Counting` ties the counters to what has happened: under the key of an identity and a bucket stands
the number of requests of this identity that were counted into this bucket, and they got the numbers
`1, 2, …`. It needs that no counter is gone while requests can still be counted into its bucket:
every request is counted within a window of reading the clock, and a counter lives for two. -/

namespace PaymentGateway.Middleware.Quota

open PaymentGateway.Lib.Program PaymentGateway.Lib.Sessions PaymentGateway.Lib.Interference
open PaymentGateway.Lib.Quotas PaymentGateway.Lib.Numerals PaymentGateway.Lib.Tables
open PaymentGateway.Middleware.Statements (Request Response Exc)
open PaymentGateway.Middleware.RateLimit

variable {ι : Type}

/-- The bucket of a request. -/
def bucketOf (a : Arrival) : ℕ := bucket (a.readAt / 10 ^ 6, a.readAt % 10 ^ 6)

/-- Buckets are aligned windows. -/
theorem bucketOf_eq (a : Arrival) : bucketOf a = a.readAt / (60 * 10 ^ 6) := by
  unfold bucketOf bucket nowMs window
  omega

/-- A key tells identity and bucket, whatever characters the identity has. -/
theorem counterKey_inj {a a' : String} {b b' : ℕ} (h : counterKey a b = counterKey a' b') :
    a = a' ∧ b = b' := by
  have h := congrArg String.toList h
  unfold counterKey at h
  simp only [String.toList_append, List.append_assoc, List.append_cancel_left_eq] at h
  obtain ⟨ha, hb⟩ := append_cons_inj (colon_notMem_repr b) (colon_notMem_repr b') h
  exact ⟨String.toList_inj.mp ha, toList_repr_inj hb⟩

/-! ### The counted requests -/

/-- The request and the number of an event of counting. -/
def Event.count? : Event ι → Option (ι × ℕ)
  | .counted i n => some (i, n)
  | _ => none

/-- The counted requests, with their numbers. -/
def counted (w : World ι) : List (ι × ℕ) := w.events.filterMap Event.count?

theorem mem_counted {w : World ι} {i : ι} {n : ℕ} :
    (i, n) ∈ counted w ↔ .counted i n ∈ w.events := by
  unfold counted
  rw [List.mem_filterMap]
  refine ⟨fun ⟨e, he, h⟩ => ?_, fun h => ⟨_, h, rfl⟩⟩
  cases e with
  | counted j m => cases h; exact he
  | _ => cases h

/-- Those of an identity and a bucket. -/
def countedIn (xs : ι → Arrival) (a : String) (b : ℕ) (w : World ι) : List (ι × ℕ) :=
  (counted w).filter fun p => (xs p.1).identity = a ∧ bucketOf (xs p.1) = b

theorem mem_countedIn {xs : ι → Arrival} {a : String} {b : ℕ} {w : World ι} {i : ι} {n : ℕ} :
    (i, n) ∈ countedIn xs a b w ↔
      .counted i n ∈ w.events ∧ (xs i).identity = a ∧ bucketOf (xs i) = b := by
  unfold countedIn
  rw [List.mem_filter, mem_counted, decide_eq_true_iff]

section Events

variable {xs : ι → Arrival} {w w' : World ι} {i : ι} {n : ℕ}

theorem counted_event {e : Event ι} (he : Event.count? e = Option.none)
    (hevents : w'.events = w.events ++ [e]) : counted w' = counted w := by
  unfold counted
  rw [hevents, List.filterMap_append]
  simp [he]

theorem counted_incr (hevents : w'.events = w.events ++ [.counted i n]) :
    counted w' = counted w ++ [(i, n)] := by
  unfold counted
  rw [hevents, List.filterMap_append]
  rfl

theorem countedIn_incr (hevents : w'.events = w.events ++ [.counted i n]) :
    countedIn xs (xs i).identity (bucketOf (xs i)) w' =
      countedIn xs (xs i).identity (bucketOf (xs i)) w ++ [(i, n)] := by
  unfold countedIn
  rw [counted_incr hevents, List.filter_append, List.filter_singleton]
  simp

theorem countedIn_other (hevents : w'.events = w.events ++ [.counted i n]) {a : String} {b : ℕ}
    (hab : ¬ ((xs i).identity = a ∧ bucketOf (xs i) = b)) :
    countedIn xs a b w' = countedIn xs a b w := by
  unfold countedIn
  rw [counted_incr hevents, List.filter_append, List.filter_singleton]
  simp [hab]

end Events

structure Counting (xs : ι → Arrival) (w : World ι) : Prop where
  numbered : ∀ a b, Numbered (countedIn xs a b w)
  /-- A counter outlives the time at which requests are counted into its bucket. -/
  counter : ∀ a b, countedIn xs a b w ≠ [] → ∃ e, (b + 2) * (60 * 10 ^ 6) ≤ e ∧
    w.counters (counterKey a b) = some ⟨(countedIn xs a b w).length, e⟩
  none : ∀ a b, countedIn xs a b w = [] → w.counters (counterKey a b) = none
  once : ((counted w).map Prod.fst).Nodup
  admitted : ∀ i, .started i ∈ w.events → Limited (xs i).request →
    ∃ n ≤ limit, .counted i n ∈ w.events

variable {xs : ι → Arrival} {w w' : World ι} {i : ι}

theorem counting_start : Counting xs ⟨0, fun _ => none, []⟩ :=
  ⟨fun _ _ => numbered_nil, fun _ _ h => absurd rfl h, fun _ _ _ => rfl, List.nodup_nil,
    fun _ h => by cases h⟩

/-- Only counting changes what is counted. -/
theorem Counting.event (h : Counting xs w) {e : Event ι} (he : Event.count? e = Option.none)
    (hcounters : w'.counters = w.counters) (hevents : w'.events = w.events ++ [e])
    (hadmitted : ∀ i, e = .started i → Limited (xs i).request →
      ∃ n ≤ limit, .counted i n ∈ w.events) : Counting xs w' := by
  have hc : counted w' = counted w := counted_event he hevents
  have hin : ∀ a b, countedIn xs a b w' = countedIn xs a b w := fun a b => by
    unfold countedIn
    rw [hc]
  refine ⟨fun a b => ?_, fun a b hne => ?_, fun a b hnil => ?_, ?_, fun i hi hl => ?_⟩
  · rw [hin]; exact h.numbered a b
  · rw [hin] at hne ⊢; rw [hcounters]; exact h.counter a b hne
  · rw [hin] at hnil; rw [hcounters]; exact h.none a b hnil
  · rw [hc]; exact h.once
  · have hback : ∃ n ≤ limit, .counted i n ∈ w.events := by
      rw [hevents] at hi
      rcases List.mem_append.mp hi with hi | hi
      · exact h.admitted i hi hl
      · exact hadmitted i (List.mem_singleton.mp hi).symm hl
    obtain ⟨n, hn, hmem⟩ := hback
    exact ⟨n, hn, by rw [hevents]; exact List.mem_append_left _ hmem⟩

/-- The number that a request gets. -/
theorem Counting.next_eq (h : Counting xs w) {now : ℕ} {a : String} {b : ℕ}
    (hnow : now < (b + 2) * (60 * 10 ^ 6)) :
    next (w.counters (counterKey a b)) now = (countedIn xs a b w).length + 1 := by
  by_cases hnil : countedIn xs a b w = []
  · rw [h.none a b hnil, hnil]
    rfl
  · obtain ⟨e, he, hc⟩ := h.counter a b hnil
    rw [hc]
    exact if_pos (by show now < e; omega)

/-- **Counting a request.** -/
theorem Counting.incr (h : Counting xs w) (hread : (xs i).readAt ≤ (xs i).countedAt)
    (hprompt : (xs i).countedAt < (xs i).readAt + 60 * 10 ^ 6)
    (hnew : ∀ n, .counted i n ∉ w.events) {n : ℕ}
    (hn : n = next (w.counters (counterKey (xs i).identity (bucketOf (xs i)))) (xs i).countedAt)
    (hcounters : w'.counters = Function.update w.counters
      (counterKey (xs i).identity (bucketOf (xs i)))
      (some ⟨n, (xs i).countedAt + window * 2 * 10 ^ 6⟩))
    (hevents : w'.events = w.events ++ [.counted i n]) : Counting xs w' := by
  have hb := bucketOf_eq (xs i)
  have hnow : (xs i).countedAt < (bucketOf (xs i) + 2) * (60 * 10 ^ 6) := by omega
  have hn : n = (countedIn xs (xs i).identity (bucketOf (xs i)) w).length + 1 :=
    hn.trans (h.next_eq hnow)
  have hkey : ∀ a b, ¬ ((xs i).identity = a ∧ bucketOf (xs i) = b) →
      counterKey a b ≠ counterKey (xs i).identity (bucketOf (xs i)) := fun a b hab e =>
    hab ⟨(counterKey_inj e).1.symm, (counterKey_inj e).2.symm⟩
  refine ⟨fun a b => ?_, fun a b hne => ?_, fun a b hnil => ?_, ?_, fun j hj hl => ?_⟩
  · by_cases hab : (xs i).identity = a ∧ bucketOf (xs i) = b
    · obtain ⟨rfl, rfl⟩ := hab
      rw [countedIn_incr hevents, hn]
      exact (h.numbered _ _).append i
    · rw [countedIn_other hevents hab]
      exact h.numbered a b
  · rw [hcounters]
    by_cases hab : (xs i).identity = a ∧ bucketOf (xs i) = b
    · obtain ⟨rfl, rfl⟩ := hab
      refine ⟨(xs i).countedAt + window * 2 * 10 ^ 6, ?_, ?_⟩
      · unfold window
        omega
      · rw [Function.update_self, countedIn_incr hevents, List.length_append,
          List.length_singleton, ← hn]
    · rw [countedIn_other hevents hab] at hne ⊢
      rw [Function.update_of_ne (hkey a b hab)]
      exact h.counter a b hne
  · by_cases hab : (xs i).identity = a ∧ bucketOf (xs i) = b
    · obtain ⟨rfl, rfl⟩ := hab
      rw [countedIn_incr hevents] at hnil
      exact absurd hnil (by simp)
    · rw [countedIn_other hevents hab] at hnil
      rw [hcounters, Function.update_of_ne (hkey a b hab)]
      exact h.none a b hnil
  · rw [counted_incr hevents]
    refine nodup_append_key h.once fun p hp e => ?_
    obtain ⟨j, m⟩ := p
    obtain rfl : j = i := e
    exact hnew m (mem_counted.mp hp)
  · rw [hevents] at hj ⊢
    rcases List.mem_append.mp hj with hj | hj
    · obtain ⟨m, hm, hmem⟩ := h.admitted j hj hl
      exact ⟨m, hm, List.mem_append_left _ hmem⟩
    · cases List.mem_singleton.mp hj

/-! ### The outline of a request -/

/-- The requests before their first statement. -/
def pool (xs : ι → Arrival) : Config (redis ι) (World ι) Unit ι Response :=
  server.start ⟨0, fun _ => none, []⟩ fun i => dispatch i (xs i)

/-- The clock does not go back. -/
def Advances : Stmt ι → World ι → Prop
  | .time now, w => w.clock ≤ now
  | .incr _ _ _ now, w => w.clock ≤ now
  | _, _ => True

/-- What the request `i` does is seen in events of its own. -/
def contract (xs : ι → Arrival) (i : ι) : Contract (server (ι := ι)) where
  assume s w _ := Counting xs w ∧ Advances s w
  rely _ w w' := w.clock ≤ w'.clock ∧
    ∃ es : List (Event ι), w'.events = w.events ++ es ∧ ∀ e ∈ es, e.of ≠ i
  guar w w' := w.clock ≤ w'.clock ∧ Counting xs w' ∧
    ∃ es : List (Event ι), w'.events = w.events ++ es ∧ ∀ e ∈ es, e.of = i
  refl _ w := ⟨le_rfl, [], by simp, by simp⟩
  trans := by
    rintro - w w' w'' ⟨hc, es, he, hes⟩ ⟨hc', es', he', hes'⟩
    refine ⟨hc.trans hc', es ++ es', by rw [he', he, List.append_assoc], fun e h => ?_⟩
    rcases List.mem_append.mp h with h | h
    · exact hes e h
    · exact hes' e h

/-- How a request has ended: it was counted, and forwarded exactly if its number is within the
limit. -/
def Ended (xs : ι → Arrival) (i : ι) (r : Except Exc Response) (w : World ι) : Prop :=
  match r with
  | .ok _ => Limited (xs i).request → ∃ n, .counted i n ∈ w.events ∧
      (n ≤ limit → .started i ∈ w.events)
  | .error _ => True

/-- The handler was called; before that the request was counted, if it had to be. -/
def Called (xs : ι → Arrival) (i : ι) (r : Except Exc Response) (w : World ι) : Prop :=
  match r with
  | .ok _ => .started i ∈ w.events ∧ (Limited (xs i).request → ∃ n, .counted i n ∈ w.events)
  | .error _ => True

/-- What a request knows of its events survives what the others do. -/
theorem mem_rely {e : Event ι} {l : Unit} (hr : (contract xs i).rely l w w') (h : e ∈ w.events) :
    e ∈ w'.events := by
  obtain ⟨-, es, hes, -⟩ := hr
  rw [hes]
  exact List.mem_append_left _ h

theorem notMem_rely {e : Event ι} {l : Unit} (hr : (contract xs i).rely l w w') (he : e.of = i)
    (h : e ∉ w.events) : e ∉ w'.events := by
  obtain ⟨-, es, hes, hof⟩ := hr
  rw [hes]
  exact fun hmem => (List.mem_append.mp hmem).elim h fun hmem => hof e hmem he

theorem outline_callNext (outcome : Except Exc Response)
    (hadm : Limited (xs i).request → ∃ n ≤ limit, .counted i n ∈ w.events) :
    Outline (contract xs i) (fun r _ w => Called xs i r w) (callNext i outcome) () w := by
  refine Outline.call (fun w => Limited (xs i).request → ∃ n ≤ limit, .counted i n ∈ w.events)
    (fun w w' hr h hl => ?_) hadm fun w hadm ⟨hJ, _⟩ => ?_
  · obtain ⟨n, hn, hmem⟩ := h hl
    exact ⟨n, hn, mem_rely hr hmem⟩
  refine ⟨⟨le_rfl, hJ.event rfl rfl rfl fun j e hl => ?_, [_], rfl, by simp [Event.of]⟩, ?_⟩
  · cases e; exact hadm hl
  refine Outline.call (fun w => .started i ∈ w.events ∧
      (Limited (xs i).request → ∃ n, .counted i n ∈ w.events)) (fun w w' hr h => ?_) ?_
    fun w ⟨hstarted, hcounted⟩ ⟨hJ, _⟩ => ?_
  · refine ⟨mem_rely hr h.1, fun hl => ?_⟩
    obtain ⟨n, hmem⟩ := h.2 hl
    exact ⟨n, mem_rely hr hmem⟩
  · refine ⟨List.mem_append_right _ (List.mem_singleton_self _), fun hl => ?_⟩
    obtain ⟨n, -, hmem⟩ := hadm hl
    exact ⟨n, List.mem_append_left _ hmem⟩
  · cases outcome with
    | ok response =>
      refine ⟨⟨le_rfl, hJ.event rfl rfl rfl (fun _ e => (by cases e)), [_], rfl,
        by simp [Event.of]⟩,
        List.mem_append_left _ hstarted, fun hl => ?_⟩
      obtain ⟨n, hmem⟩ := hcounted hl
      exact ⟨n, List.mem_append_left _ hmem⟩
    | error exc =>
      exact ⟨⟨le_rfl, hJ.event rfl rfl rfl (fun _ e => (by cases e)), [_], rfl,
        by simp [Event.of]⟩,
        trivial⟩

theorem outline_afterCount (outcome : Except Exc Response) (b : ℕ) {n : ℕ}
    (hn : .counted i n ∈ w.events) :
    Outline (contract xs i) (fun r _ w => Ended xs i r w) (afterCount i outcome b n) () w := by
  unfold afterCount
  split_ifs with hlimit
  · exact fun _ => ⟨n, hn, fun hle => absurd hle (Nat.not_le.mpr hlimit)⟩
  · refine (outline_callNext outcome fun _ => ⟨n, Nat.not_lt.mp hlimit, hn⟩).bind
      (fun response _ w h => ?_) fun _ _ _ _ => trivial
    intro hl
    obtain ⟨m, hm⟩ := h.2 hl
    exact ⟨m, hm, fun _ => h.1⟩

/-- **A request** is counted under the key of its identity and bucket, if its path is limited. -/
theorem outline_dispatch
    (hprompt : Limited (xs i).request → (xs i).countedAt < (xs i).readAt + 60 * 10 ^ 6)
    (hnew : ∀ n, .counted i n ∉ w.events) :
    Outline (contract xs i) (fun r _ w => Ended xs i r w) (dispatch i (xs i)) () w := by
  unfold dispatch
  split_ifs with hl
  · refine Outline.call (fun w => ∀ n, .counted i n ∉ w.events)
      (fun w w' hr h n => notMem_rely hr rfl (h n)) hnew fun w hnew ⟨hJ, hadv⟩ => ?_
    refine ⟨⟨hadv, ⟨hJ.numbered, hJ.counter, hJ.none, hJ.once, hJ.admitted⟩, [],
      (List.append_nil _).symm, by simp⟩, ?_⟩
    refine Outline.call (fun w => (xs i).readAt ≤ w.clock ∧ ∀ n, .counted i n ∉ w.events)
      (fun w w' hr h => ⟨h.1.trans hr.1, fun n => notMem_rely hr rfl (h.2 n)⟩) ⟨le_rfl, hnew⟩
      fun w ⟨hread, hnew⟩ ⟨hJ, hadv⟩ => ?_
    refine ⟨⟨hadv, hJ.incr (hread.trans hadv) (hprompt hl) hnew rfl rfl rfl, [_], rfl,
      by simp [Event.of]⟩, ?_⟩
    exact outline_afterCount _ _ (List.mem_append_right _ (List.mem_singleton_self _))
  · exact (outline_callNext (xs i).outcome fun h => absurd h hl).mono fun r _ w h => by
      cases r with
      | ok response => exact fun hl' => absurd hl' hl
      | error exc => trivial

end PaymentGateway.Middleware.Quota
