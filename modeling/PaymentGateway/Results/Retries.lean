import PaymentGateway.Middleware.Retries

/-! # Retries after a refusal

A request that is refused, by the rate limiter or with a status in `[300, 500)`, leaves its refusal
under its idempotency key, and a retry is answered with it. In a run in which no request that shares
its key is refused, a retry of a rate-limited request reaches its handler when it is below the
limit, and only successes are replayed. -/

namespace PaymentGateway.Results.Retries

open PaymentGateway.Lib.Program PaymentGateway.Lib.Sessions PaymentGateway.Lib.Interference
open PaymentGateway.Middleware.Statements (Request Response Exc)
open PaymentGateway.Middleware.Idempotency PaymentGateway.Middleware.Stack
open PaymentGateway.Middleware.RateLimit (Arrival Counter limit
  setLimitHeaders tooManyRequests)
open PaymentGateway.Middleware.Retries

variable {ι : Type} {ts : ι → Task} {counters : String → Option Counter}
  {c : Config (redis ι) (World ι) (Option String) ι Response}

/-! ### The law -/

/-- The request was counted above the limit. -/
def RateLimited (c : Config (redis ι) (World ι) (Option String) ι Response) (i : ι) : Prop :=
  ∃ n, limit < n ∧ .counted i n ∈ c.shared.rateLimit.events

/-- The request was answered by the idempotency middleware itself. -/
def Replayed (c : Config (redis ι) (World ι) (Option String) ι Response) (i : ι) (r : Response) :
    Prop :=
  (c.procs i).prog.result? = some (.ok r) ∧ .started i ∉ c.shared.rateLimit.events ∧
    ¬ RateLimited c i

structure NotSticky (ts : ι → Task) (c : Config (redis ι) (World ι) (Option String) ι Response) :
    Prop where
  /-- A retry of a rate-limited request is rate-limited too, or reaches its handler. -/
  retried : ∀ i j a b r, ts i = .request a → ts j = .request b → b.request = a.request →
    RateLimited c i → (c.procs j).prog.result? = some (.ok r) → ¬ RateLimited c j →
      .started j ∈ c.shared.rateLimit.events
  /-- Only a success is replayed; the other answers say that the key is taken. -/
  replayed : ∀ i r, Replayed c i r → r = keyInUse ∨ r = beingProcessed ∨ Success r.statusCode

/-! ### When it holds -/

/-- The next statement of the task does not refuse a request that shares its key. -/
def NextAccepts (ts : ι → Task) (w : World ι) : Prog (redis ι) Response → Prop
  | .call s _ => Accepts ts w s
  | .ret _ => True
  | .raise _ => True

instance [Fintype ι] [DecidableEq ι] (ts : ι → Task) (w : World ι) :
    (p : Prog (redis ι) Response) → Decidable (NextAccepts ts w p)
  | .call s _ => inferInstanceAs (Decidable (Accepts ts w s))
  | .ret _ => isTrue trivial
  | .raise _ => isTrue trivial

/-- No request that shares its key with another is refused. -/
def NoneRefused (ts : ι → Task) (c : Config (redis ι) (World ι) (Option String) ι Response) :
    Move ι → Prop
  | .fire i => NextAccepts ts c.shared (c.procs i).prog
  | .kill _ => True

instance [Fintype ι] [DecidableEq ι] (ts : ι → Task)
    (c : Config (redis ι) (World ι) (Option String) ι Response) :
    (m : Move ι) → Decidable (NoneRefused ts c m)
  | .fire i => inferInstanceAs (Decidable (NextAccepts ts c.shared (c.procs i).prog))
  | .kill _ => isTrue trivial

/-- The key that a request has reserved is nothing to the others. -/
def isolation : Isolation (server (ι := ι)) where
  Own _ _ := True
  Apart _ _ := True
  own_closed _ := trivial
  apart_closed _ := trivial
  apart_symm _ := trivial
  own_exec _ := trivial
  own_other _ _ _ _ := trivial
  apart_exec _ _ _ _ := trivial

theorem fits : Fits isolation (Inv ts) (NoneRefused ts) (contract ts) (Ended ts) where
  assume {c i s k} hP _ hJ hprog := by
    have hacc : NextAccepts ts c.shared (c.procs i).prog := hP
    rw [hprog] at hacc
    exact ⟨hJ, hacc⟩
  keeps _ hg := hg.1
  rely {i j _ _ _ _} hij _ _ _ _ _ hg := by
    obtain ⟨-, ⟨es, he, hof⟩, hstore⟩ := hg
    refine ⟨⟨es, he, fun e h e' => hij ((hof e h).symm.trans e')⟩, fun k hk hs hn => ?_⟩
    refine hstore k (fun hki => hij ?_) hn
    exact sole_of_not_shared hk hs i j hki hk
  stable {i r w w'} hq hr := by
    cases r with
    | error exc => trivial
    | ok response => exact hq.imp (fun h => h.rely hr) id
  crash _ _ := trivial

/-- What holds in every state of a run. -/
theorem sound [DecidableEq ι] (hrun : server.Run (NoneRefused ts) (pool ts counters) c) :
    Sound isolation (Inv ts) (contract ts) (Ended ts) c := by
  refine ((Sound.start inv_start fun i => ?_).run fits hrun).1
  cases hi : ts i with
  | request a => exact outline_dispatch hi fun _ _ => rfl
  | expiry key => exact outline_expire

/-- **Being rate-limited is not sticky**, in every run in which no request that shares its key is
refused. -/
theorem not_sticky [DecidableEq ι] (hrun : server.Run (NoneRefused ts) (pool ts counters) c) :
    NotSticky ts c := by
  have h := sound hrun
  have hended : ∀ {i r}, (c.procs i).prog.result? = some (.ok r) →
      Ended ts i (.ok r) c.shared := by
    intro i r hr
    have hi := h.outline i
    rwa [Prog.eq_ret_of_result hr] at hi
  refine ⟨fun i j a b r hi hj hab ⟨n, hn, hcounted⟩ hr hnot => ?_, fun i r ⟨hr, hstart, hnot⟩ => ?_⟩
  · -- the limited request shares no key, so the retry has none
    have hkeys : (ts j).key = (ts i).key := by rw [hi, hj, Task.key, Task.key, hab]
    have hne : j ≠ i := by
      rintro rfl
      exact hnot ⟨n, hn, hcounted⟩
    rcases hended hr with (hstarted | hlimited) | ⟨⟨hkey, -⟩, -⟩
    · exact hstarted
    · exact absurd hlimited hnot
    · exact absurd ⟨hkeys ▸ hkey, j, hne, hkeys⟩ (h.inv.counted i n hcounted hn)
  · rcases hended hr with (hstarted | hlimited) | ⟨-, hanswer⟩
    · exact absurd hstarted hstart
    · exact absurd hlimited hnot
    · exact hanswer

/-! ### A request and its retry -/

namespace Sample

def created : Response := .new [] 201 [] (some "application/json")

/-- A request that is sent in the minute `b`. -/
def arrival (method : String) (b : ℕ) : Arrival where
  request := ⟨method, "/v1/payments/upi/initiate", some "key-0001", none, ⟨none, some "api-key"⟩, []⟩
  client := some "192.0.2.1"
  readAt := b * (60 * 10 ^ 6)
  countedAt := b * (60 * 10 ^ 6)
  outcome := .ok created

/-- The same request in two minutes. -/
def tasks (method : String) : Two → Task
  | .first => .request (arrival method 0)
  | .second => .request (arrival method 1)

/-- In the first of them, `count` requests of its identity have been counted. -/
def countedBefore (count : ℕ) (key : String) : Option Counter :=
  if key = "rl:api-key:0" then some ⟨count, 120 * 10 ^ 6⟩ else none

abbrev State := Config (redis Two) (World Two) (Option String) Two Response

/-- A payment is refused by the rate limiter, and sent again in the next minute. -/
def refused : State :=
  server.fireAll (List.replicate 5 .first ++ List.replicate 2 .second)
    (pool (tasks "POST") (countedBefore 120))

/-- One is created, and sent again in the next minute. -/
def paid : State :=
  server.fireAll (List.replicate 7 .first ++ List.replicate 2 .second)
    (pool (tasks "POST") (countedBefore 0))

/-- A request that changes nothing is refused by the rate limiter, and sent again. -/
def read : State :=
  server.fireAll (List.replicate 2 .first ++ List.replicate 4 .second)
    (pool (tasks "GET") (countedBefore 120))

end Sample

open Sample

/-- The retry of a payment finds the payment, and the retry of a read reaches its handler. -/
theorem not_sticky_samples :
    Replayed paid .second created ∧ Success created.statusCode ∧
    RateLimited read .first ∧ .started .second ∈ read.shared.rateLimit.events := by
  have hpaid : server.Run (NoneRefused (tasks "POST"))
      (pool (tasks "POST") (countedBefore 0)) paid := Machine.run_fireAll (by decide +kernel)
  have hread : server.Run (NoneRefused (tasks "GET"))
      (pool (tasks "GET") (countedBefore 120)) read := Machine.run_fireAll (by decide +kernel)
  have hpayment : Replayed paid .second created := by
    refine ⟨by decide +kernel, by decide +kernel, fun ⟨n, _, hcounted⟩ => ?_⟩
    have hevents : paid.shared.rateLimit.events =
        [.counted .first 1, .started .first, .returned .first created] := by decide +kernel
    rw [hevents] at hcounted
    simp at hcounted
  have hfirst : RateLimited read .first := ⟨121, by decide, by decide +kernel⟩
  have hsecond : ¬ RateLimited read .second := by
    rintro ⟨n, hn, hcounted⟩
    have hevents : read.shared.rateLimit.events =
        [.counted .first 121, .counted .second 1, .started .second, .returned .second created] := by
      decide +kernel
    rw [hevents] at hcounted
    obtain rfl : n = 1 := by simpa using hcounted
    exact absurd hn (by decide)
  obtain ⟨r, hr⟩ : ∃ r, (read.procs .second).prog.result? = some (.ok r) :=
    ⟨setLimitHeaders 119 60 created, by decide +kernel⟩
  exact ⟨hpayment, ((not_sticky hpaid).replayed _ _ hpayment).resolve_left (by decide +kernel)
      |>.resolve_left (by decide +kernel),
    hfirst,
    (not_sticky hread).retried .first .second (arrival "GET" 0) _ r rfl rfl rfl hfirst hr hsecond⟩

/-- The retry of a rate-limited payment is answered 429, in a minute in which no request of its
identity was counted. -/
theorem sticky :
    server.Run (fun _ _ => True) (pool (tasks "POST") (countedBefore 120)) refused ∧
    RateLimited refused .first ∧ refused.shared.rateLimit.counters "rl:api-key:1" = none ∧
    (∃ r, Replayed refused .second r ∧ r.statusCode = 429) ∧
    ¬ NotSticky (tasks "POST") refused := by
  have hlimited : RateLimited refused .first := ⟨121, by decide, by decide +kernel⟩
  have hreplayed : Replayed refused .second { tooManyRequests 0 with headers := [] } := by
    refine ⟨by decide +kernel, by decide +kernel, fun ⟨n, _, hcounted⟩ => ?_⟩
    have hevents : refused.shared.rateLimit.events = [.counted .first 121] := by decide +kernel
    rw [hevents] at hcounted
    simp at hcounted
  refine ⟨Machine.run_fireAll (by decide +kernel), hlimited, by decide +kernel,
    ⟨_, hreplayed, rfl⟩, fun h => hreplayed.2.1 ?_⟩
  exact h.retried .first .second (arrival "POST" 0) _ _ rfl rfl rfl hlimited hreplayed.1 hreplayed.2.2

end PaymentGateway.Results.Retries
