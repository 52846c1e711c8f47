import PaymentGateway.Results.RateLimits

/-! # Callers without a key

The limiter takes the `X-Api-Key` header as the identity before anyone has checked it. So the
requests from one address that carry no merchant's key are limited as far as they carry one and the
same header, or none; with a new header for each request any number of them is forwarded. -/

namespace PaymentGateway.Results.Addresses

open PaymentGateway.Models PaymentGateway.Lib.Program PaymentGateway.Lib.Sessions
open PaymentGateway.Lib.Numerals
open PaymentGateway.Middleware.Statements (Request Response Exc)
open PaymentGateway.Middleware.RateLimit PaymentGateway.Middleware.Quota
open PaymentGateway.Results.RateLimits

variable {ι : Type} {xs : ι → Arrival} {deriveKey : String → String}
  {merchants : ι → List Merchant} {c c' : Config (redis ι) (World ι) Unit ι Response} {i j : ι}

/-- The request has no key, or the key of none of the merchants that there are when it comes. -/
def Guest (deriveKey : String → String) (merchants : ι → List Merchant) (xs : ι → Arrival) (i : ι) :
    Prop :=
  ∀ key, (xs i).request.credentials.apiKey = some key →
    ∀ m ∈ merchants i, m.apiKeyHash ≠ deriveKey key

/-- Of the guests from a host whose `TIME` is in one bucket at most 120 are forwarded. -/
def AddressLimited (deriveKey : String → String) (merchants : ι → List Merchant) (xs : ι → Arrival)
    (c : Config (redis ι) (World ι) Unit ι Response) : Prop :=
  ∀ (host : String) (b : ℕ) (S : Finset ι), (∀ i ∈ S, Forwarded xs c i ∧
    (xs i).client = some host ∧ Guest deriveKey merchants xs i ∧
      b * (60 * 10 ^ 6) ≤ (xs i).readAt ∧ (xs i).readAt < (b + 1) * (60 * 10 ^ 6)) → S.card ≤ 120

/-- If both requests are of guests, from one host and in one bucket, they carry one header, or
none. -/
def Alike (deriveKey : String → String) (merchants : ι → List Merchant) (xs : ι → Arrival)
    (i j : ι) : Prop :=
  Guest deriveKey merchants xs i → Guest deriveKey merchants xs j →
    (xs i).client = (xs j).client → bucketOf (xs i) = bucketOf (xs j) →
      (xs i).request.credentials.apiKey = (xs j).request.credentials.apiKey

theorem Alike.symm (h : Alike deriveKey merchants xs i j) : Alike deriveKey merchants xs j i :=
  fun hj hi hc hb => (h hi hj hc.symm hb.symm).symm

/-- The move calls the handler of the request `i`. -/
def Starts (c : Config (redis ι) (World ι) Unit ι Response) (m : Move ι) (i : ι) : Prop :=
  ∃ p k, m = .fire p ∧ (c.procs p).prog = .call (.start i) k

/-- The request whose handler is called now is like those that have been forwarded. -/
def HeaderKept (deriveKey : String → String) (merchants : ι → List Merchant) (xs : ι → Arrival)
    (c : Config (redis ι) (World ι) Unit ι Response) (m : Move ι) : Prop :=
  ∀ i, Starts c m i → ∀ j, Forwarded xs c j → Alike deriveKey merchants xs i j

/-- In particular where all requests are alike. -/
theorem headerKept_of_alike (h : ∀ i j, Alike deriveKey merchants xs i j)
    (c : Config (redis ι) (World ι) Unit ι Response) (m : Move ι) :
    HeaderKept deriveKey merchants xs c m := fun i _ j _ => h i j

/-- Only the call of a handler is noted as one. -/
theorem started_exec {s : Stmt ι} {w : World ι} (h : .started i ∈ (exec s w).2.events) :
    .started i ∈ w.events ∨ s = .start i := by
  cases s with
  | time now => exact .inl h
  | incr j key seconds now => exact .inl (by simpa [exec] using h)
  | start j =>
    rcases List.mem_append.mp h with h | h
    · exact .inl h
    · cases List.mem_singleton.mp h
      exact .inr rfl
  | await j outcome => cases outcome <;> exact .inl (by simpa [exec] using h)

/-- A request is forwarded by the move that calls its handler. -/
theorem forwarded_step [DecidableEq ι] {m : Move ι} (hs : server.Step c m c')
    (h : Forwarded xs c' i) : Forwarded xs c i ∨ Starts c m i := by
  obtain ⟨hl, hi⟩ := h
  cases hs with
  | kill hd => exact .inl ⟨hl, hi⟩
  | @fire p he =>
    obtain ⟨s, k, hp, -⟩ := he
    rw [Machine.fire_call hp] at hi
    rcases started_exec hi with hi | rfl
    · exact .inl ⟨hl, hi⟩
    · exact .inr ⟨p, k, rfl, hp⟩

/-- A move calls one handler. -/
theorem Starts.unique {m : Move ι} (h : Starts c m i) (h' : Starts c m j) : i = j := by
  obtain ⟨p, k, rfl, hp⟩ := h
  obtain ⟨p', k', hm, hp'⟩ := h'
  cases hm
  rw [hp] at hp'
  cases hp'
  rfl

/-- So all that are forwarded are alike. -/
theorem alike_run [DecidableEq ι]
    (hrun : server.Run (HeaderKept deriveKey merchants xs) (pool xs) c) :
    ∀ i j, Forwarded xs c i → Forwarded xs c j → Alike deriveKey merchants xs i j := by
  refine hrun.invariant
    (fun c => ∀ i j, Forwarded xs c i → Forwarded xs c j → Alike deriveKey merchants xs i j)
    (fun i j hi _ => absurd hi.2 List.not_mem_nil) fun c m c' ih hP hs i j hi hj => ?_
  rcases forwarded_step hs hi with hi | hi <;> rcases forwarded_step hs hj with hj | hj
  · exact ih i j hi hj
  · exact (hP j hj i hi).symm
  · exact hP i hi j hj
  · rw [hi.unique hj]
    exact fun _ _ _ _ => rfl

/-- **Guests are limited by their address** in every run in which every request is counted within 60
seconds of reading the clock, and the handler of a guest is called only with the header of those
before it. -/
theorem address_limited [DecidableEq ι]
    (hprompt : ∀ i, Limited (xs i).request → (xs i).countedAt < (xs i).readAt + 60 * 10 ^ 6)
    (hrun : server.Run (fun c m => ClockAdvances c m ∧ HeaderKept deriveKey merchants xs c m)
      (pool xs) c) : AddressLimited deriveKey merchants xs c := by
  have hone := alike_run (hrun.mono fun _ _ => And.right)
  replace hrun := hrun.mono fun _ _ => And.left
  intro host b S hS
  have hbucket : ∀ i ∈ S, bucketOf (xs i) = b := fun i hi => by
    obtain ⟨-, -, -, hlow, hhigh⟩ := hS i hi
    rw [bucketOf_eq]
    omega
  rcases S.eq_empty_or_nonempty with rfl | ⟨k, hk⟩
  · simp
  obtain ⟨hfk, hck, hgk, -⟩ := hS k hk
  refine card_bucket (sound hprompt hrun).inv (xs k).identity b fun i hi => ?_
  obtain ⟨hf, hc, hg, -⟩ := hS i hi
  have hkey := hone i k hf hfk hg hgk (hc.trans hck.symm)
    ((hbucket i hi).trans (hbucket k hk).symm)
  refine ⟨hf, ?_, hbucket i hi⟩
  unfold Arrival.identity
  rw [hkey, hc, hck]

/-! ### A new header for each request -/

theorem fire_await [DecidableEq ι] {s : Stmt ι} {f : s.Resp → Async ι Response}
    (hp : (c.procs i).prog = await s >>= f) : server.fire c i =
      { shared := (exec s c.shared).2
        procs := Function.update c.procs i
          (server.proceed (Prog.ofExcept (exec s c.shared).1 >>= f) ()) } :=
  Machine.fire_call hp

theorem step_await [DecidableEq ι] {s : Stmt ι} {f : s.Resp → Async ι Response}
    (hp : (c.procs i).prog = await s >>= f) (hadv : Advances s c.shared) :
    server.Run ClockAdvances c (server.fire c i) := by
  refine .single ⟨.fire i, ?_, .fire ⟨s, _, hp, fun _ _ h => h⟩⟩
  change NextAdvances c.shared (c.procs i).prog
  rw [hp]
  exact hadv

/-- A request whose counter is new is forwarded by its next three statements. -/
theorem forward_fresh [DecidableEq ι] (hl : Limited (xs i).request)
    (hp : (c.procs i).prog = dispatch i (xs i)) (hread : c.shared.clock ≤ (xs i).readAt)
    (hcounted : (xs i).readAt ≤ (xs i).countedAt)
    (hfree : c.shared.counters (counterKey (xs i).identity (bucketOf (xs i))) = none) :
    ∃ c', server.Run ClockAdvances c c' ∧ .started i ∈ c'.shared.events ∧
      (∀ e ∈ c.shared.events, e ∈ c'.shared.events) ∧ c'.shared.clock = (xs i).countedAt ∧
      (∀ j, j ≠ i → c'.procs j = c.procs j) ∧
      ∀ key, key ≠ counterKey (xs i).identity (bucketOf (xs i)) →
        c'.shared.counters key = c.shared.counters key := by
  unfold dispatch at hp
  rw [if_pos hl] at hp
  have hrun₁ := step_await hp hread
  have hfire₁ := fire_await hp
  generalize server.fire c i = c₁ at hrun₁ hfire₁
  have hp₁ : (c₁.procs i).prog = await (.incr i (counterKey (xs i).identity (bucketOf (xs i)))
      (window * 2) (xs i).countedAt) >>= afterCount i (xs i).outcome (bucketOf (xs i)) := by
    rw [hfire₁]
    simp only [Function.update_self, Machine.proceed_prog]
    rfl
  have hrun₂ := step_await hp₁ (by rw [hfire₁]; exact hcounted)
  have hfire₂ := fire_await hp₁
  generalize server.fire c₁ i = c₂ at hrun₂ hfire₂
  have hp₂ : (c₂.procs i).prog = await (.start i) >>= fun _ => await (.await i (xs i).outcome) >>=
      fun response => return setLimitHeaders (limit - 1) (bucketOf (xs i) * window) response := by
    have hone : afterCount i (xs i).outcome (bucketOf (xs i)) 1 = callNext i (xs i).outcome >>=
        fun response => return setLimitHeaders (limit - 1) (bucketOf (xs i) * window) response :=
      if_neg (by decide)
    rw [callNext, Prog.bind_assoc] at hone
    rw [hfire₂, hfire₁]
    simp only [Function.update_self, Machine.proceed_prog, exec, hfree, next]
    exact hone
  have hrun₃ := step_await hp₂ trivial
  have hfire₃ := fire_await hp₂
  refine ⟨_, (hrun₁.trans hrun₂).trans hrun₃, ?_, fun e he => ?_, ?_, fun j hj => ?_,
    fun key hkey => ?_⟩
  all_goals rw [hfire₃, hfire₂, hfire₁]
  · exact List.mem_append_right _ (List.mem_singleton_self _)
  · exact List.mem_append_left _ (List.mem_append_left _ he)
  · rfl
  · simp only [Function.update_of_ne hj]
  · exact Function.update_of_ne hkey _ _

/-! A caller that makes up a new key for each of its requests. -/

namespace Sample

def guess (i : ℕ) : Arrival where
  request := ⟨"GET", "/v1/orders", none, none, ⟨none, some i.repr⟩, []⟩
  client := some "192.0.2.1"
  readAt := 0
  countedAt := 0
  outcome := .ok (.new [] 401 [] none)

theorem limited_guess (i : ℕ) : Limited (guess i).request := by
  change "/v1/".toList <+: "/v1/orders".toList
  decide

end Sample

open Sample

/-- The first `n` of them are forwarded, one after another. -/
theorem forward_all (n : ℕ) : ∃ c, server.Run ClockAdvances (pool guess) c ∧
    (∀ i < n, .started i ∈ c.shared.events) ∧ c.shared.clock = 0 ∧
    ∀ i, n ≤ i → (c.procs i).prog = dispatch i (guess i) ∧
      c.shared.counters (counterKey (guess i).identity (bucketOf (guess i))) = none := by
  induction n with
  | zero => exact ⟨_, .refl, fun i h => absurd h (Nat.not_lt_zero i), rfl, fun i _ => ⟨rfl, rfl⟩⟩
  | succ n ih =>
    obtain ⟨c, hrun, hstarted, hclock, hrest⟩ := ih
    obtain ⟨hp, hfree⟩ := hrest n le_rfl
    obtain ⟨c', hrun', hnew, hold, hclock', hprocs, hcounters⟩ :=
      forward_fresh (limited_guess n) hp hclock.le le_rfl hfree
    refine ⟨c', hrun.trans hrun', fun i hi => ?_, hclock', fun i hi => ?_⟩
    · rcases Nat.lt_succ_iff_lt_or_eq.mp hi with h | rfl
      · exact hold _ (hstarted i h)
      · exact hnew
    · obtain ⟨hpi, hfreei⟩ := hrest i (by omega)
      have hne : counterKey (guess i).identity (bucketOf (guess i)) ≠
          counterKey (guess n).identity (bucketOf (guess n)) := fun e =>
        absurd (toList_repr_inj (congrArg String.toList (counterKey_inj e).1)) (by omega)
      exact ⟨by rw [hprocs i (by omega)]; exact hpi, by rw [hcounters _ hne]; exact hfreei⟩

/-- 121 requests of one host in one minute, none of them with a key of a merchant. -/
theorem not_addressLimited_guesses : ∃ c, server.Run ClockAdvances (pool guess) c ∧
    ¬ AddressLimited (fun key => "hash of " ++ key) (fun _ => []) guess c := by
  obtain ⟨c, hrun, hstarted, -⟩ := forward_all 121
  refine ⟨c, hrun, fun h => ?_⟩
  have hcard : (Finset.range 121).card ≤ 120 := h "192.0.2.1" 0 _ fun i hi =>
    ⟨⟨limited_guess i, hstarted i (Finset.mem_range.mp hi)⟩, rfl, fun _ _ _ hm => (by cases hm),
      Nat.zero_le _, Nat.zero_lt_succ _⟩
  rw [Finset.card_range] at hcard
  omega

/-- Two requests with one made-up key. -/
theorem address_limited_two :
    (∀ i, Guest (fun key => "hash of " ++ key) (fun _ => []) RateLimits.Sample.arrivals i ∧
      Forwarded RateLimits.Sample.arrivals RateLimits.Sample.forwarded i) ∧
    AddressLimited (fun key => "hash of " ++ key) (fun _ => []) RateLimits.Sample.arrivals
      RateLimits.Sample.forwarded := by
  have hrun : server.Run ClockAdvances (pool RateLimits.Sample.arrivals)
      RateLimits.Sample.forwarded := Machine.run_fireAll (by decide)
  refine ⟨fun i => ⟨fun _ _ m hm => (by cases hm), ?_⟩, address_limited (fun i _ => ?_)
    (hrun.mono fun c m hc => ⟨hc, headerKept_of_alike (fun i j _ _ _ _ => ?_) c m⟩)⟩
  · cases i <;> exact ⟨by decide, by decide⟩
  · cases i <;> decide
  · cases i <;> cases j <;> rfl

end PaymentGateway.Results.Addresses
