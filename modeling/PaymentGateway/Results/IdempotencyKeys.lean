import PaymentGateway.Middleware.Lifecycle

/-! # The keys of different requests

The key in Redis is `idem:`, the path and the header with a colon between them. Neither part is
escaped, and both may have colons of their own: the end of a path can be read as the beginning of a
header. -/

namespace PaymentGateway.Results.IdempotencyKeys

open PaymentGateway.Lib.Program PaymentGateway.Lib.Sessions PaymentGateway.Lib.Utf8
open PaymentGateway.Middleware.Statements PaymentGateway.Middleware.Idempotency
open PaymentGateway.Middleware.Lifecycle

variable {x y : Request} {key key' path path' : String}

/-! ### Two keys -/

/-- The middleware reserves a key for the request, whose header is `key`. -/
def Keyed (x : Request) (key : String) : Prop :=
  x.method ∈ mutatingMethods ∧ x.idempotencyKey = some key

instance (x : Request) (key : String) : Decidable (Keyed x key) :=
  inferInstanceAs (Decidable (_ ∧ _))

/-- If the requests have one Redis key, then they have one path and one header. -/
def Separate (x y : Request) : Prop :=
  redisKey x = redisKey y → x.path = y.path ∧ x.idempotencyKey = y.idempotencyKey

/-- The path goes on, after a colon, with what comes before a colon in the other header. -/
def Overlap (path key path' key' : String) : Prop :=
  ∃ s, path = path' ++ ":" ++ s ∧ key' = s ++ ":" ++ key

theorem Keyed.redisKey_eq (hx : Keyed x key) :
    redisKey x = some ("idem:" ++ x.path ++ ":" ++ key) := by
  rw [redisKey, if_pos hx.1, hx.2]
  rfl

/-- Two texts with a colon between their parts. -/
theorem colon_append_eq_iff :
    path ++ ":" ++ key = path' ++ ":" ++ key' ↔
      (path = path' ∧ key = key') ∨ Overlap path key path' key' ∨ Overlap path' key' path key := by
  constructor
  · intro h
    have hl : path.toList ++ ':' :: key.toList = path'.toList ++ ':' :: key'.toList := by
      simpa using congrArg String.toList h
    rcases List.append_eq_append_iff.mp hl with ⟨as, hp, hk⟩ | ⟨as, hp, hk⟩
    · cases as with
      | nil =>
        refine .inl ⟨String.toList_inj.mp (by simpa using hp.symm), String.toList_inj.mp ?_⟩
        exact (List.cons.inj hk).2
      | cons a as =>
        -- the second path is the longer one
        rw [List.cons_append, List.cons.injEq] at hk
        obtain ⟨rfl, hk⟩ := hk
        exact .inr (.inr ⟨String.ofList as, String.toList_inj.mp (by simp [hp]),
          String.toList_inj.mp (by simp [hk])⟩)
    · cases as with
      | nil =>
        refine .inl ⟨String.toList_inj.mp (by simpa using hp), String.toList_inj.mp ?_⟩
        exact (List.cons.inj hk).2.symm
      | cons a as =>
        rw [List.cons_append, List.cons.injEq] at hk
        obtain ⟨rfl, hk⟩ := hk
        exact .inr (.inl ⟨String.ofList as, String.toList_inj.mp (by simp [hp]),
          String.toList_inj.mp (by simp [hk])⟩)
  · rintro (⟨rfl, rfl⟩ | ⟨s, rfl, rfl⟩ | ⟨s, rfl, rfl⟩) <;> simp [String.append_assoc]

theorem Overlap.ne (h : Overlap path key path' key') : path ≠ path' := by
  obtain ⟨s, rfl, -⟩ := h
  intro he
  have hlen := congrArg (fun s : String => s.toList.length) he
  simp only [String.toList_append, List.length_append] at hlen
  have hcolon : (":" : String).toList.length = 1 := rfl
  omega

/-- Only a header with a colon is run into. -/
theorem Overlap.colon_mem (h : Overlap path key path' key') : ':' ∈ key'.toList := by
  obtain ⟨s, -, rfl⟩ := h
  simp

/-- When two requests have one key. -/
theorem redisKey_eq_iff (hx : Keyed x key) (hy : Keyed y key') :
    redisKey x = redisKey y ↔ (x.path = y.path ∧ key = key') ∨
      Overlap x.path key y.path key' ∨ Overlap y.path key' x.path key := by
  rw [hx.redisKey_eq, hy.redisKey_eq, ← colon_append_eq_iff, Option.some_inj]
  simp only [String.append_assoc, String.append_right_inj]

/-- **Separate keys.** Two requests are told apart just where neither path runs into the header of
the other. -/
theorem separate_iff (hx : Keyed x key) (hy : Keyed y key') :
    Separate x y ↔ ¬ Overlap x.path key y.path key' ∧ ¬ Overlap y.path key' x.path key := by
  unfold Separate
  rw [redisKey_eq_iff hx hy, hx.2, hy.2]
  constructor
  · intro h
    exact ⟨fun ho => ho.ne (h (.inr (.inl ho))).1, fun ho => ho.ne (h (.inr (.inr ho))).1.symm⟩
  · rintro ⟨hxy, hyx⟩ (⟨hpath, hkey⟩ | ho | ho)
    · exact ⟨hpath, by rw [hkey]⟩
    · exact absurd ho hxy
    · exact absurd ho hyx

namespace Sample

/-- A request to a path that no route matches, without credentials. -/
def stray : Request where
  method := "POST"
  path := "/v1/orders:x"
  idempotencyKey := some "order-0001"
  requestId := none
  credentials := ⟨none, none⟩
  body := []

def order : Request where
  method := "POST"
  path := "/v1/orders"
  idempotencyKey := some "x:order-0001"
  requestId := none
  credentials := ⟨none, some "api-key"⟩
  body := encode "100"

/-- The same order under a key without a colon. -/
def plainOrder : Request := { order with idempotencyKey := some "order-0001" }

def notFound : Response :=
  .new (encode "\x7b\"detail\":\"Not Found\"\x7d") 404 [] (some "application/json")

def created : Response := .new (encode "100") 201 [] (some "application/json")

def requests : Two → Exchange
  | .first => ⟨stray, .ok notFound⟩
  | .second => ⟨order, .ok created⟩

/-- The stray request is answered, and then the order. -/
def answered : Config (redis Two) (World Two) (Option String) Two Response :=
  server.fireAll (List.replicate 5 .first ++ List.replicate 2 .second) (pool requests)

end Sample

/-- A stray path and an order under keys without colons. -/
theorem separate_plain : Separate Sample.stray Sample.plainOrder := by
  have hno : ':' ∉ "order-0001".toList := by decide
  have hx : Keyed Sample.stray "order-0001" := by decide
  have hy : Keyed Sample.plainOrder "order-0001" := by decide
  exact (separate_iff hx hy).mpr ⟨fun ho => hno ho.colon_mem, fun ho => hno ho.colon_mem⟩

/-- The order gets the 404 of the other path without its handler being called. -/
theorem not_separate_stray : ¬ Separate Sample.stray Sample.order ∧
    server.Run (fun _ _ => True) (pool Sample.requests) Sample.answered ∧
    (Sample.answered.procs .second).prog.result? =
      some (.ok (replay (done Sample.notFound (encode "\x7b\"detail\":\"Not Found\"\x7d")))) ∧
    .started .second ∉ Sample.answered.shared.events := by
  refine ⟨fun h => absurd (h (by decide)).1 (by decide), Machine.run_fireAll (by decide +kernel),
    by decide +kernel, by decide +kernel⟩

/-! ### Runs -/

section Runs

variable {ι : Type} [DecidableEq ι] {xs : ι → Exchange} {i j : ι} {k : String} {response : Response}
  {c : Config (redis ι) (World ι) (Option String) ι Response}
  {P : Config (redis ι) (World ι) (Option String) ι Response → Move ι → Prop}

/-- A key is only ever held by a request with the path and the header it is for. -/
theorem held_own (hsep : ∀ i j, Separate (xs i).request (xs j).request)
    (hr : server.Run P (pool xs) c) (hi : (xs i).key = some k) (hj : (c.procs j).loc = some k) :
    (xs j).request.path = (xs i).request.path ∧
      (xs j).request.idempotencyKey = (xs i).request.idempotencyKey := by
  have h : Inv xs True c := inv_pool.run (.inl trivial) hr
  obtain ⟨p, ha⟩ := h.keys k
  obtain ⟨hkey, -⟩ := ha.rest j ((ha.holder j).mp hj)
  exact hsep j i (hkey.trans hi.symm)

/-- A request whose handler is not called gets a conflict, what is made up for the reservation of a
request with its own path and header, or the response to such a request. -/
theorem answered_own (hsep : ∀ i j, Separate (xs i).request (xs j).request)
    (hr : server.Run P (pool xs) c) (hi : (xs i).key = some k)
    (hres : (c.procs i).prog.result? = some (.ok response)) :
    .started i ∈ c.shared.events ∨ response.statusCode = 409 ∨
      (∃ j, (xs j).request.path = (xs i).request.path ∧
        (xs j).request.idempotencyKey = (xs i).request.idempotencyKey ∧
        response = replay (reservation (xs j).request)) ∨
      ∃ j cached bytes, (xs j).request.path = (xs i).request.path ∧
        (xs j).request.idempotencyKey = (xs i).request.idempotencyKey ∧
        .returned j cached ∈ c.shared.events ∧ response = replay (done cached bytes) := by
  have h : Inv xs True c := inv_pool.run (.inl trivial) hr
  rcases h.ended hres with hn | hc | hs | ⟨r, hr, hd⟩
  · rw [hi] at hn
    cases hn
  · cases hc
  · exact .inl hs
  · cases hr
    rcases hd with h409 | ⟨-, j, hkey, he⟩ | ⟨j, cached, bytes, hkey, -, -, -, hret, he⟩
    · exact .inr (.inl h409)
    · obtain ⟨hpath, hheader⟩ := hsep j i hkey
      exact .inr (.inr (.inl ⟨j, hpath, hheader, he⟩))
    · obtain ⟨hpath, hheader⟩ := hsep j i hkey
      exact .inr (.inr (.inr ⟨j, cached, bytes, hpath, hheader, hret, he⟩))

end Runs

end PaymentGateway.Results.IdempotencyKeys
