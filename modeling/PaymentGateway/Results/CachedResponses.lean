import PaymentGateway.Lib.Tables
import PaymentGateway.Middleware.Headers
import PaymentGateway.Middleware.Lifecycle

/-! # Cached responses

Once the response to a request is kept, every request with the same path and `Idempotency-Key` whose
method is mutating is answered from the record, whatever its body: the record does not say which
request it came from. The answer has the status of the response, its body as far as that is text,
and the headers of any other JSON response: those of the record are not read. -/

namespace PaymentGateway.Results.CachedResponses

open PaymentGateway.Lib.Program PaymentGateway.Lib.Sessions PaymentGateway.Lib.Utf8
open PaymentGateway.Middleware.Statements PaymentGateway.Middleware.Idempotency
open PaymentGateway.Middleware.Headers PaymentGateway.Middleware.Lifecycle
open PaymentGateway.Lib.Tables (find_key)

variable {ι : Type} {xs : ι → Exchange} {i j : ι} {k : String} {response : Response}
  {bytes : List UInt8} {c c' : Config (redis ι) (World ι) (Option String) ι Response}

/-! ### For whom -/

/-- The response to the request `j` is kept under its key. -/
structure Kept (xs : ι → Exchange)
    (c : Config (redis ι) (World ι) (Option String) ι Response) (j : ι) (response : Response)
    (bytes : List UInt8) : Prop where
  returned : .returned j response ∈ c.shared.events
  read : response.bytes = .ok bytes
  stored : ∃ k, (xs j).key = some k ∧ c.shared.store k = some (done response bytes)

/-- Where a request `x` is that came when the response `cached` was kept under `k`. -/
inductive Later (x : Exchange) (i : ι) (k : String) (cached : Response) : Async ι Response → Prop
  | arrived : Later x i k cached (dispatch i x.request x.outcome)
  | looking (hk : x.key = some k) : Later x i k cached (answerDuplicate k)
  | answered (hk : x.key = some k) : Later x i k cached (.ret cached)
  | passing (hk : x.key = none) : Later x i k cached (await (.await i x.outcome))
  | passed {p : Async ι Response} (hk : x.key = none) (hp : p.result? = some x.outcome) :
      Later x i k cached p

/-- A request with the same path and key as one whose response is kept has its Redis key, or none. -/
theorem key_cases {x y : Request} (hx : redisKey x = some k) (hpath : y.path = x.path)
    (hkey : y.idempotencyKey = x.idempotencyKey) :
    redisKey y = if y.method ∈ mutatingMethods then some k else none := by
  unfold redisKey at hx ⊢
  split_ifs at hx ⊢
  · rw [hkey, hpath]
    exact hx
  · rfl

section Runs

variable [DecidableEq ι]

theorem Later.fire (hst : c.shared.store k = some (done response bytes))
    (hkey : (xs i).key = some k ∨ (xs i).key = none)
    (h : Later (xs i) i k (replay (done response bytes)) (c.procs i).prog) :
    Later (xs i) i k (replay (done response bytes)) ((server.fire c i).procs i).prog := by
  generalize hprog : (c.procs i).prog = p at h
  cases h with
  | arrived =>
    unfold dispatch at hprog
    rcases hkey with hkey | hkey
    · have hredis : redisKey (xs i).request = some k := hkey
      rw [hredis] at hprog
      rw [Machine.fire_self hprog]
      simp only [server, exec, hst]
      exact .looking hkey
    · have hredis : redisKey (xs i).request = none := hkey
      rw [hredis] at hprog
      rw [Machine.fire_self hprog]
      exact .passing hkey
  | looking hk =>
    rw [Machine.fire_self hprog]
    simp only [server, exec, hst]
    exact .answered hk
  | answered hk =>
    rw [Machine.fire_done (hprog ▸ trivial), hprog]
    exact .answered hk
  | passing hk =>
    rw [Machine.fire_self hprog]
    refine .passed hk ?_
    cases (xs i).outcome <;> rfl
  | passed hk hp =>
    rw [Machine.fire_done (Prog.done_of_result (hprog ▸ hp)), hprog]
    exact .passed hk hp

/-- The request `i` is not cancelled. -/
def Spares (i : ι) (_ : Config (redis ι) (World ι) (Option String) ι Response) : Move ι → Prop
  | .fire _ => True
  | .kill j => j ≠ i

instance (c : Config (redis ι) (World ι) (Option String) ι Response) (m : Move ι) :
    Decidable (Spares i c m) :=
  match m with
  | .fire _ => isTrue trivial
  | .kill _ => inferInstanceAs (Decidable (_ ≠ _))

/-- **A later request**, in any interleaving, ends with the response that is kept if its method is
mutating, and else with what its handler says. -/
theorem later_result (h : Inv xs True c) (hst : c.shared.store k = some (done response bytes))
    (hkey : (xs i).key = some k ∨ (xs i).key = none)
    (hlater : (c.procs i).prog = dispatch i (xs i).request (xs i).outcome)
    (hr : server.Run (Spares i) c c') {res : Except Exc Response}
    (hres : (c'.procs i).prog.result? = some res) :
    res = if (xs i).key = some k then .ok (replay (done response bytes)) else (xs i).outcome := by
  have hinv : Inv xs True c' ∧ c'.shared.store k = some (done response bytes) ∧
      Later (xs i) i k (replay (done response bytes)) (c'.procs i).prog := by
    refine hr.invariant (fun c => Inv xs True c ∧ c.shared.store k = some (done response bytes) ∧
      Later (xs i) i k (replay (done response bytes)) (c.procs i).prog)
      ⟨h, hst, hlater ▸ .arrived⟩ ?_
    rintro c m c' ⟨h, hst, hlater⟩ hm hs
    cases hs with
    | @fire j he =>
      refine ⟨h.fire j (.inl trivial), h.store_done hst j, ?_⟩
      by_cases hji : i = j
      · subst hji
        exact hlater.fire hst hkey
      · rw [Machine.fire_of_ne hji]
        exact hlater
    | @kill j hd =>
      refine ⟨h.kill j, hst, ?_⟩
      have hji : i ≠ j := Ne.symm hm
      simp only [Machine.kill, Function.update_of_ne hji]
      exact hlater
  obtain ⟨-, -, hlater⟩ := hinv
  generalize (c'.procs i).prog = p at hlater hres
  cases hlater with
  | arrived =>
    unfold dispatch at hres
    split at hres <;> cases hres
  | looking hk => cases hres
  | answered hk => cases hres; rw [if_pos hk]
  | passing hk => cases hres
  | passed hk hp =>
    rw [hp] at hres
    rw [if_neg (by rw [hk]; simp)]
    exact (Option.some.inj hres).symm

/-- The requests have the same method and the same body. -/
def SameRequest (x y : Request) : Prop := y.method = x.method ∧ y.body = x.body

instance (x y : Request) : Decidable (SameRequest x y) := inferInstanceAs (Decidable (_ ∧ _))

/-- A 4xx that is not `cached`. -/
def Refused (cached : Response) (res : Except Exc Response) : Prop :=
  ∃ r, res = .ok r ∧ 400 ≤ r.statusCode ∧ r.statusCode < 500 ∧ r ≠ cached

/-- The result `res` of the request `y` is the kept response to `x` only if `y` is the same request,
and else a refusal. -/
structure Fingerprinted (x y : Request) (cached : Response) (res : Except Exc Response) : Prop where
  same : res = .ok cached → SameRequest x y
  refused : ¬ SameRequest x y → Refused cached res

/-- **Fingerprints.** A later request with the same key and path is told from the one whose response
is kept just where it is the same, or its method is not mutating and its handler refuses it. -/
theorem fingerprinted_iff
    {P : Config (redis ι) (World ι) (Option String) ι Response → Move ι → Prop}
    (hr : server.Run P (pool xs) c) (hkept : Kept xs c j response bytes)
    (hlater : (c.procs i).prog = dispatch i (xs i).request (xs i).outcome)
    (hpath : (xs i).request.path = (xs j).request.path)
    (hkey : (xs i).request.idempotencyKey = (xs j).request.idempotencyKey)
    (hr' : server.Run (Spares i) c c') {res : Except Exc Response}
    (hres : (c'.procs i).prog.result? = some res) :
    Fingerprinted (xs j).request (xs i).request (replay (done response bytes)) res ↔
      SameRequest (xs j).request (xs i).request ∨ ((xs i).request.method ∉ mutatingMethods ∧
        Refused (replay (done response bytes)) (xs i).outcome) := by
  obtain ⟨k, hj, hst⟩ := hkept.stored
  have hi := key_cases hj hpath hkey
  have h : Inv xs True c := inv_pool.run (.inl trivial) hr
  by_cases hm : (xs i).request.method ∈ mutatingMethods
  · rw [if_pos hm] at hi
    have hend := later_result h hst (.inl hi) hlater hr' hres
    rw [if_pos hi] at hend
    subst hend
    refine ⟨fun hf => .inl (hf.same rfl), fun hc => ?_⟩
    have hsame := hc.resolve_right fun hc => hc.1 hm
    exact ⟨fun _ => hsame, fun hn => absurd hsame hn⟩
  · rw [if_neg hm] at hi
    have hne : (xs i).key ≠ some k := fun e => by rw [Exchange.key, hi] at e; cases e
    have hend := later_result h hst (.inr hi) hlater hr' hres
    rw [if_neg hne] at hend
    subst hend
    -- the method of the request whose response is kept is mutating
    have hother : ¬ SameRequest (xs j).request (xs i).request := by
      rintro ⟨hmethod, -⟩
      rw [hmethod] at hm
      have hj : redisKey (xs j).request = some k := hj
      rw [redisKey, if_neg hm] at hj
      cases hj
    refine ⟨fun hf => .inr ⟨hm, hf.refused hother⟩, fun hc => ?_⟩
    obtain ⟨-, r, hout, hlow, hhigh, hne⟩ := hc.resolve_left hother
    refine ⟨fun e => ?_, fun _ => ⟨r, hout, hlow, hhigh, hne⟩⟩
    rw [hout] at e
    exact absurd (Except.ok.inj e) hne

end Runs

namespace Sample

/-- An order. -/
def request (amount : String) : Request where
  method := "POST"
  path := "/v1/orders"
  idempotencyKey := some "key-0001"
  requestId := none
  credentials := ⟨none, some "api-key"⟩
  body := encode amount

def created (amount : String) : Response :=
  .new (encode amount) 201 [] (some "application/json")

/-- The first orders 100, the second `amount`, under one key. -/
def orders (amount : String) : Two → Exchange
  | .first => ⟨request "100", .ok (created "100")⟩
  | .second => ⟨request amount, .ok (created amount)⟩

abbrev State := Config (redis Two) (World Two) (Option String) Two Response

/-- The response to the first is kept. -/
def ordered (amount : String) : State :=
  server.fireAll (List.replicate 5 .first) (pool (orders amount))

/-- The second has been answered. -/
def repeated (amount : String) : State :=
  server.fireAll (List.replicate 2 .second) (ordered amount)

theorem kept_same : Kept (orders "100") (ordered "100") .first (created "100") (encode "100") :=
  ⟨by decide +kernel, rfl, "idem:/v1/orders:key-0001", by decide +kernel, by decide +kernel⟩

theorem kept_other : Kept (orders "200") (ordered "200") .first (created "100") (encode "100") :=
  ⟨by decide +kernel, rfl, "idem:/v1/orders:key-0001", by decide +kernel, by decide +kernel⟩

end Sample

/-- The same order again. -/
theorem fingerprinted_same :
    Fingerprinted (Sample.request "100") (Sample.request "100")
      (replay (done (Sample.created "100") (encode "100")))
      (.ok (replay (done (Sample.created "100") (encode "100")))) := by
  have hr : server.Run (fun _ _ => True) (pool (Sample.orders "100")) (Sample.ordered "100") :=
    Machine.run_fireAll (by decide +kernel)
  have hr' : server.Run (Spares .second) (Sample.ordered "100") (Sample.repeated "100") :=
    Machine.run_fireAll (by decide +kernel)
  have hlater : ((Sample.ordered "100").procs .second).prog =
      dispatch .second (Sample.request "100") (.ok (Sample.created "100")) := rfl
  have hres : ((Sample.repeated "100").procs .second).prog.result? =
      some (.ok (replay (done (Sample.created "100") (encode "100")))) := by decide +kernel
  exact (fingerprinted_iff (i := .second) hr Sample.kept_same hlater rfl rfl hr' hres).mpr
    (.inl ⟨rfl, rfl⟩)

/-- An order of 200 under the key of an order of 100 is answered with the order of 100. -/
theorem not_fingerprinted :
    server.Run (fun _ _ => True) (pool (Sample.orders "200")) (Sample.ordered "200") ∧
    Kept (Sample.orders "200") (Sample.ordered "200") .first (Sample.created "100") (encode "100") ∧
    server.Run (Spares .second) (Sample.ordered "200") (Sample.repeated "200") ∧
    ∃ res, ((Sample.repeated "200").procs .second).prog.result? = some res ∧
      ¬ Fingerprinted (Sample.request "100") (Sample.request "200")
        (replay (done (Sample.created "100") (encode "100"))) res := by
  refine ⟨Machine.run_fireAll (by decide +kernel), Sample.kept_other,
    Machine.run_fireAll (by decide +kernel),
    .ok (replay (done (Sample.created "100") (encode "100"))), by decide +kernel, fun h => ?_⟩
  exact absurd (h.same rfl) (by decide +kernel)

/-! ### How exactly -/

section Exactness

variable {render : Render} {request request' : Request} {w w' : World ι} {name : String}

/-- The handler has set the header, or the content type by the media type. -/
def Sets (response : Response) (name : String) : Prop :=
  (∃ h ∈ response.headers, h.1 = name) ∨ (name = "content-type" ∧ response.mediaType ≠ none)

/-- The second answer has the status, the body and the headers of the first, as far as the handler
has set them in `response`. -/
def Reproduced (render : Render) (response : Response) (first second : Except Exc Response) :
    Prop :=
  ∃ r r', first = .ok r ∧ second = .ok r' ∧ r'.statusCode = r.statusCode ∧ r'.bytes = r.bytes ∧
    ∀ name, Sets response name → header name (sent render r') = header name (sent render r)

/-- The body is UTF-8, and no header is set but the length and the type of a JSON response. -/
structure PlainJson (response : Response) (bytes : List UInt8) : Prop where
  text : Valid bytes
  headers : ∀ h ∈ response.headers, (h.1.toLower = "content-type" ∧ h.2 = "application/json") ∨
    (h.1.toLower = "content-length" ∧ HasLength response.statusCode ∧ h.2 = toString bytes.length)
  mediaType : ¬ Names response.headers "content-type" →
    ∀ mediaType ∈ response.mediaType, mediaType = "application/json"

theorem run_await {α : Type} {s : Stmt ι} {f : s.Resp → Async ι α} {l l' : Option String}
    {a : s.Resp}
    (h : exec s w l = (.ok a, w', l')) : server.run (await s >>= f) w l = server.run (f a) w' l' :=
  Machine.run_bind_ok _ ((server.run_exec s w l).trans h)

theorem run_setXx {α : Type} {state state' : StoredState} {f : Unit → Async ι α} {l : Option String}
    (h : w.store k = some state) :
    server.run (await (.setXx k state') >>= f) w l =
      server.run (f ()) ⟨Function.update w.store k (some state'), w.events⟩ l :=
  run_await (by simp only [exec, h])

theorem run_callNext {α : Type} {f : Response → Async ι α} {l : Option String} :
    server.run (callNext i (.ok response) >>= f) w l =
      server.run (f response) ⟨w.store, w.events ++ [.started i] ++ [.returned i response]⟩ l := rfl

/-- The first request under a free key, served alone. -/
theorem serve_first (hk : redisKey request = some k) (hfree : w.store k = none)
    (hc : Cacheable response) (hb : response.bytes = .ok bytes) :
    (server.serve (dispatch i request (.ok response)) w).1 =
        .ok (.new bytes response.statusCode response.headers response.mediaType) ∧
      (server.serve (dispatch i request (.ok response)) w).2.store k =
        some (done response bytes) := by
  have hfinish : (finish k response : Async ι Response) =
      await (.setXx k (done response bytes)) >>= fun _ =>
        .ret (.new bytes response.statusCode response.headers response.mediaType) := by
    simp [finish, hc, hb]
  have hreserve : exec (.setNx k (reservation request)) w none =
      (.ok true, ⟨Function.update w.store k (some (reservation request)), w.events⟩, some k) := by
    simp only [exec, hfree]
  unfold Machine.serve dispatch
  rw [hk]
  dsimp only
  rw [show server.closed = none from rfl, run_await hreserve, if_pos rfl, handle,
    run_setXx (Function.update_self _ _ _), run_callNext, hfinish,
    run_setXx (Function.update_self _ _ _)]
  exact ⟨rfl, Function.update_self _ _ _⟩

/-- A request whose key has a response that is kept, served alone. -/
theorem serve_later {outcome : Except Exc Response} (hk : redisKey request = some k)
    (hst : w.store k = some (done response bytes)) :
    (server.serve (dispatch i request outcome) w).1 = .ok (replay (done response bytes)) := by
  have hreserve : exec (.setNx k (reservation request)) w none = (.ok false, w, none) := by
    simp only [exec, hst]
  have hget : exec (.get k) w none = (.ok (some (done response bytes)), w, none) := by
    simp only [exec, hst]
  unfold Machine.serve dispatch
  rw [hk]
  dsimp only
  rw [show server.closed = none from rfl, run_await hreserve, if_neg (by simp), answerDuplicate,
    run_await hget]
  rfl

/-- The headers of a replayed response. -/
theorem header_replay (hdoc : Documented render) (hv : Valid bytes) (name : String) :
    header name (sent render (replay (done response bytes))) =
      if name.toLower = "content-type" then some "application/json"
      else if name.toLower = "content-length" ∧ HasLength response.statusCode then
        some (toString bytes.length)
      else none := by
  have hnone : ∀ name, ¬ Names [] name := fun _ ⟨_, hh, _⟩ => by cases hh
  have htypeName : "content-type".toLower = "content-type" := by decide +kernel
  have hlengthName : "content-length".toLower = "content-length" := by decide +kernel
  have hsent : sent render (replay (done response bytes)) =
      render bytes response.statusCode [] (some "application/json") := by
    have hbody : encode (decode bytes) = bytes := hv
    unfold replay
    rw [sent_new]
    simp only [done, Option.getD_some, hbody]
  rw [hsent]
  by_cases htype : name.toLower = "content-type"
  · rw [if_pos htype, header_congr (htype.trans htypeName.symm),
      hdoc.contentType _ _ _ _ (hnone _), Option.map_some, contentType_eq_json.mpr rfl]
  rw [if_neg htype]
  by_cases hlength : name.toLower = "content-length"
  · rw [header_congr (hlength.trans hlengthName.symm), hdoc.contentLength _ _ _ _ (hnone _)]
    simp only [hlength, true_and]
  · rw [if_neg fun hc => hlength hc.1]
    exact hdoc.nothingElse _ _ _ _ _ (hnone _) htype hlength

/-- A header that the handler has set, at the first caller. -/
theorem header_given (hdoc : Documented render) (hone : Once response.headers) {h : String × String}
    (hh : h ∈ response.headers) :
    header h.1 (sent render (.new bytes response.statusCode response.headers response.mediaType)) =
      some h.2 := by
  rw [sent_new]
  exact hdoc.given _ _ _ _ hone h hh

/-- The headers of a plain JSON response are those of its replay. -/
theorem PlainJson.header_eq (hdoc : Documented render) (hone : Once response.headers)
    (hplain : PlainJson response bytes) (hs : Sets response name) :
    header name (sent render (replay (done response bytes))) =
      header name (sent render
        (.new bytes response.statusCode response.headers response.mediaType)) := by
  have hgiven : ∀ h ∈ response.headers, header h.1 (sent render (replay (done response bytes))) =
      header h.1 (sent render
        (.new bytes response.statusCode response.headers response.mediaType)) := by
    intro h hh
    rw [header_given hdoc hone hh, header_replay hdoc hplain.text]
    rcases hplain.headers h hh with ⟨hn, hv⟩ | ⟨hn, hl, hv⟩
    · rw [if_pos hn, hv]
    · rw [if_neg (by rw [hn]; decide), if_pos ⟨hn, hl⟩, hv]
  rcases hs with ⟨h, hh, rfl⟩ | ⟨rfl, hmedia⟩
  · exact hgiven h hh
  · by_cases hnames : Names response.headers "content-type"
    · obtain ⟨h, hh, hn⟩ := hnames
      have hname : "content-type".toLower = h.1.toLower := hn.symm ▸ (by decide +kernel)
      rw [header_congr hname, header_congr hname]
      exact hgiven h hh
    · obtain ⟨mediaType, hm⟩ := Option.ne_none_iff_exists'.mp hmedia
      have hjson := hplain.mediaType hnames mediaType hm
      rw [header_replay hdoc hplain.text, if_pos (by decide +kernel), sent_new,
        hdoc.contentType _ _ _ _ hnames, hm, Option.map_some, contentType_eq_json.mpr hjson]

/-- A response that is reproduced is plain JSON. -/
theorem plainJson_of_reproduced (hdoc : Documented render) (hone : Once response.headers)
    (h : Reproduced render response
      (.ok (.new bytes response.statusCode response.headers response.mediaType))
      (.ok (replay (done response bytes)))) : PlainJson response bytes := by
  obtain ⟨r, r', hr, hr', -, hbytes, hheaders⟩ := h
  cases hr
  cases hr'
  have htext : Valid bytes := by
    have hbody : (replay (done response bytes)).bytes = .ok (encode (decode bytes)) :=
      Response.bytes_new
    rw [hbody, Response.bytes_new] at hbytes
    exact Except.ok.inj hbytes
  refine ⟨htext, fun h hh => ?_, fun hnames mediaType hm => ?_⟩
  · have heq := hheaders h.1 (.inl ⟨h, hh, rfl⟩)
    rw [header_given hdoc hone hh, header_replay hdoc htext] at heq
    split_ifs at heq with htype hlength
    · exact .inl ⟨htype, (Option.some.inj heq).symm⟩
    · exact .inr ⟨hlength.1, hlength.2, (Option.some.inj heq).symm⟩
  · have heq := hheaders "content-type" (.inr ⟨rfl, by rw [hm]; simp⟩)
    rw [header_replay hdoc htext, if_pos (by decide +kernel), sent_new,
      hdoc.contentType _ _ _ _ hnames, hm, Option.map_some] at heq
    exact contentType_eq_json.mp (Option.some.inj heq).symm

/-- **Replays are exact** just for UTF-8 bodies and no headers but the length and the type of a JSON
response. -/
theorem reproduced_iff {outcome : Except Exc Response} (hdoc : Documented render)
    (hk : redisKey request = some k) (hfree : w.store k = none) (hc : Cacheable response)
    (hb : response.bytes = .ok bytes) (hone : Once response.headers)
    (hk' : redisKey request' = some k)
    (hstore : w'.store k = (server.serve (dispatch i request (.ok response)) w).2.store k) :
    Reproduced render response (server.serve (dispatch i request (.ok response)) w).1
      (server.serve (dispatch j request' outcome) w').1 ↔ PlainJson response bytes := by
  obtain ⟨hfirst, hstored⟩ := serve_first (i := i) hk hfree hc hb
  rw [hfirst, serve_later hk' (hstore.trans hstored)]
  refine ⟨plainJson_of_reproduced hdoc hone, fun h => ?_⟩
  refine ⟨_, _, rfl, rfl, rfl, ?_, fun name hs => h.header_eq hdoc hone hs⟩
  have hbody : encode (decode bytes) = bytes := h.text
  calc (replay (done response bytes)).bytes = .ok (encode (decode bytes)) := Response.bytes_new
    _ = .ok bytes := by rw [hbody]
    _ = _ := Response.bytes_new.symm

end Exactness

namespace Sample

/-- The headers as they are made: those that are given, in lower case, then the length and the type
that are missing. -/
def initHeaders : Render := fun content statusCode headers mediaType =>
  headers.map (fun h => (h.1.toLower, h.2)) ++
    (if HasLength statusCode ∧ ¬ Names headers "content-length" then
      [("content-length", toString content.length)] else []) ++
    if Names headers "content-type" then []
    else mediaType.toList.map fun mediaType => ("content-type", contentType mediaType)

theorem header_append (name : String) (hs hs' : HeaderList) :
    header name (hs ++ hs') = (header name hs).or (header name hs') := by
  unfold header
  rw [List.find?_append]
  cases hs.find? (·.1 = name.toLower) <;> rfl

theorem header_lowered {headers : HeaderList} {name : String} (h : ¬ Names headers name.toLower) :
    header name (headers.map fun h => (h.1.toLower, h.2)) = none := by
  unfold header
  rw [Option.map_eq_none_iff]
  refine List.find?_eq_none.mpr fun x hx => ?_
  obtain ⟨y, hy, rfl⟩ := List.mem_map.mp hx
  exact fun e => h ⟨y, hy, of_decide_eq_true e⟩

theorem documented : Documented initHeaders where
  given content statusCode headers mediaType hone h hh := by
    have hfind : headers.find? (fun x => x.1.toLower = h.1.toLower) = some h := find_key hone hh
    unfold initHeaders
    rw [header_append, header_append]
    unfold header
    rw [List.find?_map]
    change ((((headers.find? fun x => x.1.toLower = h.1.toLower).map _).map _).or _).or _ = _
    rw [hfind]
    rfl
  contentType content statusCode headers mediaType hnames := by
    have hname : "content-type".toLower = "content-type" := by decide +kernel
    unfold initHeaders
    rw [header_append, header_append, header_lowered (hname.symm ▸ hnames), if_neg hnames]
    split_ifs <;> cases mediaType <;> simp [hname, header]
  contentLength content statusCode headers mediaType hnames := by
    have hname : "content-length".toLower = "content-length" := by decide +kernel
    unfold initHeaders
    rw [header_append, header_append, header_lowered (hname.symm ▸ hnames)]
    simp only [hnames, not_false_eq_true, and_true]
    split_ifs <;> cases mediaType <;> simp [hname, header]
  nothingElse content statusCode headers mediaType name hnames htype hlength := by
    unfold initHeaders
    rw [header_append, header_append, header_lowered hnames]
    split_ifs <;> cases mediaType <;>
      simp [Ne.symm htype, Ne.symm hlength, header]

/-- No record. -/
def fresh : World Two := ⟨fun _ => none, []⟩

/-- The order of 100 is created, with the headers `headers`. -/
def answered (headers : HeaderList) : Response := ⟨201, headers, none, .ok [encode "100"]⟩

/-- Redis after the order. -/
def recorded (headers : HeaderList) : World Two :=
  (server.serve (dispatch .first (request "100") (.ok (answered headers))) fresh).2

def jsonHeaders : HeaderList := [("content-length", "3"), ("content-type", "application/json")]

/-- The headers as the rate limiter completes them. -/
def limitHeaders : HeaderList := jsonHeaders ++ [("x-ratelimit-limit", "120")]

end Sample

/-- A JSON response. -/
theorem reproduced_json :
    Reproduced Sample.initHeaders (Sample.answered Sample.jsonHeaders)
      (server.serve (dispatch .first (Sample.request "100")
        (.ok (Sample.answered Sample.jsonHeaders))) Sample.fresh).1
      (server.serve (dispatch Two.second (Sample.request "100") (.error .cancelled))
        (Sample.recorded Sample.jsonHeaders)).1 := by
  have hk : redisKey (Sample.request "100") = some "idem:/v1/orders:key-0001" := by decide +kernel
  have hplain : PlainJson (Sample.answered Sample.jsonHeaders) (encode "100") :=
    ⟨valid_iff.mpr ⟨"100", rfl⟩, by decide +kernel, fun _ mediaType hm => by cases hm⟩
  have hb : (Sample.answered Sample.jsonHeaders).bytes = .ok (encode "100") := rfl
  exact (reproduced_iff Sample.documented hk rfl (by decide) hb (by decide +kernel) hk
    rfl).mpr hplain

/-- The header of the rate limiter is not there when the response is replayed. -/
theorem not_reproduced_limit :
    Documented Sample.initHeaders ∧ Cacheable (Sample.answered Sample.limitHeaders) ∧
    Once Sample.limitHeaders ∧
    ¬ Reproduced Sample.initHeaders (Sample.answered Sample.limitHeaders)
      (server.serve (dispatch .first (Sample.request "100")
        (.ok (Sample.answered Sample.limitHeaders))) Sample.fresh).1
      (server.serve (dispatch Two.second (Sample.request "100") (.error .cancelled))
        (Sample.recorded Sample.limitHeaders)).1 := by
  have hone : Once Sample.limitHeaders := by decide +kernel
  have hk : redisKey (Sample.request "100") = some "idem:/v1/orders:key-0001" := by decide +kernel
  have hc : Cacheable (Sample.answered Sample.limitHeaders) := by decide
  have hb : (Sample.answered Sample.limitHeaders).bytes = .ok (encode "100") := rfl
  obtain ⟨hfirst, hstored⟩ := serve_first (i := Two.first) (w := Sample.fresh) hk rfl hc hb
  refine ⟨Sample.documented, hc, hone, fun h => ?_⟩
  rw [hfirst, serve_later (w := Sample.recorded Sample.limitHeaders) hk hstored] at h
  have hplain := plainJson_of_reproduced Sample.documented hone h
  have hlimit : ("x-ratelimit-limit", "120") ∈ Sample.limitHeaders := by decide
  exact absurd (hplain.headers _ hlimit) (by decide +kernel)

end PaymentGateway.Results.CachedResponses
