import PaymentGateway.Middleware.Statements

/-! # The headers of a response

What is sent of a `Response` besides its status and body. The class is Starlette's: `Render` is how
it makes the headers, from the content, the status, the headers that are given and the media type,
and `Documented` what its documentation says of that. -/

namespace PaymentGateway.Middleware.Headers

open PaymentGateway.Middleware.Statements

abbrev HeaderList := List (String × String)

/-- The value of a header, by a name in any case; the names that are sent are in lower case. -/
def header (name : String) (headers : HeaderList) : Option String :=
  (headers.find? (·.1 = name.toLower)).map (·.2)

/-- `name in headers`, in any case. -/
def Names (headers : HeaderList) (name : String) : Prop := ∃ h ∈ headers, h.1.toLower = name

instance (headers : HeaderList) (name : String) : Decidable (Names headers name) :=
  inferInstanceAs (Decidable (∃ h ∈ headers, h.1.toLower = name))

/-- No header is given twice. -/
def Once (headers : HeaderList) : Prop := (headers.map (·.1.toLower)).Nodup

instance (headers : HeaderList) : Decidable (Once headers) :=
  inferInstanceAs (Decidable (List.Nodup _))

/-- A text has a charset. -/
def contentType (mediaType : String) : String :=
  if "text/".toList <+: mediaType.toList ∧ ¬ "charset=".toList <:+: mediaType.toLower.toList then
    mediaType ++ "; charset=utf-8"
  else mediaType

/-- A response of this status has a body, and a length. -/
def HasLength (statusCode : ℕ) : Prop := 200 ≤ statusCode ∧ statusCode ≠ 204 ∧ statusCode ≠ 304

instance : DecidablePred HasLength := fun _ => inferInstanceAs (Decidable (_ ∧ _))

abbrev Render := List UInt8 → ℕ → HeaderList → Option String → HeaderList

/-- The documentation of `Response`: the headers that are given are sent; a length and a content
type are added where they are missing, and nothing else. -/
structure Documented (render : Render) : Prop where
  given : ∀ content statusCode headers mediaType, Once headers → ∀ h ∈ headers,
    header h.1 (render content statusCode headers mediaType) = some h.2
  contentType : ∀ content statusCode headers mediaType, ¬ Names headers "content-type" →
    header "content-type" (render content statusCode headers mediaType) =
      mediaType.map contentType
  contentLength : ∀ content statusCode headers mediaType, ¬ Names headers "content-length" →
    header "content-length" (render content statusCode headers mediaType) =
      if HasLength statusCode then some (toString content.length) else none
  nothingElse : ∀ content statusCode headers mediaType name, ¬ Names headers name.toLower →
    name.toLower ≠ "content-type" → name.toLower ≠ "content-length" →
      header name (render content statusCode headers mediaType) = none

/-- The headers with which a response is sent. -/
def sent (render : Render) (r : Response) : HeaderList :=
  match r.bytes with
  | .ok content => render content r.statusCode r.headers r.mediaType
  | .error _ => []

@[simp] theorem sent_new {render : Render} {content : List UInt8} {statusCode : ℕ}
    {headers : HeaderList} {mediaType : Option String} :
    sent render (.new content statusCode headers mediaType) =
      render content statusCode headers mediaType := by
  unfold sent
  rw [Response.bytes_new]
  rfl

theorem header_congr {name name' : String} (h : name.toLower = name'.toLower)
    (headers : HeaderList) : header name headers = header name' headers := by
  unfold header
  rw [h]

theorem contentType_eq_json {mediaType : String} :
    contentType mediaType = "application/json" ↔ mediaType = "application/json" := by
  unfold contentType
  split_ifs with h
  · refine iff_of_false (fun e => ?_) fun e => ?_
    · -- a text is no JSON
      have hprefix : "text/".toList <+: (mediaType ++ "; charset=utf-8").toList := by
        rw [String.toList_append]
        exact h.1.trans (List.prefix_append _ _)
      rw [e] at hprefix
      exact absurd hprefix (by decide)
    · rw [e] at h
      exact absurd h.1 (by decide)
  · rfl

end PaymentGateway.Middleware.Headers
