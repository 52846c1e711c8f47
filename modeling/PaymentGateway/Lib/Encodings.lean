import PaymentGateway.Lib.Numerals

/-! # The bytes of a JSON document

`decodeJson` decodes bytes as `json.loads` does: the encoding is one of UTF-8, UTF-16 and UTF-32, and
is guessed from a byte order mark or from where the zero bytes are (`detectEncoding`); lone
surrogates are passed. None stands for `UnicodeDecodeError`. -/

namespace PaymentGateway.Lib.Encodings

open PaymentGateway.Lib.Numerals

/-- The bytes as numbers. -/
abbrev Bytes := List ℕ

inductive Endian
  | little
  | big
  deriving DecidableEq

/-- The encodings that `detect_encoding` tells apart; with a mark, it comes first. -/
inductive Encoding
  | utf8
  | utf8Sig
  | utf16 (endian : Endian) (mark : Bool)
  | utf32 (endian : Endian) (mark : Bool)
  deriving DecidableEq

/-- The encoding of a document without a mark. -/
def guess (bs : Bytes) : Encoding :=
  match bs with
  | b₀ :: b₁ :: b₂ :: b₃ :: _ =>
    if b₀ = 0 then if b₁ = 0 then .utf32 .big false else .utf16 .big false
    else if b₁ = 0 then
      if b₂ = 0 ∧ b₃ = 0 then .utf32 .little false else .utf16 .little false
    else .utf8
  | [b₀, b₁] =>
    if b₀ = 0 then .utf16 .big false else if b₁ = 0 then .utf16 .little false else .utf8
  | _ => .utf8

/-- `detect_encoding` -/
def detectEncoding (bs : Bytes) : Encoding :=
  if bs.take 4 = [0x00, 0x00, 0xFE, 0xFF] then .utf32 .big true
  else if bs.take 4 = [0xFF, 0xFE, 0x00, 0x00] then .utf32 .little true
  else if bs.take 2 = [0xFE, 0xFF] then .utf16 .big true
  else if bs.take 2 = [0xFF, 0xFE] then .utf16 .little true
  else if bs.take 3 = [0xEF, 0xBB, 0xBF] then .utf8Sig
  else guess bs

/-- The six bits of a continuation byte. -/
def continuation (b : ℕ) : Option ℕ := if 0x80 ≤ b ∧ b ≤ 0xBF then some (b - 0x80) else none

/-- UTF-8, with surrogates, but without overlong forms and what is beyond `U+10FFFF`. -/
def decodeUtf8 : Bytes → Option Text
  | [] => some []
  | b₀ :: bs =>
    if b₀ < 0x80 then (decodeUtf8 bs).map (b₀ :: ·)
    else if 0xC2 ≤ b₀ ∧ b₀ ≤ 0xDF then
      match bs with
      | b₁ :: bs => do
        let c₁ ← continuation b₁
        let cs ← decodeUtf8 bs
        return ((b₀ - 0xC0) * 0x40 + c₁) :: cs
      | _ => none
    else if 0xE0 ≤ b₀ ∧ b₀ ≤ 0xEF then
      match bs with
      | b₁ :: b₂ :: bs => do
        let c₁ ← continuation b₁
        let c₂ ← continuation b₂
        let c := ((b₀ - 0xE0) * 0x40 + c₁) * 0x40 + c₂
        if c < 0x800 then none
        let cs ← decodeUtf8 bs
        return c :: cs
      | _ => none
    else if 0xF0 ≤ b₀ ∧ b₀ ≤ 0xF4 then
      match bs with
      | b₁ :: b₂ :: b₃ :: bs => do
        let c₁ ← continuation b₁
        let c₂ ← continuation b₂
        let c₃ ← continuation b₃
        let c := (((b₀ - 0xF0) * 0x40 + c₁) * 0x40 + c₂) * 0x40 + c₃
        if c < 0x10000 ∨ 0x10FFFF < c then none
        let cs ← decodeUtf8 bs
        return c :: cs
      | _ => none
    else none

def unit16 (endian : Endian) (b₀ b₁ : ℕ) : ℕ :=
  match endian with
  | .little => b₀ + 0x100 * b₁
  | .big => 0x100 * b₀ + b₁

/-- The code units of UTF-16. -/
def units16 (endian : Endian) : Bytes → Option (List ℕ)
  | [] => some []
  | [_] => none
  | b₀ :: b₁ :: bs => (units16 endian bs).map (unit16 endian b₀ b₁ :: ·)

def IsHigh (u : ℕ) : Prop := 0xD800 ≤ u ∧ u ≤ 0xDBFF

instance : DecidablePred IsHigh := fun _ => inferInstanceAs (Decidable (_ ∧ _))

def IsLow (u : ℕ) : Prop := 0xDC00 ≤ u ∧ u ≤ 0xDFFF

instance : DecidablePred IsLow := fun _ => inferInstanceAs (Decidable (_ ∧ _))

/-- The character of a surrogate pair. -/
def joinSurrogates (u v : ℕ) : ℕ := 0x10000 + (u - 0xD800) * 0x400 + (v - 0xDC00)

/-- Pairs of surrogates are joined, others are passed. -/
def joinUnits : List ℕ → Text
  | [] => []
  | [u] => [u]
  | u :: v :: us =>
    if IsHigh u ∧ IsLow v then joinSurrogates u v :: joinUnits us else u :: joinUnits (v :: us)

/-- UTF-32, with surrogates. -/
def decodeUtf32 (endian : Endian) : Bytes → Option Text
  | [] => some []
  | b₀ :: b₁ :: b₂ :: b₃ :: bs =>
    let c := match endian with
      | .little => unit16 .little b₀ b₁ + 0x10000 * unit16 .little b₂ b₃
      | .big => 0x10000 * unit16 .big b₀ b₁ + unit16 .big b₂ b₃
    if c ≤ 0x10FFFF then (decodeUtf32 endian bs).map (c :: ·) else none
  | _ => none

/-- `bs.decode(detect_encoding(bs), 'surrogatepass')` -/
def decodeJson (body : List UInt8) : Option Text :=
  let bs := body.map UInt8.toNat
  match detectEncoding bs with
  | .utf8 => decodeUtf8 bs
  | .utf8Sig => decodeUtf8 (bs.drop 3)
  | .utf16 endian mark => (units16 endian (if mark then bs.drop 2 else bs)).map joinUnits
  | .utf32 endian mark => decodeUtf32 endian (if mark then bs.drop 4 else bs)

/-- A surrogate in UTF-8, and a byte that begins nothing. -/
example : decodeJson [0xED, 0xA0, 0x80] = some [0xD800] ∧ decodeJson [0x22, 0xFF] = none := by
  decide

end PaymentGateway.Lib.Encodings
