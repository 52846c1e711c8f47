import Mathlib.Algebra.Group.Nat.Defs

/-! # JSON texts

`dumps` writes a value as Python's `json.dumps` does, with the separators and the escaping of
non-ASCII characters as options. Only the values that are written somewhere are here. -/

namespace PaymentGateway.Lib.Json

inductive Value
  | null
  | str (s : String)
  | obj (members : List (String × Value))

/-- The options of `dumps`. -/
structure Style where
  itemSeparator : String
  keySeparator : String
  ensureAscii : Bool

/-- `json.dumps(value)` -/
def Style.default : Style := ⟨", ", ": ", true⟩

/-- The style of a `JSONResponse`. -/
def Style.compact : Style := ⟨",", ":", false⟩

/-- `\uXXXX`, for a code unit. -/
def escapeUnit (u : ℕ) : String :=
  "\\u" ++ String.ofList ((List.range 4).map fun i => Nat.digitChar (u / 16 ^ (3 - i) % 16))

/-- A character within a string; beyond the basic plane it is a surrogate pair when escaped. -/
def escapeChar (ensureAscii : Bool) (c : Char) : String :=
  if c.toNat = 0x22 then "\\\""
  else if c.toNat = 0x5C then "\\\\"
  else if c.toNat = 0x0A then "\\n"
  else if c.toNat = 0x0D then "\\r"
  else if c.toNat = 0x09 then "\\t"
  else if c.toNat = 0x08 then "\\b"
  else if c.toNat = 0x0C then "\\f"
  else if c.toNat < 0x20 then escapeUnit c.toNat
  else if ensureAscii ∧ 0x7E < c.toNat then
    if c.toNat < 0x10000 then escapeUnit c.toNat
    else escapeUnit (0xD800 + (c.toNat - 0x10000) / 0x400) ++
      escapeUnit (0xDC00 + (c.toNat - 0x10000) % 0x400)
  else String.singleton c

def quote (ensureAscii : Bool) (s : String) : String :=
  "\"" ++ String.join (s.toList.map (escapeChar ensureAscii)) ++ "\""

mutual

def dumps (style : Style) : Value → String
  | .null => "null"
  | .str s => quote style.ensureAscii s
  | .obj members => "\x7b" ++ dumpsMembers style members ++ "\x7d"

def dumpsMembers (style : Style) : List (String × Value) → String
  | [] => ""
  | [(k, v)] => quote style.ensureAscii k ++ style.keySeparator ++ dumps style v
  | (k, v) :: m :: ms =>
    quote style.ensureAscii k ++ style.keySeparator ++ dumps style v ++ style.itemSeparator ++
      dumpsMembers style (m :: ms)

end

example : dumps .default (.obj [("a", .str "é"), ("b", .obj [("c", .null)])]) =
    "\x7b\"a\": \"\\u00e9\", \"b\": \x7b\"c\": null\x7d\x7d" := by decide

end PaymentGateway.Lib.Json
