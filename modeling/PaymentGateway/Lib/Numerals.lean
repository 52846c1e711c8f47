import Mathlib.Data.Rat.Cast.Order

/-! # Integers from text, and as floats

Text is a list of code points. `parseInt` reads an integer as Python's `int` does: white space
around it, a sign, and decimal digits of any script, of which two may have one underscore between
them. More than 4300 digits are refused. `OverflowsFloat` says which integers have no binary64
value. -/

namespace PaymentGateway.Lib.Numerals

/-- The code points of a string; Python's strings may have lone surrogates among them. -/
abbrev Text := List ℕ

/-- The code points of `s`. -/
def text (s : String) : Text := s.toList.map Char.toNat

/-- The zeros of the decimal digits of Unicode; nine digits follow each. -/
def digitZeros : List ℕ :=
  [0x30, 0x660, 0x6F0, 0x7C0, 0x966, 0x9E6, 0xA66, 0xAE6, 0xB66, 0xBE6, 0xC66, 0xCE6, 0xD66, 0xDE6,
    0xE50, 0xED0, 0xF20, 0x1040, 0x1090, 0x17E0, 0x1810, 0x1946, 0x19D0, 0x1A80, 0x1A90, 0x1B50,
    0x1BB0, 0x1C40, 0x1C50, 0xA620, 0xA8D0, 0xA900, 0xA9D0, 0xA9F0, 0xAA50, 0xABF0, 0xFF10, 0x104A0,
    0x10D30, 0x11066, 0x110F0, 0x11136, 0x111D0, 0x112F0, 0x11450, 0x114D0, 0x11650, 0x116C0,
    0x11730, 0x118E0, 0x11950, 0x11C50, 0x11D50, 0x11DA0, 0x11F50, 0x16A60, 0x16AC0, 0x16B50,
    0x1D7CE, 0x1D7D8, 0x1D7E2, 0x1D7EC, 0x1D7F6, 0x1E140, 0x1E2F0, 0x1E4F0, 0x1E950, 0x1FBF0]

/-- The value of a decimal digit. -/
def digitValue (c : ℕ) : Option ℕ := (digitZeros.find? fun z => z ≤ c ∧ c < z + 10).map (c - ·)

/-- The white space beyond ASCII. -/
def wideSpaces : List ℕ :=
  [0x85, 0xA0, 0x1680, 0x2000, 0x2001, 0x2002, 0x2003, 0x2004, 0x2005, 0x2006, 0x2007, 0x2008,
    0x2009, 0x200A, 0x2028, 0x2029, 0x202F, 0x205F, 0x3000]

/-- The white space around an integer: in ASCII, that of C. -/
def isSpace (c : ℕ) : Bool := (9 ≤ c && c ≤ 13) || c == 32 || wideSpaces.contains c

/-- The characters without the white space around them. -/
def strip {α : Type} (isSpace : α → Bool) (cs : List α) : List α :=
  (((cs.dropWhile isSpace).reverse).dropWhile isSpace).reverse

/-- Digits, the most significant first, with single underscores between them. -/
def digits : Text → Option (List ℕ)
  | [] => none
  | [c] => (digitValue c).map ([·])
  | c :: 0x5F :: cs => (digitValue c).bind fun d => (digits cs).map (d :: ·)
  | c :: c' :: cs => (digitValue c).bind fun d => (digits (c' :: cs)).map (d :: ·)

/-- The number that digits denote. -/
def ofDigits (ds : List ℕ) : ℕ := ds.foldl (fun n d => 10 * n + d) 0

/-- `sys.get_int_max_str_digits()` -/
def maxStrDigits : ℕ := 4300

/-- The number that at most 4300 digits denote. -/
def magnitude (cs : Text) : Option ℕ :=
  (digits cs).bind fun ds => if ds.length ≤ maxStrDigits then some (ofDigits ds) else none

/-- `int(s)`; none where it raises `ValueError`. -/
def parseInt (s : String) : Option ℤ :=
  match strip isSpace (text s) with
  | 0x2D :: cs => (magnitude cs).map fun n => -(n : ℤ)
  | 0x2B :: cs => (magnitude cs).map Nat.cast
  | cs => (magnitude cs).map Nat.cast

/-- `float(n)` raises `OverflowError`: the nearest binary64 value would be `2 ^ 1024`. -/
def OverflowsFloat (n : ℤ) : Prop := 2 ^ 1024 - 2 ^ 970 ≤ n.natAbs

instance : DecidablePred OverflowsFloat := fun _ => inferInstanceAs (Decidable (_ ≤ _))

/-- The decimal digits of a natural number determine it, and none of them is a colon. -/
theorem toList_repr_inj {m n : ℕ} (h : m.repr.toList = n.repr.toList) : m = n := by
  rw [Nat.toList_repr, Nat.toList_repr] at h
  rw [← Nat.ofDigitChars_ten_toDigits (n := m), h, Nat.ofDigitChars_ten_toDigits]

theorem colon_notMem_repr (n : ℕ) : ':' ∉ n.repr.toList := by
  rw [Nat.toList_repr]
  intro h
  have := Nat.isDigit_of_mem_toDigits (by omega) (by omega) h
  revert this
  decide

example : [" 1_700 ", "-7", "+07", "１２", "1__0", "_1", "", "1.5", "- 1"].map parseInt =
    [some 1700, some (-7), some 7, some 12, none, none, none, none, none] := by decide +kernel

end PaymentGateway.Lib.Numerals
