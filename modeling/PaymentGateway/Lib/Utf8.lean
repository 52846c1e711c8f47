import Mathlib.Data.Nat.Notation
import Mathlib.Tactic.SplitIfs

/-! # UTF-8 with replacement

`encode` is the UTF-8 encoding of a string. `decode` reads bytes with `errors="replace"`: a sequence
that is not well formed, up to the first byte that cannot continue it, becomes one replacement
character. It reads back what `encode` has written (`decode_encode`). -/

namespace PaymentGateway.Lib.Utf8

/-- `s.encode("utf-8")` -/
def encode (s : String) : List UInt8 := s.toList.flatMap String.utf8EncodeChar

/-- `U+FFFD` -/
def replacement : Char := Char.ofNat 0xFFFD

/-- A sequence under way: how many bytes it still needs, the bits so far, and the range of the next
byte. -/
structure Sequence where
  needed : ℕ
  code : ℕ
  low : ℕ
  high : ℕ

/-- What a first byte is: a character, or the start of a sequence. The ranges leave out overlong
forms, surrogates and what is beyond `U+10FFFF`. -/
def lead (b : ℕ) : Char ⊕ Sequence :=
  if b ≤ 0x7F then .inl (Char.ofNat b)
  else if 0xC2 ≤ b ∧ b ≤ 0xDF then .inr ⟨1, b % 0x20, 0x80, 0xBF⟩
  else if 0xE0 ≤ b ∧ b ≤ 0xEF then
    .inr ⟨2, b % 0x10, if b = 0xE0 then 0xA0 else 0x80, if b = 0xED then 0x9F else 0xBF⟩
  else if 0xF0 ≤ b ∧ b ≤ 0xF4 then
    .inr ⟨3, b % 0x08, if b = 0xF0 then 0x90 else 0x80, if b = 0xF4 then 0x8F else 0xBF⟩
  else .inl replacement

/-- The characters of the bytes, after a sequence that may be under way. -/
def decodeFrom : Option Sequence → List UInt8 → List Char
  | none, [] => []
  | some _, [] => [replacement]
  | none, b :: bs =>
    match lead b.toNat with
    | .inl c => c :: decodeFrom none bs
    | .inr s => decodeFrom (some s) bs
  | some s, b :: bs =>
    if s.low ≤ b.toNat ∧ b.toNat ≤ s.high then
      if s.needed = 1 then Char.ofNat (s.code * 0x40 + b.toNat % 0x40) :: decodeFrom none bs
      else decodeFrom (some ⟨s.needed - 1, s.code * 0x40 + b.toNat % 0x40, 0x80, 0xBF⟩) bs
    else
      replacement ::
        match lead b.toNat with
        | .inl c => c :: decodeFrom none bs
        | .inr s => decodeFrom (some s) bs

/-- `bs.decode("utf-8", errors="replace")` -/
def decode (bs : List UInt8) : String := String.ofList (decodeFrom none bs)

/-- Overlong, a surrogate, and cut off. -/
example : decode [0x41, 0xC0, 0xAF, 0xED, 0xA0, 0x80, 0xE2, 0x82] =
    String.ofList ('A' :: List.replicate 6 replacement) := by decide

/-! ### Reading back -/

variable {n : ℕ} {bs : List UInt8} {s : Sequence}

theorem toNat_byte (hn : n < 0x100) : (UInt8.ofNat n).toNat = n := by
  simp [Nat.mod_eq_of_lt hn]

theorem decodeFrom_char {c : Char} (hn : n < 0x100) (h : lead n = .inl c) :
    decodeFrom none (UInt8.ofNat n :: bs) = c :: decodeFrom none bs := by
  simp only [decodeFrom, toNat_byte hn, h]

theorem decodeFrom_lead (hn : n < 0x100) (h : lead n = .inr s) :
    decodeFrom none (UInt8.ofNat n :: bs) = decodeFrom (some s) bs := by
  simp only [decodeFrom, toNat_byte hn, h]

theorem decodeFrom_next (hn : n < 0x100) (h : s.low ≤ n ∧ n ≤ s.high) (hs : s.needed ≠ 1) :
    decodeFrom (some s) (UInt8.ofNat n :: bs) =
      decodeFrom (some ⟨s.needed - 1, s.code * 0x40 + n % 0x40, 0x80, 0xBF⟩) bs := by
  simp only [decodeFrom, toNat_byte hn, if_pos h, if_neg hs]

theorem decodeFrom_last (hn : n < 0x100) (h : s.low ≤ n ∧ n ≤ s.high) (hs : s.needed = 1) :
    decodeFrom (some s) (UInt8.ofNat n :: bs) =
      Char.ofNat (s.code * 0x40 + n % 0x40) :: decodeFrom none bs := by
  simp only [decodeFrom, toNat_byte hn, if_pos h, if_pos hs]

theorem lead_three (hn : 0xE0 ≤ n ∧ n ≤ 0xEF) : lead n =
    .inr ⟨2, n % 0x10, if n = 0xE0 then 0xA0 else 0x80, if n = 0xED then 0x9F else 0xBF⟩ := by
  unfold lead
  rw [if_neg (by omega), if_neg (by omega), if_pos hn]

theorem lead_four (hn : 0xF0 ≤ n ∧ n ≤ 0xF4) : lead n =
    .inr ⟨3, n % 0x08, if n = 0xF0 then 0x90 else 0x80, if n = 0xF4 then 0x8F else 0xBF⟩ := by
  unfold lead
  rw [if_neg (by omega), if_neg (by omega), if_neg (by omega), if_pos hn]

/-- **One character** is read back. -/
theorem decodeFrom_encodeChar (c : Char) (bs : List UInt8) :
    decodeFrom none (String.utf8EncodeChar c ++ bs) = c :: decodeFrom none bs := by
  have hc : Char.ofNat c.val.toNat = c := Char.ofNat_toNat c
  have hv : c.val.toNat < 0xD800 ∨ 0xDFFF < c.val.toNat ∧ c.val.toNat < 0x110000 := c.valid
  unfold String.utf8EncodeChar
  generalize c.val.toNat = v at hc hv ⊢
  dsimp only
  split_ifs with h1 h2 h3
  · rw [List.singleton_append, decodeFrom_char (by omega) (if_pos h1), hc]
  · have hlead : lead (v / 64 % 0x20 + 0xC0) =
        .inr ⟨1, (v / 64 % 0x20 + 0xC0) % 0x20, 0x80, 0xBF⟩ := by
      unfold lead
      rw [if_neg (by omega), if_pos (by omega)]
    rw [List.cons_append, List.singleton_append, decodeFrom_lead (by omega) hlead,
      decodeFrom_last (by omega) (by dsimp only; omega) rfl]
    have : (v / 64 % 0x20 + 0xC0) % 0x20 * 0x40 + (v % 0x40 + 0x80) % 0x40 = v := by omega
    rw [this, hc]
  · have hlead := lead_three (n := v / 4096 % 0x10 + 0xE0) (by omega)
    rw [List.cons_append, List.cons_append, List.singleton_append,
      decodeFrom_lead (by omega) hlead,
      decodeFrom_next (by omega) (by dsimp only; split_ifs <;> omega) (by simp),
      decodeFrom_last (by omega) (by dsimp only; omega) rfl]
    have : ((v / 4096 % 0x10 + 0xE0) % 0x10 * 0x40 + (v / 64 % 0x40 + 0x80) % 0x40) * 0x40 +
        (v % 0x40 + 0x80) % 0x40 = v := by omega
    dsimp only
    rw [this, hc]
  · have hlead := lead_four (n := v / 262144 % 0x08 + 0xF0) (by omega)
    rw [List.cons_append, List.cons_append, List.cons_append, List.singleton_append,
      decodeFrom_lead (by omega) hlead,
      decodeFrom_next (by omega) (by dsimp only; split_ifs <;> omega) (by simp),
      decodeFrom_next (by omega) (by dsimp only; omega) (by simp),
      decodeFrom_last (by omega) (by dsimp only; omega) rfl]
    have : (((v / 262144 % 0x08 + 0xF0) % 0x08 * 0x40 + (v / 4096 % 0x40 + 0x80) % 0x40) * 0x40 +
        (v / 64 % 0x40 + 0x80) % 0x40) * 0x40 + (v % 0x40 + 0x80) % 0x40 = v := by omega
    dsimp only
    rw [this, hc]

/-- **Reading back** what was encoded. -/
theorem decode_encode (s : String) : decode (encode s) = s := by
  have h : ∀ cs : List Char, decodeFrom none (cs.flatMap String.utf8EncodeChar) = cs := by
    intro cs
    induction cs with
    | nil => rfl
    | cons c cs ih => rw [List.flatMap_cons, decodeFrom_encodeChar, ih]
  unfold decode encode
  rw [h, String.ofList_toList]

/-- Well-formed UTF-8. -/
def Valid (bs : List UInt8) : Prop := encode (decode bs) = bs

instance : DecidablePred Valid := fun bs => inferInstanceAs (Decidable (_ = bs))

/-- The well-formed bytes are those that some string encodes to. -/
theorem valid_iff : Valid bs ↔ ∃ s, encode s = bs := by
  refine ⟨fun h => ⟨decode bs, h⟩, ?_⟩
  rintro ⟨s, rfl⟩
  unfold Valid
  rw [decode_encode]

end PaymentGateway.Lib.Utf8
