import PaymentGateway.Lib.DecimalArith
import PaymentGateway.Lib.Numerals

/-! # Decimals from text

A `Numeral` is a number as it is written: a sign, digits, a point and digits, an exponent. It has a
`text` and a `value`. `parseDecimal` is Python's `Decimal(s)`: it drops white space around the
number and every underscore, takes the digits of any script, and reads a numeral or a special value;
where the context of the largest precision cannot hold the number, it refuses it.

* `readNumeral_text`: a numeral is read back from its text;
* `parseDecimal_text`: a text that denotes a number is converted exactly, within the limits. -/

namespace PaymentGateway.Lib.DecimalText

open PaymentGateway.Lib.Numerals PaymentGateway.Lib.DecimalArith

/-! ### Numerals -/

inductive Sign
  | plus
  | minus
  deriving DecidableEq

/-- `e` or `E`, a sign, and digits. -/
structure Exponent where
  mark : ℕ
  sign : Option Sign
  digits : List ℕ
  deriving DecidableEq

structure Numeral where
  sign : Option Sign
  whole : List ℕ
  fraction : Option (List ℕ)
  exponent : Option Exponent
  deriving DecidableEq

def Sign.code : Sign → ℕ
  | plus => 0x2B
  | minus => 0x2D

def digitCode (d : ℕ) : ℕ := 0x30 + d

def Exponent.value (e : Exponent) : ℤ := signed (e.sign = some .minus) (ofDigits e.digits)

def Exponent.text (e : Exponent) : Text :=
  e.mark :: (e.sign.toList.map Sign.code ++ e.digits.map digitCode)

namespace Numeral

/-- All digits, those after the point included. -/
def digits (n : Numeral) : List ℕ := n.whole ++ n.fraction.getD []

def coefficient (n : Numeral) : ℕ := ofDigits n.digits

/-- The power of ten of the last digit. -/
def scale (n : Numeral) : ℤ :=
  (n.exponent.map Exponent.value).getD 0 - (n.fraction.getD []).length

def value (n : Numeral) : ℚ := signed (n.sign = some .minus) n.coefficient * 10 ^ n.scale

def text (n : Numeral) : Text :=
  n.sign.toList.map Sign.code ++ n.whole.map digitCode ++
    (n.fraction.map fun ds => 0x2E :: ds.map digitCode).getD [] ++
    (n.exponent.map Exponent.text).getD []

/-- A number that can be read. -/
structure Valid (n : Numeral) : Prop where
  digits : ∀ d ∈ n.digits, d < 10
  nonempty : n.digits ≠ []
  exponent : ∀ e ∈ n.exponent, (e.mark = 0x65 ∨ e.mark = 0x45) ∧ e.digits ≠ [] ∧
    ∀ d ∈ e.digits, d < 10

end Numeral

/-- The text is a numeral of this value. -/
def Denotes (t : Text) (a : ℚ) : Prop := ∃ n : Numeral, n.Valid ∧ n.text = t ∧ n.value = a

/-! ### Reading -/

def isDigit (c : ℕ) : Bool := 0x30 ≤ c && c ≤ 0x39

def readSign : Text → Option Sign × Text
  | 0x2B :: cs => (some .plus, cs)
  | 0x2D :: cs => (some .minus, cs)
  | cs => (none, cs)

def readDigits (t : Text) : List ℕ × Text :=
  ((t.takeWhile isDigit).map (· - 0x30), t.dropWhile isDigit)

/-- A point and digits, perhaps none. -/
def readFraction : Text → Option (List ℕ) × Text
  | 0x2E :: cs => (some (readDigits cs).1, (readDigits cs).2)
  | cs => (none, cs)

/-- The exponent, which must be all that is left. -/
def readExponent : Text → Option (Option Exponent)
  | [] => some none
  | c :: cs =>
    let signed := readSign cs
    let ds := readDigits signed.2
    if (c = 0x65 ∨ c = 0x45) ∧ ds.1 ≠ [] ∧ ds.2 = [] then some (some ⟨c, signed.1, ds.1⟩) else none

def readNumeral (t : Text) : Option Numeral :=
  let signed := readSign t
  let whole := readDigits signed.2
  let fraction := readFraction whole.2
  if whole.1 ++ fraction.1.getD [] = [] then none
  else (readExponent fraction.2).map fun e => ⟨signed.1, whole.1, fraction.1, e⟩

/-- An ASCII letter in lower case. -/
def lower (c : ℕ) : ℕ := if 0x41 ≤ c ∧ c ≤ 0x5A then c + 0x20 else c

/-- `inf`, `infinity`, or a NaN, perhaps with digits. -/
def readSpecial (t : Text) : Option Decimal :=
  let signed := readSign t
  let word := signed.2.map lower
  if word = text "inf" ∨ word = text "infinity" then some (.infinity (signed.1 = some .minus))
  else if word.take 3 = text "nan" ∧ (word.drop 3).all isDigit then some .nan
  else if word.take 4 = text "snan" ∧ (word.drop 4).all isDigit then some .snan
  else none

/-- White space of Unicode. -/
def isUnicodeSpace (c : ℕ) : Bool := isSpace c || (0x1C ≤ c && c ≤ 0x1F)

/-- The ASCII character that stands for `c`. -/
def asciiOf (c : ℕ) : Option ℕ :=
  if 0 < c ∧ c < 0x80 then some c
  else if isUnicodeSpace c then some 0x20
  else (digitValue c).map digitCode

/-- `numeric_as_ascii`, which drops white space at the ends and underscores anywhere. -/
def numericAsAscii (t : Text) : Option Text :=
  ((strip isUnicodeSpace t).filter (· ≠ 0x5F)).mapM asciiOf

/-! ### Conversion -/

/-- `MAX_EMAX` -/
def maxEmax : ℤ := 999999999999999999

/-- `MIN_ETINY` -/
def minEtiny : ℤ := -1999999999999999997

/-- The number fits the largest precision and the largest exponents. -/
def InLimits (c : ℕ) (e : ℤ) : Prop :=
  minEtiny ≤ e ∧ if c = 0 then e ≤ maxEmax else e + numDigits c - 1 ≤ maxEmax

instance (c : ℕ) (e : ℤ) : Decidable (InLimits c e) := inferInstanceAs (Decidable (_ ∧ _))

def Numeral.toDecimal (n : Numeral) : Option Decimal :=
  if InLimits n.coefficient n.scale then
    some (.finite (n.sign = some .minus) n.coefficient n.scale)
  else none

/-- `Decimal(s)`; none where it signals an invalid operation. -/
def parseDecimal (t : Text) : Option Decimal :=
  (numericAsAscii t).bind fun t => (readSpecial t).or ((readNumeral t).bind Numeral.toDecimal)

example : (parseDecimal (text " 1_500.0000 ")).map Decimal.value? = some (some 1500) := by
  decide +kernel

example : parseDecimal (text "1e") = none := by decide +kernel

/-! ### Reading back -/

variable {t : Text} {ds : List ℕ} {n : Numeral} {e : Exponent}

/-- The first character of the text, if there is one, satisfies `p`. -/
def Begins (p : ℕ → Prop) (t : Text) : Prop := ∀ c ∈ t.head?, p c

theorem begins_map_digitCode (hds : ∀ d ∈ ds, d < 10) {p : ℕ → Prop}
    (hdigit : ∀ d < 10, p (digitCode d)) (ht : Begins p t) :
    Begins p (ds.map digitCode ++ t) := by
  cases ds with
  | nil => exact ht
  | cons d ds =>
    intro c hc
    cases hc
    exact hdigit d (hds d List.mem_cons_self)

theorem readSign_append {s : Option Sign} (ht : Begins (fun c => c ≠ 0x2B ∧ c ≠ 0x2D) t) :
    readSign (s.toList.map Sign.code ++ t) = (s, t) := by
  cases s with
  | some s => cases s <;> rfl
  | none =>
    cases t with
    | nil => rfl
    | cons c cs =>
      obtain ⟨hplus, hminus⟩ := ht c rfl
      change readSign (c :: cs) = _
      unfold readSign
      split
      · rename_i h
        exact absurd (List.cons.inj h).1 hplus
      · rename_i h
        exact absurd (List.cons.inj h).1 hminus
      · rfl

theorem isDigit_digitCode {d : ℕ} (h : d < 10) : isDigit (digitCode d) = true := by
  unfold isDigit digitCode
  simp only [Bool.and_eq_true, decide_eq_true_eq]
  omega

theorem readDigits_append (hds : ∀ d ∈ ds, d < 10) (ht : Begins (isDigit · = false) t) :
    readDigits (ds.map digitCode ++ t) = (ds, t) := by
  have hall : ∀ c ∈ ds.map digitCode, isDigit c = true := by
    intro c hc
    obtain ⟨d, hd, rfl⟩ := List.mem_map.mp hc
    exact isDigit_digitCode (hds d hd)
  have hrest : t.takeWhile isDigit = [] ∧ t.dropWhile isDigit = t := by
    cases t with
    | nil => exact ⟨rfl, rfl⟩
    | cons c cs => simp [ht c rfl]
  have hback : (ds.map digitCode).map (· - 0x30) = ds := by
    rw [List.map_map]
    exact (List.map_congr_left fun d _ => Nat.add_sub_cancel_left 0x30 d).trans (List.map_id ds)
  unfold readDigits
  rw [List.takeWhile_append_of_pos hall, List.dropWhile_append_of_pos hall, hrest.1, hrest.2,
    List.append_nil, hback]

theorem readFraction_append {fraction : Option (List ℕ)}
    (hds : ∀ d ∈ fraction.getD [], d < 10)
    (ht : Begins (fun c => isDigit c = false ∧ c ≠ 0x2E) t) :
    readFraction ((fraction.map fun ds => 0x2E :: ds.map digitCode).getD [] ++ t) =
      (fraction, t) := by
  cases fraction with
  | some ds =>
    have hread : readDigits (ds.map digitCode ++ t) = (ds, t) :=
      readDigits_append hds fun c hc => (ht c hc).1
    change (some (readDigits (ds.map digitCode ++ t)).1, (readDigits (ds.map digitCode ++ t)).2) = _
    rw [hread]
  | none =>
    cases t with
    | nil => rfl
    | cons c cs =>
      change readFraction (c :: cs) = _
      unfold readFraction
      split
      · rename_i h
        exact absurd (List.cons.inj h).1 (ht c rfl).2
      · rfl

theorem readExponent_text (hmark : e.mark = 0x65 ∨ e.mark = 0x45) (hne : e.digits ≠ [])
    (hds : ∀ d ∈ e.digits, d < 10) : readExponent e.text = some (some e) := by
  have hdigits : readDigits (e.digits.map digitCode) = (e.digits, []) := by
    have h := readDigits_append (t := []) hds fun c hc => by cases hc
    rwa [List.append_nil] at h
  have hsign : readSign (e.sign.toList.map Sign.code ++ e.digits.map digitCode) =
      (e.sign, e.digits.map digitCode) := by
    refine readSign_append fun c hc => ?_
    obtain ⟨d, -, rfl⟩ := List.mem_map.mp (List.mem_of_head? hc)
    unfold digitCode
    omega
  unfold Exponent.text readExponent
  dsimp only
  rw [hsign, hdigits, if_pos ⟨hmark, hne, rfl⟩]

namespace Numeral

/-- What comes after the digits before the point. -/
theorem begins_exponent (h : n.Valid) :
    Begins (fun c => isDigit c = false ∧ c ≠ 0x2E ∧ c ≠ 0x2B ∧ c ≠ 0x2D)
      ((n.exponent.map Exponent.text).getD []) := by
  cases he : n.exponent with
  | none =>
    intro c hc
    cases hc
  | some e =>
    intro c hc
    cases hc
    rcases (h.exponent e he).1 with hm | hm <;> rw [hm] <;> decide

theorem begins_fraction {p : ℕ → Prop} (hpoint : p 0x2E) (ht : Begins p t) (n : Numeral) :
    Begins p ((n.fraction.map fun ds => 0x2E :: ds.map digitCode).getD [] ++ t) := by
  cases n.fraction with
  | none => exact ht
  | some ds =>
    intro c hc
    cases hc
    exact hpoint

/-- **A numeral** is read back from its text. -/
theorem readNumeral_text (h : n.Valid) : readNumeral n.text = some n := by
  have hwhole : ∀ d ∈ n.whole, d < 10 := fun d hd => h.digits d (List.mem_append_left _ hd)
  have hfraction : ∀ d ∈ n.fraction.getD [], d < 10 := fun d hd =>
    h.digits d (List.mem_append_right _ hd)
  have hexponent := begins_exponent h
  have hsign := readSign_append (s := n.sign) (begins_map_digitCode hwhole
    (fun d hd => by unfold digitCode; omega)
    (begins_fraction (n := n) (by decide) fun c hc => (hexponent c hc).2.2))
  have hdigits := readDigits_append hwhole (begins_fraction (n := n) (by decide)
    fun c hc => (hexponent c hc).1)
  have hpoint := readFraction_append hfraction fun c hc =>
    ⟨(hexponent c hc).1, (hexponent c hc).2.1⟩
  have hlast : readExponent ((n.exponent.map Exponent.text).getD []) = some n.exponent := by
    cases he : n.exponent with
    | none => rfl
    | some e =>
      obtain ⟨hmark, hne, hds⟩ := h.exponent e he
      exact readExponent_text hmark hne hds
  unfold readNumeral text
  rw [List.append_assoc, List.append_assoc]
  dsimp only
  rw [hsign]
  dsimp only
  rw [hdigits]
  dsimp only
  rw [hpoint]
  dsimp only
  have hne : n.whole ++ n.fraction.getD [] ≠ [] := h.nonempty
  rw [if_neg hne, hlast]
  rfl

end Numeral

/-- A character of a numeral. -/
def Plain (c : ℕ) : Prop :=
  (0x30 ≤ c ∧ c ≤ 0x39) ∨ c = 0x2B ∨ c = 0x2D ∨ c = 0x2E ∨ c = 0x45 ∨ c = 0x65

theorem plain_digits (hds : ∀ d ∈ ds, d < 10) : ∀ c ∈ ds.map digitCode, Plain c := by
  intro c hc
  obtain ⟨d, hd, rfl⟩ := List.mem_map.mp hc
  have hlt := hds d hd
  unfold Plain digitCode
  omega

theorem plain_sign (s : Option Sign) : ∀ c ∈ s.toList.map Sign.code, Plain c := by
  intro c hc
  obtain ⟨s, -, rfl⟩ := List.mem_map.mp hc
  cases s with
  | plus => exact .inr (.inl rfl)
  | minus => exact .inr (.inr (.inl rfl))

theorem plain_text (h : n.Valid) : ∀ c ∈ n.text, Plain c := by
  unfold Numeral.text
  intro c hc
  simp only [List.mem_append] at hc
  rcases hc with ((hc | hc) | hc) | hc
  · exact plain_sign _ c hc
  · exact plain_digits (fun d hd => h.digits d (List.mem_append_left _ hd)) c hc
  · have hfraction : ∀ d ∈ n.fraction.getD [], d < 10 := fun d hd =>
      h.digits d (List.mem_append_right _ hd)
    cases hf : n.fraction with
    | none => rw [hf] at hc; cases hc
    | some ds =>
      rw [hf] at hc hfraction
      rcases List.mem_cons.mp hc with rfl | hc
      · unfold Plain; omega
      · exact plain_digits hfraction c hc
  · cases he : n.exponent with
    | none => rw [he] at hc; cases hc
    | some e =>
      obtain ⟨hmark, -, hds⟩ := h.exponent e he
      rw [he] at hc
      rcases List.mem_cons.mp hc with rfl | hc
      · unfold Plain; omega
      · rcases List.mem_append.mp hc with hc | hc
        · exact plain_sign _ c hc
        · exact plain_digits hds c hc

theorem not_space {c : ℕ} (h : Plain c) : isUnicodeSpace c = false := by
  have hwide : ∀ w ∈ wideSpaces, 0x80 ≤ w := by decide
  have hnone : wideSpaces.contains c = false := by
    rw [List.contains_eq_mem, decide_eq_false_iff_not]
    intro hc
    have hle := hwide c hc
    unfold Plain at h
    omega
  unfold isUnicodeSpace isSpace
  rw [hnone]
  unfold Plain at h
  simp only [Bool.or_false, Bool.or_eq_false_iff, Bool.and_eq_false_iff, decide_eq_false_iff_not,
    beq_eq_false_iff_ne]
  omega

theorem dropWhile_eq_self {p : ℕ → Bool} (h : ∀ c ∈ t, p c = false) : t.dropWhile p = t := by
  cases t with
  | nil => rfl
  | cons c cs => simp [h c List.mem_cons_self]

/-- A text of plain characters is taken as it is. -/
theorem numericAsAscii_plain (h : ∀ c ∈ t, Plain c) : numericAsAscii t = some t := by
  have hspace : ∀ c ∈ t, isUnicodeSpace c = false := fun c hc => not_space (h c hc)
  have hreverse : ∀ c ∈ t.reverse, isUnicodeSpace c = false := fun c hc =>
    hspace c (List.mem_reverse.mp hc)
  have hfilter : t.filter (· ≠ 0x5F) = t := List.filter_eq_self.mpr fun c hc => by
    have hplain := h c hc
    unfold Plain at hplain
    simp only [ne_eq, decide_not, Bool.not_eq_eq_eq_not, Bool.not_true, decide_eq_false_iff_not]
    omega
  have hascii : ∀ c ∈ t, asciiOf c = some c := fun c hc => if_pos (by
    have hplain := h c hc
    unfold Plain at hplain
    omega)
  unfold numericAsAscii strip
  rw [dropWhile_eq_self hspace, dropWhile_eq_self hreverse, List.reverse_reverse, hfilter]
  clear hspace hreverse hfilter
  induction t with
  | nil => rfl
  | cons c cs ih =>
    rw [List.mapM_cons, hascii c List.mem_cons_self,
      ih (fun c hc => h c (List.mem_cons_of_mem _ hc))
        fun c hc => hascii c (List.mem_cons_of_mem _ hc)]
    rfl

/-- After the sign comes a digit or the point. -/
theorem text_eq_cons (h : n.Valid) : ∃ c cs,
    n.text = n.sign.toList.map Sign.code ++ c :: cs ∧ 0x2E ≤ c ∧ c ≤ 0x39 := by
  have hne : n.whole ++ n.fraction.getD [] ≠ [] := h.nonempty
  unfold Numeral.text
  rw [List.append_assoc, List.append_assoc]
  cases hw : n.whole with
  | cons d ds =>
    have hd := h.digits d (List.mem_append_left _ (hw ▸ List.mem_cons_self))
    refine ⟨digitCode d, _, rfl, ?_, ?_⟩ <;> unfold digitCode <;> omega
  | nil =>
    cases hf : n.fraction with
    | some ds => exact ⟨0x2E, _, rfl, by omega, by omega⟩
    | none =>
      rw [hw, hf] at hne
      exact absurd rfl hne

/-- A numeral is no special value. -/
theorem readSpecial_text (h : n.Valid) : readSpecial n.text = none := by
  obtain ⟨c, cs, htext, hlow, hhigh⟩ := text_eq_cons h
  have hsign : readSign n.text = (n.sign, c :: cs) := by
    rw [htext]
    exact readSign_append fun d hd => by
      cases hd
      omega
  have hlower : lower c = c := if_neg (by omega)
  have hhead : ∀ (w : ℕ) (ws word : Text), 0x39 < w → c :: word ≠ w :: ws := by
    intro w ws word hw he
    have := (List.cons.inj he).1
    omega
  unfold readSpecial
  rw [hsign]
  simp only [List.map_cons, hlower]
  rw [if_neg, if_neg, if_neg]
  · exact fun hc => hhead _ _ _ (by decide) hc.1
  · exact fun hc => hhead _ _ _ (by decide) hc.1
  · rintro (hc | hc)
    · exact hhead _ _ _ (by decide) hc
    · exact hhead _ _ _ (by decide) hc

/-- **The conversion of a numeral** is exact, or refused. -/
theorem parseDecimal_text (h : n.Valid) : parseDecimal n.text = n.toDecimal := by
  unfold parseDecimal
  rw [numericAsAscii_plain (plain_text h)]
  change (readSpecial n.text).or ((readNumeral n.text).bind Numeral.toDecimal) = _
  rw [readSpecial_text h, Numeral.readNumeral_text h]
  rfl

end PaymentGateway.Lib.DecimalText
