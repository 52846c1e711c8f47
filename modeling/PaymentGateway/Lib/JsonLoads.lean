import PaymentGateway.Lib.DecimalText
import PaymentGateway.Lib.Encodings

/-! # Reading JSON

`loads` is Python's `json.loads` on bytes, `loadsText` on a string, by the scanner of the standard
library: `scanOnce` reads one value and returns what comes after it. A number with a point or an
exponent is kept as it is written, an integer is read. Arrays and objects may be nested `depth`
deep; what is nested deeper is a `RecursionError` of the interpreter.

The scanner is by recursion on `fuel`, of which three times the length of the text is enough
(`scanOnce_fuel`). -/

namespace PaymentGateway.Lib.JsonLoads

open PaymentGateway.Lib.Numerals PaymentGateway.Lib.DecimalText PaymentGateway.Lib.Encodings

/-- A value; of members with one name the last one counts. -/
inductive Json
  | null
  | bool (b : Bool)
  | int (n : ℤ)
  | float (n : Numeral)
  | infinity (negative : Bool)
  | nan
  | str (t : Text)
  | arr (items : List Json)
  | obj (members : List (Text × Json))

/-- `UnicodeDecodeError`, `JSONDecodeError`, the `ValueError` of an integer with too many digits,
and `RecursionError`. -/
inductive LoadsError
  | unicodeDecode
  | jsonDecode
  | value
  | recursion
  deriving DecidableEq

/-- The result of a scan, and the text after it. -/
abbrev Scan (α : Type) := Except LoadsError (α × Text)

def isJsonSpace (c : ℕ) : Bool := c == 0x20 || c == 0x09 || c == 0x0A || c == 0x0D

def skipSpace (t : Text) : Text := t.dropWhile isJsonSpace

/-! ### Strings -/

def hexDigit (c : ℕ) : Option ℕ :=
  if 0x30 ≤ c ∧ c ≤ 0x39 then some (c - 0x30)
  else if 0x61 ≤ c ∧ c ≤ 0x66 then some (c - 0x61 + 10)
  else if 0x41 ≤ c ∧ c ≤ 0x46 then some (c - 0x41 + 10)
  else none

/-- `XXXX` -/
def hexUnit (a b c d : ℕ) : Option ℕ := do
  let a ← hexDigit a
  let b ← hexDigit b
  let c ← hexDigit c
  let d ← hexDigit d
  return ((a * 16 + b) * 16 + c) * 16 + d

/-- The character of `\c`. -/
def shortEscape (c : ℕ) : Option ℕ :=
  if c = 0x22 ∨ c = 0x5C ∨ c = 0x2F then some c
  else if c = 0x62 then some 0x08
  else if c = 0x66 then some 0x0C
  else if c = 0x6E then some 0x0A
  else if c = 0x72 then some 0x0D
  else if c = 0x74 then some 0x09
  else none

/-- A character of a string, or the code unit of an escape `\uXXXX`. -/
inductive Piece
  | char (c : ℕ)
  | unit (u : ℕ)
  deriving DecidableEq

/-- The characters; two escaped surrogates in a row are one. -/
def joinPieces : List Piece → Text
  | [] => []
  | .unit u :: .unit v :: ps =>
    if IsHigh u ∧ IsLow v then joinSurrogates u v :: joinPieces ps
    else u :: joinPieces (.unit v :: ps)
  | .unit u :: ps => u :: joinPieces ps
  | .char c :: ps => c :: joinPieces ps

/-- The pieces up to the closing quote. -/
def scanPieces : Text → Scan (List Piece)
  | [] => .error .jsonDecode
  | c :: cs =>
    if c = 0x22 then .ok ([], cs)
    else if c = 0x5C then
      match cs with
      | [] => .error .jsonDecode
      | e :: cs =>
        if e = 0x75 then
          match cs with
          | h₁ :: h₂ :: h₃ :: h₄ :: cs =>
            match hexUnit h₁ h₂ h₃ h₄ with
            | some u => (scanPieces cs).map fun r => (.unit u :: r.1, r.2)
            | none => .error .jsonDecode
          | _ => .error .jsonDecode
        else
          match shortEscape e with
          | some c => (scanPieces cs).map fun r => (.char c :: r.1, r.2)
          | none => .error .jsonDecode
    else if c < 0x20 then .error .jsonDecode
    else (scanPieces cs).map fun r => (.char c :: r.1, r.2)

/-- `scanstring`, after the opening quote. -/
def scanString (t : Text) : Scan Text := (scanPieces t).map fun r => (joinPieces r.1, r.2)

/-! ### Numbers and constants -/

/-- `0`, or digits that do not begin with it. -/
def scanWhole : Text → Option (List ℕ × Text)
  | [] => none
  | c :: cs =>
    if c = 0x30 then some ([0], cs)
    else if isDigit c then some (readDigits (c :: cs))
    else none

/-- A point, if a digit follows, and the digits. -/
def scanFraction (t : Text) : Option (List ℕ) × Text :=
  match t with
  | 0x2E :: cs =>
    let ds := readDigits cs
    if ds.1 = [] then (none, t) else (some ds.1, ds.2)
  | _ => (none, t)

/-- An exponent, if it has digits. -/
def scanExponent (t : Text) : Option Exponent × Text :=
  match t with
  | c :: cs =>
    let signed := readSign cs
    let ds := readDigits signed.2
    if (c = 0x65 ∨ c = 0x45) ∧ ds.1 ≠ [] then (some ⟨c, signed.1, ds.1⟩, ds.2) else (none, t)
  | [] => (none, t)

/-- An integer, of at most 4300 digits, or a number that becomes a float. -/
def number (n : Numeral) : Except LoadsError Json :=
  match n.fraction, n.exponent with
  | none, none =>
    if n.whole.length ≤ maxStrDigits then
      .ok (.int (DecimalArith.signed (n.sign = some .minus) (ofDigits n.whole)))
    else .error .value
  | _, _ => .ok (.float n)

def scanMinus : Text → Option Sign × Text
  | 0x2D :: cs => (some .minus, cs)
  | t => (none, t)

/-- `_match_number` -/
def scanNumber (t : Text) : Scan Json :=
  let signed := scanMinus t
  match scanWhole signed.2 with
  | none => .error .jsonDecode
  | some whole =>
    let fraction := scanFraction whole.2
    let exponent := scanExponent fraction.2
    (number ⟨signed.1, whole.1, fraction.1, exponent.1⟩).map fun v => (v, exponent.2)

/-- The words that are values. -/
def constants : List (Text × Json) :=
  [(text "null", .null), (text "true", .bool true), (text "false", .bool false), (text "NaN", .nan),
    (text "Infinity", .infinity false), (text "-Infinity", .infinity true)]

/-- A word at the beginning of the text. -/
def scanConstant (t : Text) : Option (Json × Text) :=
  (constants.find? fun w => w.1.isPrefixOf t).map fun w => (w.2, t.drop w.1.length)

/-! ### Values -/

mutual

/-- `scan_once` -/
def scanOnce : ℕ → ℕ → Text → Scan Json
  | 0, _, _ => .error .recursion
  | fuel + 1, depth, t =>
    match t with
    | [] => .error .jsonDecode
    | c :: cs =>
      if c = 0x22 then (scanString cs).map fun r => (.str r.1, r.2)
      else if c = 0x7B then
        match depth with
        | 0 => .error .recursion
        | depth + 1 => parseObject fuel depth (skipSpace cs)
      else if c = 0x5B then
        match depth with
        | 0 => .error .recursion
        | depth + 1 => parseArray fuel depth (skipSpace cs)
      else
        match scanConstant t with
        | some r => .ok r
        | none => scanNumber t

/-- `_parse_object`, after the brace. -/
def parseObject : ℕ → ℕ → Text → Scan Json
  | 0, _, _ => .error .recursion
  | fuel + 1, depth, t =>
    match t with
    | 0x7D :: cs => .ok (.obj [], cs)
    | _ => (parseMembers fuel depth t).map fun r => (.obj r.1, r.2)

/-- The members, up to the closing brace. -/
def parseMembers : ℕ → ℕ → Text → Scan (List (Text × Json))
  | 0, _, _ => .error .recursion
  | fuel + 1, depth, t =>
    match t with
    | 0x22 :: cs =>
      (scanString cs).bind fun key =>
      match skipSpace key.2 with
      | 0x3A :: cs =>
        (scanOnce fuel depth (skipSpace cs)).bind fun value =>
        match skipSpace value.2 with
        | 0x7D :: cs => .ok ([(key.1, value.1)], cs)
        | 0x2C :: cs =>
          (parseMembers fuel depth (skipSpace cs)).map fun rest =>
            ((key.1, value.1) :: rest.1, rest.2)
        | _ => .error .jsonDecode
      | _ => .error .jsonDecode
    | _ => .error .jsonDecode

/-- `_parse_array`, after the bracket. -/
def parseArray : ℕ → ℕ → Text → Scan Json
  | 0, _, _ => .error .recursion
  | fuel + 1, depth, t =>
    match t with
    | 0x5D :: cs => .ok (.arr [], cs)
    | _ => (parseItems fuel depth t).map fun r => (.arr r.1, r.2)

/-- The items, up to the closing bracket. -/
def parseItems : ℕ → ℕ → Text → Scan (List Json)
  | 0, _, _ => .error .recursion
  | fuel + 1, depth, t =>
    (scanOnce fuel depth t).bind fun item =>
    match skipSpace item.2 with
    | 0x5D :: cs => .ok ([item.1], cs)
    | 0x2C :: cs =>
      (parseItems fuel depth (skipSpace cs)).map fun rest => (item.1 :: rest.1, rest.2)
    | _ => .error .jsonDecode

end

/-- `JSONDecoder.decode`: one value, with white space around it. -/
def decode (depth : ℕ) (t : Text) : Except LoadsError Json :=
  (scanOnce (3 * t.length + 1) depth (skipSpace t)).bind fun r =>
  if skipSpace r.2 = [] then .ok r.1 else .error .jsonDecode

/-- `json.loads` of a string, which may not begin with a byte order mark. -/
def loadsText (depth : ℕ) (t : Text) : Except LoadsError Json :=
  if t.head? = some 0xFEFF then .error .jsonDecode else decode depth t

/-- `json.loads` of bytes. -/
def loads (depth : ℕ) (body : List UInt8) : Except LoadsError Json :=
  match decodeJson body with
  | none => .error .unicodeDecode
  | some t => decode depth t

/-- `value.get(name)` of an object, if the member is there. -/
def member (name : String) (members : List (Text × Json)) : Option Json :=
  (members.reverse.find? fun m => m.1 = text name).map Prod.snd

/-! ### Fuel -/

section Fuel

variable {α β : Type} {x : Scan α} {t u : Text}

/-- What is scanned is not empty. -/
def Consumes (x : Scan α) (t : Text) : Prop := ∀ r, x = .ok r → r.2.length < t.length

theorem Consumes.error (e : LoadsError) : Consumes (.error e : Scan α) t := fun _ h => by cases h

theorem Consumes.ok {a : α} (h : u.length < t.length) : Consumes (.ok (a, u)) t := by
  rintro _ ⟨⟩
  exact h

theorem Consumes.mono (h : Consumes x u) (hle : u.length ≤ t.length) : Consumes x t :=
  fun r hr => (h r hr).trans_le hle

theorem Consumes.cons {c : ℕ} (h : Consumes x u) : Consumes x (c :: u) := h.mono (Nat.le_succ _)

theorem Consumes.map (h : Consumes x t) {f : α × Text → β × Text} (hf : ∀ r, (f r).2 = r.2) :
    Consumes (x.map f) t := by
  cases x with
  | error e => exact .error e
  | ok r =>
    rintro _ ⟨⟩
    rw [hf r]
    exact h r rfl

theorem Consumes.bind (h : Consumes x t) {f : α × Text → Scan β}
    (hf : ∀ r, Consumes (f r) r.2) : Consumes (x.bind f) t := by
  cases x with
  | error e => exact .error e
  | ok r => exact (hf r).mono (h r rfl).le

theorem Consumes.bind_congr (h : Consumes x t) {f g : α × Text → Scan β}
    (hfg : ∀ r, r.2.length < t.length → f r = g r) : x.bind f = x.bind g := by
  cases x with
  | error e => rfl
  | ok r => exact hfg r (h r rfl)

theorem length_skipSpace (t : Text) : (skipSpace t).length ≤ t.length :=
  (List.dropWhile_sublist _).length_le

theorem length_of_skipSpace {c : ℕ} (h : skipSpace t = c :: u) : u.length < t.length := by
  have hle := length_skipSpace t
  rw [h] at hle
  exact hle

theorem scanPieces_consumes (t : Text) : Consumes (scanPieces t) t := by
  fun_induction scanPieces t
  case case1 | case3 | case5 | case6 | case8 | case9 => exact .error _
  case case2 => exact .ok (Nat.lt_succ_self _)
  case case4 | case7 | case10 =>
    rename_i ih
    refine (ih.map ?_).mono ?_
    · exact fun _ => rfl
    · simp only [List.length_cons]
      omega

theorem scanString_consumes (t : Text) : Consumes (scanString t) t :=
  (scanPieces_consumes t).map fun _ => rfl

theorem length_readDigits (t : Text) : (readDigits t).2.length ≤ t.length :=
  (List.dropWhile_sublist _).length_le

theorem length_readSign (t : Text) : (readSign t).2.length ≤ t.length := by
  unfold readSign
  split
  · exact Nat.le_succ _
  · exact Nat.le_succ _
  · exact le_rfl

theorem length_scanWhole {whole : List ℕ × Text} (h : scanWhole t = some whole) :
    whole.2.length < t.length := by
  unfold scanWhole at h
  split at h
  · cases h
  · rename_i c cs
    split_ifs at h with hzero hdigit
    · cases h
      exact Nat.lt_succ_self _
    · cases h
      have hdrop : (readDigits (c :: cs)).2 = cs.dropWhile isDigit :=
        List.dropWhile_cons_of_pos hdigit
      rw [hdrop]
      exact Nat.lt_succ_of_le (List.dropWhile_sublist _).length_le

theorem length_scanFraction (t : Text) : (scanFraction t).2.length ≤ t.length := by
  unfold scanFraction
  split
  · rename_i cs
    dsimp only
    split_ifs
    · exact le_rfl
    · exact (length_readDigits cs).trans (Nat.le_succ _)
  · exact le_rfl

theorem length_scanExponent (t : Text) : (scanExponent t).2.length ≤ t.length := by
  unfold scanExponent
  split
  · rename_i c cs
    dsimp only
    split_ifs
    · exact (length_readDigits _).trans ((length_readSign cs).trans (Nat.le_succ _))
    · exact le_rfl
  · exact le_rfl

theorem length_scanMinus (t : Text) : (scanMinus t).2.length ≤ t.length := by
  unfold scanMinus
  split
  · exact Nat.le_succ _
  · exact le_rfl

theorem scanNumber_consumes (t : Text) : Consumes (scanNumber t) t := by
  have hsign := length_scanMinus t
  unfold scanNumber
  dsimp only
  split
  · exact .error _
  · rename_i whole hwhole
    have hlast := (length_scanExponent (scanFraction whole.2).2).trans (length_scanFraction whole.2)
    generalize number _ = v
    cases v with
    | error e => exact .error _
    | ok v => exact .ok (hlast.trans_lt ((length_scanWhole hwhole).trans_le hsign))

theorem length_scanConstant {r : Json × Text} (h : scanConstant t = some r) :
    r.2.length < t.length := by
  unfold scanConstant at h
  obtain ⟨w, hw, rfl⟩ := Option.map_eq_some_iff.mp h
  have hfound := List.find?_some hw
  have hprefix : w.1 <+: t := List.isPrefixOf_iff_prefix.mp hfound
  have hmem := List.mem_of_find?_eq_some hw
  have hne : ∀ w ∈ constants, 0 < w.1.length := by
    unfold constants
    decide +kernel
  have hpos := hne w hmem
  have hle := hprefix.length_le
  rw [List.length_drop]
  omega

/-- What is scanned, by any of the functions, is not empty. -/
theorem scan_consumes (fuel : ℕ) : ∀ depth t,
    Consumes (scanOnce fuel depth t) t ∧ Consumes (parseObject fuel depth t) t ∧
      Consumes (parseMembers fuel depth t) t ∧ Consumes (parseArray fuel depth t) t ∧
      Consumes (parseItems fuel depth t) t := by
  induction fuel with
  | zero =>
    intro depth t
    unfold scanOnce parseObject parseMembers parseArray parseItems
    exact ⟨.error _, .error _, .error _, .error _, .error _⟩
  | succ fuel ih =>
    intro depth t
    refine ⟨?_, ?_, ?_, ?_, ?_⟩
    · unfold scanOnce
      split
      · exact .error _
      · rename_i c cs
        have hspace := (length_skipSpace cs).trans (Nat.le_succ _)
        split_ifs
        · exact (scanString_consumes cs).cons.map fun _ => rfl
        · cases depth with
          | zero => exact .error _
          | succ depth => exact (ih depth _).2.1.mono hspace
        · cases depth with
          | zero => exact .error _
          | succ depth => exact (ih depth _).2.2.2.1.mono hspace
        · split
          · rename_i r hr
            exact .ok (length_scanConstant hr)
          · exact scanNumber_consumes _
    · unfold parseObject
      split
      · exact .ok (Nat.lt_succ_self _)
      · exact (ih depth t).2.2.1.map fun _ => rfl
    · unfold parseMembers
      split
      · rename_i cs
        refine (scanString_consumes cs).cons.bind fun key => ?_
        split
        · rename_i cs hcolon
          have hvalue := (length_skipSpace cs).trans (length_of_skipSpace hcolon).le
          refine ((ih depth (skipSpace cs)).1.mono hvalue).bind fun value => ?_
          split
          · rename_i hclose
            exact .ok (length_of_skipSpace hclose)
          · rename_i cs hcomma
            have hrest := (length_skipSpace cs).trans (length_of_skipSpace hcomma).le
            exact ((ih depth (skipSpace cs)).2.2.1.mono hrest).map fun _ => rfl
          · exact .error _
        · exact .error _
      · exact .error _
    · unfold parseArray
      split
      · exact .ok (Nat.lt_succ_self _)
      · exact (ih depth t).2.2.2.2.map fun _ => rfl
    · unfold parseItems
      refine (ih depth t).1.bind fun item => ?_
      split
      · rename_i hclose
        exact .ok (length_of_skipSpace hclose)
      · rename_i cs hcomma
        have hrest := (length_skipSpace cs).trans (length_of_skipSpace hcomma).le
        exact ((ih depth (skipSpace cs)).2.2.2.2.mono hrest).map fun _ => rfl
      · exact .error _

/-- With more fuel than the text needs, every function does the same. -/
theorem scan_fuel (fuel : ℕ) : ∀ fuel' depth t,
    (3 * t.length + 1 ≤ fuel → 3 * t.length + 1 ≤ fuel' →
      scanOnce fuel depth t = scanOnce fuel' depth t) ∧
    (3 * t.length + 3 ≤ fuel → 3 * t.length + 3 ≤ fuel' →
      parseObject fuel depth t = parseObject fuel' depth t) ∧
    (3 * t.length + 2 ≤ fuel → 3 * t.length + 2 ≤ fuel' →
      parseMembers fuel depth t = parseMembers fuel' depth t) ∧
    (3 * t.length + 3 ≤ fuel → 3 * t.length + 3 ≤ fuel' →
      parseArray fuel depth t = parseArray fuel' depth t) ∧
    (3 * t.length + 2 ≤ fuel → 3 * t.length + 2 ≤ fuel' →
      parseItems fuel depth t = parseItems fuel' depth t) := by
  induction fuel with
  | zero =>
    intro fuel' depth t
    refine ⟨?_, ?_, ?_, ?_, ?_⟩ <;> intro h <;> omega
  | succ fuel ih =>
    intro fuel' depth t
    cases fuel' with
    | zero => refine ⟨?_, ?_, ?_, ?_, ?_⟩ <;> intro _ h <;> omega
    | succ fuel' =>
      refine ⟨fun h h' => ?_, fun h h' => ?_, fun h h' => ?_, fun h h' => ?_, fun h h' => ?_⟩
      · unfold scanOnce
        split
        · rfl
        · rename_i c cs
          rw [List.length_cons] at h h'
          have hspace := length_skipSpace cs
          split_ifs
          · rfl
          · cases depth with
            | zero => rfl
            | succ depth => exact (ih fuel' depth _).2.1 (by omega) (by omega)
          · cases depth with
            | zero => rfl
            | succ depth => exact (ih fuel' depth _).2.2.2.1 (by omega) (by omega)
          · rfl
      · unfold parseObject
        rw [(ih fuel' depth t).2.2.1 (by omega) (by omega)]
      · unfold parseMembers
        split
        · rename_i cs
          rw [List.length_cons] at h h'
          refine (scanString_consumes cs).bind_congr fun key hkey => ?_
          split
          · rename_i cs hcolon
            have hcs := length_of_skipSpace hcolon
            have hspace := length_skipSpace cs
            rw [(ih fuel' depth (skipSpace cs)).1 (by omega) (by omega)]
            refine (scan_consumes _ _ _).1.bind_congr fun value hvalue => ?_
            split
            · rfl
            · rename_i cs hcomma
              have hcs := length_of_skipSpace hcomma
              have hspace := length_skipSpace cs
              rw [(ih fuel' depth (skipSpace cs)).2.2.1 (by omega) (by omega)]
            · rfl
          · rfl
        · rfl
      · unfold parseArray
        rw [(ih fuel' depth t).2.2.2.2 (by omega) (by omega)]
      · unfold parseItems
        rw [(ih fuel' depth t).1 (by omega) (by omega)]
        refine (scan_consumes _ _ _).1.bind_congr fun item hitem => ?_
        split
        · rfl
        · rename_i cs hcomma
          have hcs := length_of_skipSpace hcomma
          have hspace := length_skipSpace cs
          rw [(ih fuel' depth (skipSpace cs)).2.2.2.2 (by omega) (by omega)]
        · rfl

/-- **Fuel.** What is read does not depend on the fuel, when there is enough of it. -/
theorem scanOnce_fuel {fuel fuel' : ℕ} (depth : ℕ) (h : 3 * t.length + 1 ≤ fuel)
    (h' : 3 * t.length + 1 ≤ fuel') : scanOnce fuel depth t = scanOnce fuel' depth t :=
  (scan_fuel fuel fuel' depth t).1 h h'

end Fuel

end PaymentGateway.Lib.JsonLoads
