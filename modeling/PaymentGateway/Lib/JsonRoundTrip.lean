import PaymentGateway.Lib.Json
import PaymentGateway.Lib.JsonLoads

/-! # Reading back a JSON text

`loads` of what `dumps` wrote gives the value back (`loadsText_dumps`), with separators that are a
comma or a colon and white space, and with non-ASCII characters escaped or not.

An escaped character is one or two code units. A character of a string is no surrogate, so that
only the two units of one character are joined (`reads_escapeChar`). -/

namespace PaymentGateway.Lib.JsonRoundTrip

open PaymentGateway.Lib.Numerals PaymentGateway.Lib.Encodings PaymentGateway.Lib.Json
open PaymentGateway.Lib.JsonLoads

variable {style : Style} {c : Char} {t : Text}

/-! ### Texts -/

@[simp] theorem text_append (s s' : String) : text (s ++ s') = text s ++ text s' := by
  unfold text
  rw [String.toList_append, List.map_append]

@[simp] theorem text_singleton (c : Char) : text (String.singleton c) = [c.toNat] := by
  unfold text
  rw [String.toList_singleton]
  rfl

theorem text_join (ss : List String) : text (String.join ss) = ss.flatMap text := by
  induction ss with
  | nil => rfl
  | cons s ss ih => rw [String.join_cons, text_append, ih, List.flatMap_cons]

/-! ### Escapes -/

theorem hexDigit_digitChar : ∀ d < 16, hexDigit (Nat.digitChar d).toNat = some d := by decide

/-- The code unit of an escape is read back. -/
theorem scanPieces_escapeUnit {u : ℕ} (h : u < 0x10000) (t : Text) :
    scanPieces (text (escapeUnit u) ++ t) =
      (scanPieces t).map fun r => (.unit u :: r.1, r.2) := by
  have htext : text (escapeUnit u) = 0x5C :: 0x75 ::
      [u / 0x1000 % 16, u / 0x100 % 16, u / 0x10 % 16, u % 16].map
        fun d => (Nat.digitChar d).toNat := by
    unfold escapeUnit
    rw [text_append]
    unfold text
    rw [String.toList_ofList]
    simp [List.range_succ]
  have hunit : hexUnit (Nat.digitChar (u / 0x1000 % 16)).toNat
      (Nat.digitChar (u / 0x100 % 16)).toNat (Nat.digitChar (u / 0x10 % 16)).toNat
      (Nat.digitChar (u % 16)).toNat = some u := by
    unfold hexUnit
    rw [hexDigit_digitChar _ (by omega), hexDigit_digitChar _ (by omega),
      hexDigit_digitChar _ (by omega), hexDigit_digitChar _ (by omega)]
    change some _ = some u
    congr 1
    omega
  rw [htext]
  simp only [List.map_cons, List.map_nil, List.cons_append, List.nil_append]
  rw [scanPieces, hunit]
  rfl

/-- Within a string, the text is read as one character. -/
def Reads (t : Text) (n : ℕ) : Prop := ∃ ps : List Piece,
  (∀ u, scanPieces (t ++ u) = (scanPieces u).map fun r => (ps ++ r.1, r.2)) ∧
    ∀ qs, joinPieces (ps ++ qs) = n :: joinPieces qs

theorem reads_short {s : String} {n : ℕ} (e : ℕ) (hs : text s = [0x5C, e])
    (h : shortEscape e = some n) (he : e ≠ 0x75) : Reads (text s) n := by
  refine ⟨[.char n], fun u => ?_, fun _ => rfl⟩
  rw [hs]
  change scanPieces (0x5C :: e :: u) = _
  rw [scanPieces.eq_def]
  dsimp only
  rw [if_neg (by decide), if_pos rfl, if_neg he, h]
  rfl

theorem reads_raw {n : ℕ} (hquote : n ≠ 0x22) (hslash : n ≠ 0x5C) (hcontrol : ¬n < 0x20) :
    Reads [n] n := by
  refine ⟨[.char n], fun u => ?_, fun _ => rfl⟩
  change scanPieces (n :: u) = _
  rw [scanPieces.eq_def]
  dsimp only
  rw [if_neg hquote, if_neg hslash, if_neg hcontrol]
  rfl

theorem reads_unit {u : ℕ} (h : u < 0x10000) (hhigh : ¬IsHigh u) :
    Reads (text (escapeUnit u)) u := by
  refine ⟨[.unit u], scanPieces_escapeUnit h, fun qs => ?_⟩
  change joinPieces (.unit u :: qs) = _
  match qs with
  | [] => rfl
  | .char c :: qs => rfl
  | .unit v :: qs => rw [joinPieces, if_neg fun hpair => hhigh hpair.1]

theorem reads_pair {u v : ℕ} (hu : IsHigh u) (hv : IsLow v) :
    Reads (text (escapeUnit u ++ escapeUnit v)) (joinSurrogates u v) := by
  refine ⟨[.unit u, .unit v], fun w => ?_, fun qs => ?_⟩
  · unfold IsHigh at hu
    unfold IsLow at hv
    rw [text_append, List.append_assoc, scanPieces_escapeUnit (by omega),
      scanPieces_escapeUnit (by omega)]
    cases scanPieces w <;> rfl
  · change joinPieces (.unit u :: .unit v :: qs) = _
    rw [joinPieces, if_pos ⟨hu, hv⟩]

theorem toNat_valid (c : Char) : c.toNat < 0xD800 ∨ (0xDFFF < c.toNat ∧ c.toNat < 0x110000) :=
  c.valid

/-- **A character** is read back. -/
theorem reads_escapeChar (ensureAscii : Bool) (c : Char) :
    Reads (text (escapeChar ensureAscii c)) c.toNat := by
  have hvalid := toNat_valid c
  have hhigh : ¬IsHigh c.toNat := by
    unfold IsHigh
    omega
  unfold escapeChar
  split_ifs with h₁ h₂ h₃ h₄ h₅ h₆ h₇ hcontrol hascii hplane
  · exact h₁ ▸ reads_short 0x22 (by decide +kernel) rfl (by decide)
  · exact h₂ ▸ reads_short 0x5C (by decide +kernel) rfl (by decide)
  · exact h₃ ▸ reads_short 0x6E (by decide +kernel) rfl (by decide)
  · exact h₄ ▸ reads_short 0x72 (by decide +kernel) rfl (by decide)
  · exact h₅ ▸ reads_short 0x74 (by decide +kernel) rfl (by decide)
  · exact h₆ ▸ reads_short 0x62 (by decide +kernel) rfl (by decide)
  · exact h₇ ▸ reads_short 0x66 (by decide +kernel) rfl (by decide)
  · exact reads_unit (by omega) hhigh
  · exact reads_unit hplane hhigh
  · have hjoin : joinSurrogates (0xD800 + (c.toNat - 0x10000) / 0x400)
        (0xDC00 + (c.toNat - 0x10000) % 0x400) = c.toNat := by
      unfold joinSurrogates
      omega
    have hpair := reads_pair (u := 0xD800 + (c.toNat - 0x10000) / 0x400)
      (v := 0xDC00 + (c.toNat - 0x10000) % 0x400) (by unfold IsHigh; omega) (by unfold IsLow; omega)
    rwa [hjoin] at hpair
  · rw [text_singleton]
    exact reads_raw h₁ h₂ hcontrol

/-! ### Strings -/

theorem scanPieces_escaped (ensureAscii : Bool) (cs : List Char) (t : Text) : ∃ ps,
    scanPieces (cs.flatMap (fun c => text (escapeChar ensureAscii c)) ++ 0x22 :: t) = .ok (ps, t) ∧
      joinPieces ps = cs.map Char.toNat := by
  induction cs with
  | nil =>
    refine ⟨[], ?_, rfl⟩
    rw [List.flatMap_nil, List.nil_append, scanPieces.eq_def]
    exact if_pos rfl
  | cons c cs ih =>
    obtain ⟨ps, hscan, hjoin⟩ := ih
    obtain ⟨qs, hread, hchar⟩ := reads_escapeChar ensureAscii c
    refine ⟨qs ++ ps, ?_, ?_⟩
    · rw [List.flatMap_cons, List.append_assoc, hread, hscan]
      rfl
    · rw [hchar, hjoin, List.map_cons]

/-- **A string** is read back. -/
theorem scanString_quote (ensureAscii : Bool) (s : String) : ∃ cs,
    text (quote ensureAscii s) = 0x22 :: cs ∧ ∀ t, scanString (cs ++ t) = .ok (text s, t) := by
  have hmark : text "\"" = [0x22] := by decide +kernel
  refine ⟨s.toList.flatMap (fun c => text (escapeChar ensureAscii c)) ++ [0x22], ?_, fun t => ?_⟩
  · unfold quote
    rw [text_append, text_append, hmark, text_join, List.flatMap_map]
    rfl
  · obtain ⟨ps, hscan, hjoin⟩ := scanPieces_escaped ensureAscii s.toList t
    unfold scanString
    rw [List.append_assoc, List.singleton_append, hscan]
    change Except.ok (joinPieces ps, t) = _
    rw [hjoin]
    rfl

/-! ### Values -/

/-- The separators of JSON, and white space. -/
structure Separates (style : Style) : Prop where
  item : ∃ ws, text style.itemSeparator = 0x2C :: ws ∧ ∀ c ∈ ws, isJsonSpace c = true
  key : ∃ ws, text style.keySeparator = 0x3A :: ws ∧ ∀ c ∈ ws, isJsonSpace c = true

theorem separates_default : Separates .default where
  item := ⟨[0x20], by decide +kernel, by decide⟩
  key := ⟨[0x20], by decide +kernel, by decide⟩

mutual

/-- The value, as it is read. -/
def read : Value → Json
  | .null => .null
  | .str s => .str (text s)
  | .obj members => .obj (readMembers members)

def readMembers : List (String × Value) → List (Text × Json)
  | [] => []
  | (k, v) :: ms => (text k, read v) :: readMembers ms

end

mutual

/-- How deep objects are nested. -/
def nesting : Value → ℕ
  | .null | .str _ => 0
  | .obj members => nestingMembers members + 1

def nestingMembers : List (String × Value) → ℕ
  | [] => 0
  | (_, v) :: ms => max (nesting v) (nestingMembers ms)

end

theorem skipSpace_append {ws : Text} (h : ∀ c ∈ ws, isJsonSpace c = true) (t : Text) :
    skipSpace (ws ++ t) = skipSpace t := List.dropWhile_append_of_pos h

theorem skipSpace_cons {n : ℕ} (h : isJsonSpace n = false) (t : Text) :
    skipSpace (n :: t) = n :: t := by
  unfold skipSpace
  rw [List.dropWhile_cons_of_neg (by rw [h]; decide)]

/-- A value begins with no white space, and not with a byte order mark. -/
theorem dumps_begins (style : Style) (v : Value) : ∃ n cs, text (dumps style v) = n :: cs ∧
    isJsonSpace n = false ∧ n ≠ 0xFEFF := by
  cases v with
  | null => exact ⟨0x6E, [0x75, 0x6C, 0x6C], by rw [dumps]; decide +kernel, by decide, by decide⟩
  | str s =>
    obtain ⟨cs, hcs, -⟩ := scanString_quote style.ensureAscii s
    exact ⟨0x22, cs, hcs, by decide, by decide⟩
  | obj members =>
    refine ⟨0x7B, text (dumpsMembers style members) ++ [0x7D], ?_, by decide, by decide⟩
    rw [dumps, text_append, text_append]
    rfl

theorem skipSpace_dumps (style : Style) (v : Value) (t : Text) :
    skipSpace (text (dumps style v) ++ t) = text (dumps style v) ++ t := by
  obtain ⟨n, cs, hcs, hspace, -⟩ := dumps_begins style v
  rw [hcs, List.cons_append, skipSpace_cons hspace]

theorem scanOnce_null (fuel depth : ℕ) (t : Text) :
    scanOnce (fuel + 1) depth (text (dumps style .null) ++ t) = .ok (.null, t) := by
  have hnull : text (dumps style .null) = text "null" := by rw [dumps]
  have hconstant : scanConstant (text "null" ++ t) = some (.null, t) := by
    have hprefix : (text "null").isPrefixOf (text "null" ++ t) = true :=
      List.isPrefixOf_iff_prefix.mpr (List.prefix_append _ _)
    have hfind : constants.find? (fun w => w.1.isPrefixOf (text "null" ++ t)) =
        some (text "null", .null) := by
      unfold constants
      exact List.find?_cons_of_pos hprefix
    unfold scanConstant
    rw [hfind]
    change some (Json.null, (text "null" ++ t).drop (text "null").length) = _
    rw [List.drop_left]
  have hcons : text "null" ++ t = 0x6E :: 0x75 :: 0x6C :: 0x6C :: t := by
    have h : text "null" = [0x6E, 0x75, 0x6C, 0x6C] := by decide +kernel
    rw [h]
    rfl
  rw [hnull]
  rw [hcons] at hconstant ⊢
  unfold scanOnce
  dsimp only
  rw [if_neg (by decide), if_neg (by decide), if_neg (by decide), hconstant]

theorem scanOnce_str (fuel depth : ℕ) (s : String) (t : Text) :
    scanOnce (fuel + 1) depth (text (dumps style (.str s)) ++ t) = .ok (.str (text s), t) := by
  obtain ⟨cs, hcs, hscan⟩ := scanString_quote style.ensureAscii s
  rw [dumps, hcs, List.cons_append]
  unfold scanOnce
  dsimp only
  rw [if_pos rfl, hscan]
  rfl

theorem scanOnce_obj (fuel depth : ℕ) (ms : List (String × Value)) (t : Text) :
    scanOnce (fuel + 1) (depth + 1) (text (dumps style (.obj ms)) ++ t) =
      parseObject fuel depth (skipSpace (text (dumpsMembers style ms) ++ 0x7D :: t)) := by
  have htext : text (dumps style (.obj ms)) ++ t =
      0x7B :: (text (dumpsMembers style ms) ++ 0x7D :: t) := by
    have hopen : text "\x7b" = [0x7B] := by decide +kernel
    have hclose : text "\x7d" = [0x7D] := by decide +kernel
    rw [dumps, text_append, text_append, hopen, hclose]
    simp only [List.append_assoc, List.cons_append, List.nil_append]
  rw [htext, scanOnce.eq_def]
  dsimp only
  rw [if_neg (by decide), if_pos rfl]

/-- A member is read, and then what follows it. -/
theorem parseMembers_member (hstyle : Separates style) {fuel depth : ℕ} {v : Value}
    (hv : ∀ t, scanOnce fuel depth (text (dumps style v) ++ t) = .ok (read v, t)) (k : String)
    (t : Text) :
    parseMembers (fuel + 1) depth
        (text (quote style.ensureAscii k ++ style.keySeparator ++ dumps style v) ++ t) =
      match skipSpace t with
      | 0x7D :: cs => .ok ([(text k, read v)], cs)
      | 0x2C :: cs =>
        (parseMembers fuel depth (skipSpace cs)).map fun rest =>
          ((text k, read v) :: rest.1, rest.2)
      | _ => .error .jsonDecode := by
  obtain ⟨cs, hcs, hscan⟩ := scanString_quote style.ensureAscii k
  obtain ⟨ws, hws, hspace⟩ := hstyle.key
  have htext : text (quote style.ensureAscii k ++ style.keySeparator ++ dumps style v) ++ t =
      0x22 :: (cs ++ (0x3A :: (ws ++ (text (dumps style v) ++ t)))) := by
    rw [text_append, text_append, hcs, hws]
    simp only [List.cons_append, List.append_assoc]
  have hcolon : skipSpace (0x3A :: (ws ++ (text (dumps style v) ++ t))) =
      0x3A :: (ws ++ (text (dumps style v) ++ t)) := skipSpace_cons (by decide) _
  rw [htext, parseMembers, hscan, Except.bind]
  simp only [hcolon]
  rw [skipSpace_append hspace, skipSpace_dumps, hv]
  rfl

theorem dumpsMembers_cons (style : Style) (k : String) (v : Value) (m : String × Value)
    (ms : List (String × Value)) : dumpsMembers style ((k, v) :: m :: ms) =
      quote style.ensureAscii k ++ style.keySeparator ++ dumps style v ++ style.itemSeparator ++
        dumpsMembers style (m :: ms) := by rw [dumpsMembers]

/-- The members begin with a quote. -/
theorem dumpsMembers_begins (style : Style) (m : String × Value) (ms : List (String × Value)) :
    ∃ cs, text (dumpsMembers style (m :: ms)) = 0x22 :: cs := by
  obtain ⟨k, v⟩ := m
  obtain ⟨cs, hcs, -⟩ := scanString_quote style.ensureAscii k
  cases ms with
  | nil => exact ⟨_, by rw [dumpsMembers, text_append, text_append, hcs]; rfl⟩
  | cons m ms =>
    exact ⟨_, by
      rw [dumpsMembers_cons, text_append, text_append, text_append, text_append, hcs]; rfl⟩

mutual

/-- With enough fuel, a value is read back. -/
theorem scanOnce_dumps (hstyle : Separates style) (v : Value) : ∃ n, ∀ fuel, n ≤ fuel →
    ∀ depth, nesting v ≤ depth → ∀ t,
      scanOnce fuel depth (text (dumps style v) ++ t) = .ok (read v, t) := by
  match v with
  | .null =>
    refine ⟨1, fun fuel hfuel depth _ t => ?_⟩
    obtain ⟨fuel, rfl⟩ := Nat.exists_eq_add_of_le' hfuel
    rw [scanOnce_null, read]
  | .str s =>
    refine ⟨1, fun fuel hfuel depth _ t => ?_⟩
    obtain ⟨fuel, rfl⟩ := Nat.exists_eq_add_of_le' hfuel
    rw [scanOnce_str, read]
  | .obj [] =>
    refine ⟨2, fun fuel hfuel depth hdepth t => ?_⟩
    obtain ⟨fuel, rfl⟩ := Nat.exists_eq_add_of_le' hfuel
    obtain ⟨depth, rfl⟩ := Nat.exists_eq_add_of_le' hdepth
    refine (scanOnce_obj (fuel + 1) (depth + nestingMembers []) [] t).trans ?_
    have hnil : text (dumpsMembers style []) = [] := by rw [dumpsMembers]; rfl
    rw [hnil, List.nil_append, skipSpace_cons (by decide), read, readMembers, parseObject]
  | .obj (m :: ms) =>
    obtain ⟨n, hn⟩ := parseMembers_dumps hstyle (m :: ms) (List.cons_ne_nil m ms)
    refine ⟨n + 2, fun fuel hfuel depth hdepth t => ?_⟩
    obtain ⟨fuel, rfl⟩ := Nat.exists_eq_add_of_le' hfuel
    obtain ⟨depth, rfl⟩ := Nat.exists_eq_add_of_le' hdepth
    have hmembers := hn (fuel + n) (Nat.le_add_left n fuel) (depth + nestingMembers (m :: ms))
      (Nat.le_add_left _ _) t
    obtain ⟨cs, hcs⟩ := dumpsMembers_begins style m ms
    refine (scanOnce_obj (fuel + n + 1) (depth + nestingMembers (m :: ms)) (m :: ms) t).trans ?_
    rw [hcs, List.cons_append] at hmembers ⊢
    rw [skipSpace_cons (by decide), parseObject.eq_def]
    change ((parseMembers (fuel + n) _ (0x22 :: (cs ++ 0x7D :: t))).map
      fun r => (Json.obj r.1, r.2)) = _
    rw [hmembers]
    rfl

/-- With enough fuel, members are read back. -/
theorem parseMembers_dumps (hstyle : Separates style) (ms : List (String × Value)) (hne : ms ≠ []) :
    ∃ n, ∀ fuel, n ≤ fuel → ∀ depth, nestingMembers ms ≤ depth → ∀ t,
      parseMembers fuel depth (text (dumpsMembers style ms) ++ 0x7D :: t) =
        .ok (readMembers ms, t) := by
  match ms with
  | [] => exact absurd rfl hne
  | [(k, v)] =>
    obtain ⟨n, hn⟩ := scanOnce_dumps hstyle v
    refine ⟨n + 1, fun fuel hfuel depth hdepth t => ?_⟩
    obtain ⟨fuel, rfl⟩ := Nat.exists_eq_add_of_le' hfuel
    have hvalue := hn (fuel + n) (Nat.le_add_left n fuel) depth ((le_max_left _ _).trans hdepth)
    rw [dumpsMembers]
    refine (parseMembers_member hstyle hvalue k (0x7D :: t)).trans ?_
    rw [skipSpace_cons (by decide)]
    rfl
  | (k, v) :: m :: ms =>
    obtain ⟨n, hn⟩ := scanOnce_dumps hstyle v
    obtain ⟨n', hn'⟩ := parseMembers_dumps hstyle (m :: ms) (List.cons_ne_nil m ms)
    obtain ⟨ws, hws, hspace⟩ := hstyle.item
    obtain ⟨cs, hcs⟩ := dumpsMembers_begins style m ms
    refine ⟨max n n' + 1, fun fuel hfuel depth hdepth t => ?_⟩
    obtain ⟨fuel, rfl⟩ := Nat.exists_eq_add_of_le' hfuel
    have hvalue := hn (fuel + max n n') (by omega) depth ((le_max_left _ _).trans hdepth)
    have hrest := hn' (fuel + max n n') (by omega) depth ((le_max_right _ _).trans hdepth) t
    rw [dumpsMembers_cons, text_append, text_append _ style.itemSeparator, hws, List.append_assoc,
      List.append_assoc, List.cons_append]
    refine (parseMembers_member hstyle hvalue k _).trans ?_
    rw [skipSpace_cons (by decide)]
    rw [hcs, List.cons_append] at hrest ⊢
    change ((parseMembers _ _ (skipSpace (ws ++ 0x22 :: (cs ++ 0x7D :: t)))).map _) = _
    rw [skipSpace_append hspace, skipSpace_cons (by decide), hrest]
    rfl

end

/-- **The round trip.** A text that `dumps` wrote is read as the value, if it is not nested too
deep. -/
theorem loadsText_dumps (hstyle : Separates style) {depth : ℕ} {v : Value} (h : nesting v ≤ depth) :
    loadsText depth (text (dumps style v)) = .ok (read v) := by
  obtain ⟨n, hn⟩ := scanOnce_dumps hstyle v
  obtain ⟨c, cs, hcs, hspace, hmark⟩ := dumps_begins style v
  have hscan := hn (max n (3 * (text (dumps style v)).length + 1)) (le_max_left _ _) depth h []
  rw [List.append_nil] at hscan
  rw [scanOnce_fuel depth (le_max_right _ _) le_rfl] at hscan
  have hskip := skipSpace_dumps style v []
  rw [List.append_nil] at hskip
  have hhead : (text (dumps style v)).head? ≠ some 0xFEFF := by
    rw [hcs]
    exact fun he => hmark (Option.some.inj he)
  unfold loadsText decode
  rw [if_neg hhead, hskip, hscan]
  rfl

end PaymentGateway.Lib.JsonRoundTrip
