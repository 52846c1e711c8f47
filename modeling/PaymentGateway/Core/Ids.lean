import Mathlib.Data.String.Basic
import Mathlib.Tactic.IntervalCases

/-! # Generated ids

Primary keys are random UUIDs, public ids and provider references are `new_id`s: a prefix and a
random URL-safe token. The random part is an argument of every operation that draws one. -/

namespace PaymentGateway.Core.Ids

/-- A UUID: a number of 128 bits. -/
@[ext]
structure UUID where
  int : ℕ
  lt : int < 2 ^ 128
  deriving DecidableEq

/-- The lower-case hexadecimal digit of a number below 16. -/
def hexDigit (n : ℕ) : Char := if n < 10 then Char.ofNat (48 + n) else Char.ofNat (87 + n)

/-- The 32 hexadecimal digits of a UUID, the most significant first. -/
def UUID.hex (u : UUID) : List Char :=
  (List.range 32).map fun i => hexDigit (u.int / 16 ^ (31 - i) % 16)

/-- `str(u)`: the digits in groups of 8, 4, 4, 4 and 12. -/
def UUID.str (u : UUID) : String :=
  String.ofList (u.hex.take 8 ++ '-' :: (u.hex.drop 8).take 4 ++ '-' :: (u.hex.drop 12).take 4 ++
    '-' :: (u.hex.drop 16).take 4 ++ '-' :: u.hex.drop 20)

/-- `new_id(prefix, nbytes)`, given the token `secrets.token_urlsafe(nbytes)`. -/
def newId (pre token : String) : String := pre ++ "_" ++ token

theorem hexDigit_ne_at {n : ℕ} (h : n < 16) : hexDigit n ≠ '@' := by
  interval_cases n <;> decide

theorem hexDigit_ne_dash {n : ℕ} (h : n < 16) : hexDigit n ≠ '-' := by
  interval_cases n <;> decide

theorem UUID.mem_hex {u : UUID} {c : Char} (h : c ∈ u.hex) : c ≠ '@' := by
  obtain ⟨i, -, rfl⟩ := List.mem_map.mp h
  exact hexDigit_ne_at (Nat.mod_lt _ (by norm_num))

/-- A UUID prints without `@`. -/
theorem UUID.at_notMem_str (u : UUID) : '@' ∉ u.str.toList := by
  intro h
  simp only [UUID.str, String.toList_ofList, List.mem_append, List.mem_cons] at h
  have hx : ∀ l : List Char, (∀ c ∈ l, c ∈ u.hex) → '@' ∉ l := fun l hl hm =>
    UUID.mem_hex (hl _ hm) rfl
  rcases h with (((h | h | h) | h | h) | h | h) | h | h
  · exact hx _ (fun _ => List.mem_of_mem_take) h
  · exact absurd h (by decide)
  · exact hx _ (fun _ hc => List.mem_of_mem_drop (List.mem_of_mem_take hc)) h
  · exact absurd h (by decide)
  · exact hx _ (fun _ hc => List.mem_of_mem_drop (List.mem_of_mem_take hc)) h
  · exact absurd h (by decide)
  · exact hx _ (fun _ hc => List.mem_of_mem_drop (List.mem_of_mem_take hc)) h
  · exact absurd h (by decide)
  · exact hx _ (fun _ hc => List.mem_of_mem_drop hc) h

@[simp] theorem UUID.length_hex (u : UUID) : u.hex.length = 32 := by simp [UUID.hex]

@[simp] theorem UUID.length_str (u : UUID) : u.str.length = 36 := by
  simp [UUID.str, ← String.length_toList]

theorem hexDigit_inj : ∀ m < 16, ∀ n < 16, hexDigit m = hexDigit n → m = n := by decide

/-- The digits determine the number. -/
theorem UUID.hex_inj {u v : UUID} (h : u.hex = v.hex) : u = v := by
  have hdigit : ∀ k < 32, u.int / 16 ^ k % 16 = v.int / 16 ^ k % 16 := by
    intro k hk
    have h := List.map_inj_left.mp h (31 - k) (List.mem_range.mpr (by omega))
    rw [show 31 - (31 - k) = k by omega] at h
    exact hexDigit_inj _ (Nat.mod_lt _ (by norm_num)) _ (Nat.mod_lt _ (by norm_num)) h
  have hmod : ∀ k ≤ 32, u.int % 16 ^ k = v.int % 16 ^ k := by
    intro k hk
    induction k with
    | zero => simp [Nat.mod_one]
    | succ k ih => rw [Nat.mod_pow_succ, Nat.mod_pow_succ, ih (by omega), hdigit k (by omega)]
  have hall := hmod 32 le_rfl
  rw [show (16 : ℕ) ^ 32 = 2 ^ 128 by norm_num, Nat.mod_eq_of_lt u.lt, Nat.mod_eq_of_lt v.lt] at hall
  exact UUID.ext hall

/-- The groups are the digits without the dashes. -/
theorem UUID.filter_str (u : UUID) : u.str.toList.filter (· ≠ '-') = u.hex := by
  have hno : ∀ l : List Char, (∀ c ∈ l, c ∈ u.hex) → l.filter (· ≠ '-') = l := by
    intro l hl
    refine List.filter_eq_self.mpr fun c hc => decide_eq_true ?_
    obtain ⟨i, -, rfl⟩ := List.mem_map.mp (hl c hc)
    exact hexDigit_ne_dash (Nat.mod_lt _ (by norm_num))
  have hdash : ∀ l : List Char, ('-' :: l).filter (· ≠ '-') = l.filter (· ≠ '-') := fun l =>
    List.filter_cons_of_neg (by simp)
  simp only [UUID.str, String.toList_ofList, List.filter_append, hdash]
  rw [hno _ fun c hc => List.mem_of_mem_take hc,
    hno _ fun c hc => List.mem_of_mem_drop (List.mem_of_mem_take hc),
    hno _ fun c hc => List.mem_of_mem_drop (List.mem_of_mem_take hc),
    hno _ fun c hc => List.mem_of_mem_drop (List.mem_of_mem_take hc),
    hno _ fun c hc => List.mem_of_mem_drop hc]
  rw [← List.take_add, ← List.take_add, ← List.take_add, List.take_append_drop]

/-- A UUID is determined by its text. -/
theorem UUID.str_inj {u v : UUID} (h : u.str = v.str) : u = v :=
  UUID.hex_inj (by rw [← u.filter_str, h, v.filter_str])

/-- A new id is determined by its token. -/
theorem newId_inj {pre token token' : String} (h : newId pre token = newId pre token') :
    token = token' := by
  have h := congrArg String.toList h
  simp only [newId, String.toList_append] at h
  exact String.toList_inj.mp (List.append_cancel_left h)

end PaymentGateway.Core.Ids
