import Mathlib
import ApiManifest.Json.Printer
import ApiManifest.Proofs.Lists
import ApiManifest.Yaml.Written

/-!
Numbers that are written digit by digit are read back: decimal ones, and hexadecimal ones of a
fixed width in either case, as escapes hold them.
-/

namespace ApiManifest

theorem int_cases (value : Int) : ∃ n : Nat, (value = n ∧ (toString value).toList = Nat.toDigits 10 n) ∨
    (value = -(n : Int) ∧ (toString value).toList = '-' :: Nat.toDigits 10 n) := by
  cases value with
  | ofNat n =>
    refine ⟨n, .inl ⟨rfl, ?_⟩⟩
    exact Nat.toList_repr
  | negSucc n =>
    refine ⟨n + 1, .inr ⟨rfl, ?_⟩⟩
    have shown : toString (Int.negSucc n) = "-" ++ Nat.repr (n + 1) := rfl
    rw [shown, String.toList_append, Nat.toList_repr]
    rfl

end ApiManifest

namespace ApiManifest.Json

theorem exists_digit_of_mem {base : Nat} (large : 1 < base) {c : Char} {n : Nat}
    (member : c ∈ Nat.toDigits base n) : ∃ d < base, c = Nat.digitChar d := by
  induction n using Nat.strongRecOn with
  | ind n ih =>
    by_cases small : n < base
    · rw [Nat.toDigits_of_lt_base small, List.mem_singleton] at member
      exact ⟨n, small, member⟩
    · have fewer : n / base < n := Nat.div_lt_self (by omega) large
      rw [Nat.toDigits_of_base_le large (by omega), List.mem_append, List.mem_singleton] at member
      rcases member with front | last
      · exact ih _ fewer front
      · exact ⟨n % base, Nat.mod_lt _ (by omega), last⟩

theorem length_hexDigits {width n : Nat} (positive : 0 < width) (fits : n < 16 ^ width) :
    (hexDigits width n).length = width := by
  have short := (Nat.length_toDigits_le_iff (n := n) (show 1 < 16 by decide) positive).2 fits
  simp only [hexDigits, List.length_append, List.length_replicate]
  omega

theorem mem_hexDigits {width n : Nat} {c : Char} (member : c ∈ hexDigits width n) :
    ∃ d < 16, c = Nat.digitChar d := by
  simp only [hexDigits, List.mem_append, List.mem_replicate] at member
  rcases member with ⟨-, rfl⟩ | here
  · exact ⟨0, by decide, rfl⟩
  · exact exists_digit_of_mem (by decide) here

end ApiManifest.Json

namespace ApiManifest.Yaml.Plain

variable {base : Nat}

theorem digitsFrom_append (base value : Nat) (first second : List Char) :
    digitsFrom base value (first ++ second)
      = (digitsFrom base value first).bind (fun read => digitsFrom base read second) := by
  induction first generalizing value with
  | nil => rfl
  | cons c first ih =>
    simp only [List.cons_append, digitsFrom]
    cases digit? c with
    | none => rfl
    | some d =>
      by_cases small : d < base
      · simpa [small] using ih (base * value + d)
      · simp [small]

theorem digitsFrom_toDigits (large : 1 < base) (spell : Char → Char)
    (spelled : ∀ d < base, digit? (spell (Nat.digitChar d)) = some d) (n : Nat) :
    digitsFrom base 0 ((Nat.toDigits base n).map spell) = some n := by
  induction n using Nat.strongRecOn with
  | ind n ih =>
    by_cases small : n < base
    · rw [Nat.toDigits_of_lt_base small]
      simp [digitsFrom, spelled n small, small]
    · have fewer : n / base < n := Nat.div_lt_self (by omega) large
      have last : n % base < base := Nat.mod_lt _ (by omega)
      rw [Nat.toDigits_of_base_le large (by omega), List.map_append, digitsFrom_append,
        ih _ fewer]
      simp [digitsFrom, spelled _ last, last, Nat.div_add_mod]

theorem digits?_toDigits (large : 1 < base) (spell : Char → Char)
    (spelled : ∀ d < base, digit? (spell (Nat.digitChar d)) = some d) (n : Nat) :
    digits? base ((Nat.toDigits base n).map spell) = some n := by
  have read := digitsFrom_toDigits large spell spelled n
  obtain ⟨c, rest, digits⟩ := List.exists_cons_of_ne_nil (l := (Nat.toDigits base n).map spell)
    (by simp [Nat.toDigits_ne_nil])
  rw [digits] at read ⊢
  exact read

theorem digitsFrom_zeros {zero : Char} (read : digit? zero = some 0) (positive : 0 < base)
    (count : Nat) (digits : List Char) :
    digitsFrom base 0 (List.replicate count zero ++ digits) = digitsFrom base 0 digits := by
  induction count with
  | zero => rfl
  | succ count ih => simpa [List.replicate_succ, digitsFrom, read, positive] using ih

theorem digits?_hexDigits (spell : Char → Char)
    (spelled : ∀ d < 16, digit? (spell (Nat.digitChar d)) = some d) (width n : Nat) :
    digits? 16 ((Json.hexDigits width n).map spell) = some n := by
  have zero : digit? (spell '0') = some 0 := spelled 0 (by decide)
  have read := digitsFrom_toDigits (by decide) spell spelled n
  rw [← digitsFrom_zeros zero (by decide) (width - (Nat.toDigits 16 n).length),
    ← List.map_replicate, ← List.map_append] at read
  obtain ⟨c, rest, digits⟩ := List.exists_cons_of_ne_nil
    (l := (Json.hexDigits width n).map spell) (by simp [Json.hexDigits, Nat.toDigits_ne_nil])
  rw [digits]
  exact (congrArg (digitsFrom 16 0) digits).symm.trans read

theorem digits?_decimal (n : Nat) : digits? 10 (Nat.toDigits 10 n) = some n := by
  have read := @digits?_toDigits 10 (by decide) id (by decide) n
  rwa [List.map_id] at read

/-- A number that is not zero is not written with a leading zero. -/
theorem head_toDigits {n : Nat} (positive : 0 < n) : (Nat.toDigits 10 n).head? ≠ some '0' := by
  induction n using Nat.strongRecOn with
  | ind n ih =>
    rcases Nat.lt_or_ge n 10 with small | large
    · have digits : ∀ d < 10, 0 < d → Nat.digitChar d ≠ '0' := by decide
      rw [Nat.toDigits_of_lt_base small]
      simpa using digits n small positive
    · have front := ih (n / 10) (by omega) (by omega)
      rw [Nat.toDigits_of_base_le (by decide) large,
        List.head?_append]
      obtain ⟨c, digits, same⟩ := List.exists_cons_of_ne_nil
        (Nat.toDigits_ne_nil (b := 10) (n := n / 10))
      rw [same] at front ⊢
      exact front

section Decimal

theorem le_iff_toNat_le (low high : Char) : low ≤ high ↔ low.toNat ≤ high.toNat := by
  rw [Char.le_def, UInt32.le_iff_toNat_le]
  rfl

theorem isDigit_iff (c : Char) : c.isDigit ↔ 48 ≤ c.toNat ∧ c.toNat ≤ 57 := by
  simp only [Char.isDigit, ge_iff_le, UInt32.le_iff_toNat_le, Bool.and_eq_true, decide_eq_true_eq]
  rfl

theorem digit?_of_isDigit {c : Char} (digit : c.isDigit) :
    digit? c = some (c.toNat - 48) ∧ c.toNat - 48 < 10 := by
  have bounds := (isDigit_iff c).1 digit
  refine ⟨?_, by omega⟩
  simp only [digit?, le_iff_toNat_le]
  exact if_pos bounds

theorem digitsFrom_decimal {digits : List Char} (decimal : ∀ c ∈ digits, c.isDigit)
    (value : Nat) : ∃ n, digitsFrom 10 value digits = some n := by
  induction digits generalizing value with
  | nil => exact ⟨value, rfl⟩
  | cons c digits ih =>
    obtain ⟨found, small⟩ := digit?_of_isDigit (decimal c (by simp))
    obtain ⟨n, later⟩ := ih (fun d member => decimal d (by simp [member]))
      (10 * value + (c.toNat - 48))
    exact ⟨n, by rw [digitsFrom, found]; simpa [small] using later⟩

theorem digits?_eq_getD {digits : List Char} (nonempty : digits ≠ [])
    (decimal : ∀ c ∈ digits, c.isDigit) :
    digits? 10 digits = some ((digits? 10 digits).getD 0) := by
  obtain ⟨c, digits, rfl⟩ := List.exists_cons_of_ne_nil nonempty
  obtain ⟨n, read⟩ := digitsFrom_decimal decimal 0
  have whole : digits? 10 (c :: digits) = some n := read
  rw [whole, Option.getD_some]

/-- A character that is no decimal digit ends what may be read. -/
theorem digitsFrom_stop {c : Char} (other : digit? c = none ∨ ∃ d, digit? c = some d ∧ 10 ≤ d)
    (digits rest : List Char) (value : Nat) : digitsFrom 10 value (digits ++ c :: rest) = none := by
  rw [digitsFrom_append]
  cases digitsFrom 10 value digits with
  | none => rfl
  | some read =>
    rcases other with none_ | ⟨d, found, large⟩
    · simp [digitsFrom, none_]
    · simp [digitsFrom, found, large]

end Decimal

end ApiManifest.Yaml.Plain

namespace ApiManifest.Yaml.Written

theorem length_upperHex {width n : Nat} (positive : 0 < width) (fits : n < 16 ^ width) :
    (upperHex width n).length = width := by
  rw [upperHex, List.length_map, Json.length_hexDigits positive fits]

theorem digits?_upperHex (width n : Nat) : Plain.digits? 16 (upperHex width n) = some n :=
  Plain.digits?_hexDigits Char.toUpper (by decide) width n

theorem mem_upperHex {width n : Nat} {c : Char} (member : c ∈ upperHex width n) :
    ∃ d < 16, c = (Nat.digitChar d).toUpper := by
  obtain ⟨digit, here, rfl⟩ := List.mem_map.1 member
  obtain ⟨d, small, rfl⟩ := Json.mem_hexDigits here
  exact ⟨d, small, rfl⟩

end ApiManifest.Yaml.Written
