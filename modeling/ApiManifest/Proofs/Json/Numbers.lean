import ApiManifest.Codec.Datum
import ApiManifest.Proofs.Json.Syntax

/-!
What a JSON number is where it is read as an unquoted YAML scalar: a whole number of 64 bits and a
finite double are read as themselves.
-/

namespace ApiManifest.JsonSyntax

open Yaml (Plain)
open Yaml.Plain (digits?)

def isTailMark (c : Char) : Prop :=
  c = '.' ∨ c = 'e' ∨ c = 'E'

theorem notDigit_of_isTailMark {c : Char} (mark : isTailMark c) : c.isDigit = false := by
  rcases mark with rfl | rfl | rfl <;> decide

theorem noSign_of_isDigit {c : Char} (digit : c.isDigit) : c ≠ '-' ∧ c ≠ '+' := by
  constructor <;> rintro rfl <;> revert digit <;> decide

namespace Exponent

theorem exponent?_chars (exponent : Exponent) :
    Plain.exponent? exponent.chars = some exponent.value := by
  obtain ⟨n, read⟩ : ∃ n, digits? 10 exponent.digits.chars = some n :=
    ⟨_, Plain.digits?_eq_getD exponent.digits.nonempty exponent.digits.decimal⟩
  have marked := exponent.marked
  obtain ⟨c, digits, first⟩ := List.exists_cons_of_ne_nil exponent.digits.nonempty
  have noSign := noSign_of_isDigit (exponent.digits.decimal c (by simp [first]))
  rw [first] at read
  unfold chars value
  rw [first]
  cases sign : exponent.sign with
  | none => simp [Plain.exponent?, signed, marked, noSign, read]
  | some negative => cases negative <;> simp [Plain.exponent?, signed, marked, read]

end Exponent

namespace Numeral

variable (numeral : Numeral)

theorem exponentChars_mark : ∀ c ∈ numeral.exponentChars.head?, c = 'e' ∨ c = 'E' := by
  intro c head
  unfold exponentChars at head
  split at head
  · next exponent _ =>
    cases head
    exact exponent.marked
  · cases head

theorem tail_mark : ∀ c ∈ numeral.tail.head?, isTailMark c := by
  intro c head
  unfold tail fractionChars at head
  split at head
  · cases head
    exact .inl rfl
  · exact .inr (numeral.exponentChars_mark c head)

theorem tail_eq_nil_iff : numeral.tail = [] ↔ numeral.isWhole := by
  unfold isWhole
  rw [tail, fractionChars, exponentChars]
  cases numeral.fraction with
  | some digits => simp
  | none =>
    cases numeral.exponent with
    | some exponent => simp [Exponent.chars]
    | none => simp

theorem whole_read : digits? 10 numeral.whole.chars = some numeral.magnitude :=
  Plain.digits?_eq_getD numeral.whole.nonempty numeral.whole.decimal

theorem digits?_unsigned : digits? 10 numeral.unsigned =
    if numeral.isWhole then some numeral.magnitude else none := by
  by_cases whole : numeral.isWhole
  · have none_ := numeral.tail_eq_nil_iff.2 whole
    rw [if_pos whole, unsigned, none_, List.append_nil, whole_read]
  · obtain ⟨c, rest, tail⟩ := List.exists_cons_of_ne_nil (mt numeral.tail_eq_nil_iff.1 whole)
    have mark := numeral.tail_mark c (by simp [tail])
    have stop : Plain.digit? c = none ∨ ∃ d, Plain.digit? c = some d ∧ 10 ≤ d := by
      rcases mark with rfl | rfl | rfl
      · exact .inl (by decide)
      · exact .inr ⟨14, by decide, by decide⟩
      · exact .inr ⟨14, by decide, by decide⟩
    obtain ⟨first, digits, chars⟩ := List.exists_cons_of_ne_nil numeral.whole.nonempty
    rw [if_neg whole, unsigned, tail, chars]
    exact Plain.digitsFrom_stop stop (first :: digits) rest 0

/-- The first digit is a digit, and no second one follows a zero. -/
theorem unsigned_cases : ∃ c rest, numeral.unsigned = c :: rest ∧ c.isDigit ∧
    (c = '0' → ∀ d ∈ rest.head?, isTailMark d) := by
  obtain ⟨c, digits, chars⟩ := List.exists_cons_of_ne_nil numeral.whole.nonempty
  refine ⟨c, digits ++ numeral.tail, by simp [unsigned, chars],
    numeral.whole.decimal c (by simp [chars]), ?_⟩
  rintro rfl d head
  cases digits with
  | nil => exact numeral.tail_mark d head
  | cons e digits =>
    have unpadded := numeral.unpadded (by simp [chars])
    simp [chars] at unpadded

theorem magnitude?_unsigned : Plain.magnitude? numeral.unsigned =
    if numeral.isWhole then some numeral.magnitude else none := by
  obtain ⟨c, rest, chars, -, zero⟩ := numeral.unsigned_cases
  have mark {letter : Char} {later : List Char} (same : c :: rest = '0' :: letter :: later) :
      isTailMark letter := by
    obtain ⟨rfl, rfl⟩ := List.cons.inj same
    exact zero rfl letter rfl
  rw [← digits?_unsigned, chars]
  unfold Plain.magnitude?
  split
  · next same => exact absurd (mark same) (by simp [isTailMark])
  · next same => exact absurd (mark same) (by simp [isTailMark])
  · next same => exact absurd (mark same) (by simp [isTailMark])
  · rfl

theorem isZeroPadded_chars : Plain.isZeroPadded numeral.chars = false := by
  obtain ⟨c, rest, first, digit, zero⟩ := numeral.unsigned_cases
  have noSign := noSign_of_isDigit digit
  have unpadded : ∀ second later, c :: rest = '0' :: second :: later →
      second.isDigit = false := by
    intro second later same
    obtain ⟨rfl, rfl⟩ := List.cons.inj same
    exact notDigit_of_isTailMark (zero rfl second rfl)
  cases negative : numeral.negative with
  | true =>
    rw [chars, if_pos negative, first]
    simp only [Plain.isZeroPadded]
    split
    · next second later same => simp [unpadded second later same]
    · rfl
  | false =>
    rw [chars, if_neg (by simp [negative]), first]
    simp only [Plain.isZeroPadded]
    split
    · next second later same =>
      have unsigned : c :: rest = '0' :: second :: later := by
        split at same
        · next minus => exact absurd (List.cons.inj minus).1 noSign.1
        · next plus => exact absurd (List.cons.inj plus).1 noSign.2
        · exact same
      simp [unpadded second later unsigned]
    · rfl

theorem integer?_chars : Plain.integer? numeral.chars =
    if numeral.isWhole then some (numeral.negative, numeral.magnitude) else none := by
  obtain ⟨c, rest, first, digit, -⟩ := numeral.unsigned_cases
  have noSign := noSign_of_isDigit digit
  have padded := numeral.isZeroPadded_chars
  have read := numeral.magnitude?_unsigned
  rw [first] at read
  cases negative : numeral.negative with
  | true =>
    rw [chars, if_pos negative, first] at padded ⊢
    by_cases whole : numeral.isWhole <;> simp [Plain.integer?, padded, read, whole]
  | false =>
    rw [chars, if_neg (by simp [negative]), first] at padded ⊢
    by_cases whole : numeral.isWhole <;> simp [Plain.integer?, padded, read, noSign, whole]

theorem exponent?_exponentChars : Plain.exponent? numeral.exponentChars =
    some (numeral.exponent.elim 0 Exponent.value) := by
  unfold exponentChars
  split
  · next exponent given => simp [given, exponent.exponent?_chars]
  · next none_ => simp [none_, Plain.exponent?]

theorem unsignedFloat?_unsigned :
    Plain.unsignedFloat? numeral.negative numeral.unsigned = some numeral.double := by
  have stop : ∀ c ∈ numeral.tail.head?, c.isDigit = false :=
    fun c head => notDigit_of_isTailMark (numeral.tail_mark c head)
  have later : ∀ c ∈ numeral.exponentChars.head?, c.isDigit = false :=
    fun c head => notDigit_of_isTailMark (.inr (numeral.exponentChars_mark c head))
  have whole := takeWhile_run numeral.whole.decimal stop
  have rest := dropWhile_run numeral.whole.decimal stop
  have decimal : ∀ c ∈ numeral.whole.chars ++ numeral.fractionDigits, c.isDigit := by
    intro c member
    rcases List.mem_append.1 member with inWhole | inFraction
    · exact numeral.whole.decimal c inWhole
    · unfold fractionDigits at inFraction
      split at inFraction
      · next digits _ => exact digits.decimal c inFraction
      · cases inFraction
  obtain ⟨n, given⟩ : ∃ n, digits? 10 (numeral.whole.chars ++ numeral.fractionDigits) = some n :=
    ⟨_, Plain.digits?_eq_getD (by simp [numeral.whole.nonempty]) decimal⟩
  have exponent := numeral.exponent?_exponentChars
  unfold Plain.unsignedFloat? unsigned double
  rw [whole, rest, given]
  cases fraction : numeral.fraction with
  | some digits =>
    have inside := takeWhile_run digits.decimal later
    have beyond := dropWhile_run digits.decimal later
    simp only [fractionDigits, fraction] at given ⊢
    simp only [tail, fractionChars, fraction, List.cons_append, inside, beyond, given, exponent,
      Option.getD_some]
  | none =>
    simp only [fractionDigits, fraction] at given ⊢
    rw [List.append_nil] at given
    simp only [tail, fractionChars, fraction, List.nil_append]
    cases chars : numeral.exponentChars with
    | nil =>
      rw [chars] at exponent
      simp [given, exponent]
    | cons c rest =>
      rw [chars] at exponent
      rcases numeral.exponentChars_mark c (by simp [chars]) with rfl | rfl
      · simp [given, exponent]
      · simp [given, exponent]

theorem chars_cases : ∃ c rest, numeral.chars = c :: rest ∧ (c = '-' ∨ c.isDigit) := by
  obtain ⟨c, rest, first, digit, -⟩ := numeral.unsigned_cases
  unfold chars
  split
  · exact ⟨'-', numeral.unsigned, rfl, .inl rfl⟩
  · exact ⟨c, rest, first, .inr digit⟩

theorem ne_of_start {c letter : Char} (start : c = '-' ∨ c.isDigit) (minus : letter ≠ '-')
    (other : letter.isDigit = false) : c ≠ letter := by
  rintro rfl
  rcases start with same | digit
  · exact minus same
  · simp [other] at digit

theorem float?_chars :
    Plain.float? numeral.chars = (some numeral.double).filter Double.isFinite := by
  obtain ⟨c, rest, first, digit, -⟩ := numeral.unsigned_cases
  have noSign := noSign_of_isDigit digit
  have noPoint : c ≠ '.' := ne_of_start (.inr digit) (by decide) (by decide)
  have read := numeral.unsignedFloat?_unsigned
  rw [first] at read
  cases negative : numeral.negative with
  | true =>
    rw [negative] at read
    rw [chars, if_pos negative, first]
    simp [Plain.float?, Plain.isNan, Plain.isInfinity, noPoint, read]
  | false =>
    rw [negative] at read
    rw [chars, if_neg (by simp [negative]), first]
    simp [Plain.float?, Plain.isNan, Plain.isInfinity, noPoint, noSign, read]

/-- Whether the number is a whole one of 64 bits or has a fraction or an exponent and is in the
range of the doubles. -/
def fits : Bool :=
  if numeral.isWhole then
    if numeral.negative then numeral.magnitude ≤ 2 ^ 63 else numeral.magnitude < 2 ^ 64
  else numeral.double.isFinite

def plain : Plain :=
  if numeral.isWhole then .int numeral.integer else .float numeral.double

theorem number?_chars (fits : numeral.fits) : Plain.number? numeral.chars = some numeral.plain := by
  unfold Plain.number? plain
  rw [integer?_chars, isZeroPadded_chars, float?_chars]
  unfold Numeral.fits at fits
  split at fits
  · next whole =>
    cases negative : numeral.negative with
    | true =>
      rw [negative, if_pos rfl, decide_eq_true_eq] at fits
      have read : Plain.ofInteger? true numeral.magnitude = some (.int (-numeral.magnitude)) := by
        unfold Plain.ofInteger?
        rw [if_pos rfl]
        exact if_pos fits
      simp [whole, read, integer, negative]
    | false =>
      rw [negative, if_neg (by simp), decide_eq_true_eq] at fits
      have read : Plain.ofInteger? false numeral.magnitude = some (.int numeral.magnitude) := by
        unfold Plain.ofInteger?
        rw [if_neg (by simp)]
        exact if_pos fits
      simp [whole, read, integer, negative]
  · next notWhole => simp [notWhole, fits]

theorem isNull_chars : Plain.isNull numeral.chars = false := by
  obtain ⟨c, rest, first, start⟩ := numeral.chars_cases
  have other (letter : Char) (minus : letter ≠ '-') (digit : letter.isDigit = false) :
      c ≠ letter := ne_of_start start minus digit
  rw [first]
  simp [Plain.isNull, other 'n' (by decide) (by decide), other 'N' (by decide) (by decide),
    other '~' (by decide) (by decide)]

/-- A number in the ranges that are known is read as itself. -/
theorem resolve_chars (fits : numeral.fits) : Plain.resolve numeral.chars = numeral.plain := by
  obtain ⟨c, rest, first, start⟩ := numeral.chars_cases
  have other (letter : Char) (minus : letter ≠ '-') (digit : letter.isDigit = false) :
      c ≠ letter := ne_of_start start minus digit
  have notNull := numeral.isNull_chars
  have notBool : Plain.bool? (c :: rest) = none := by
    simp [Plain.bool?, other 't' (by decide) (by decide), other 'T' (by decide) (by decide),
      other 'f' (by decide) (by decide), other 'F' (by decide) (by decide)]
  have read := numeral.number?_chars fits
  rw [first] at notNull read ⊢
  simp [Plain.resolve, notNull, notBool, read]

end Numeral

end ApiManifest.JsonSyntax
