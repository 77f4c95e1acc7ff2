import ApiManifest.Json
import ApiManifest.Proofs.Digits

/-!
The core schema of YAML 1.2, by which a plain scalar stands for nothing, a boolean, a number or its
text. A text is written plain only if the reader of this library takes it as a text. The core
schema does so too unless the text is a number outside the ranges that reader knows.
-/

namespace ApiManifest.Yaml.Core

def integer? : List Char → Option Int
  | '0' :: 'o' :: digits => (Plain.digits? 8 digits).map Int.ofNat
  | '0' :: 'x' :: digits => (Plain.digits? 16 digits).map Int.ofNat
  | '-' :: digits => (Plain.digits? 10 digits).map (fun (n : Nat) => -(n : Int))
  | '+' :: digits => (Plain.digits? 10 digits).map Int.ofNat
  | digits => (Plain.digits? 10 digits).map Int.ofNat

def signed (text : List Char) : Bool × List Char :=
  match text with
  | '-' :: rest => (true, rest)
  | '+' :: rest => (false, rest)
  | _ => (false, text)

/-- A number with a fraction or exponent; one too large for a double is infinite. -/
def float? (text : List Char) : Option Double :=
  if Plain.isNan text then some Plain.nan
  else if Plain.isInfinity (signed text).2 then some (Double.infinity (signed text).1)
  else Plain.unsignedFloat? (signed text).1 (signed text).2

def scalar (text : List Char) : Json :=
  if text.isEmpty || Plain.isNull text then .null
  else match Plain.bool? text with
    | some value => .bool value
    | none =>
      match integer? text with
      | some n => .int n
      | none =>
        match float? text with
        | some x => .float x
        | none => .string (String.ofList text)

/-- Whether a text is a whole number of more than 128 bits, or too large for a double. -/
def exceeds (text : List Char) : Bool :=
  (integer? text).any (fun n => (2 : Int) ^ 128 ≤ n) || (float? text).any (fun x => !x.isFinite)

theorem scalar_text {text : List Char} {found : String} (same : scalar text = .string found) :
    found = String.ofList text ∧ integer? text = none ∧ float? text = none := by
  unfold scalar at same
  split at same
  · cases same
  · split at same
    · cases same
    · split at same
      · cases same
      · next noInteger =>
        split at same
        · cases same
        · next noFloat => exact ⟨(Json.string.inj same).symm, noInteger, noFloat⟩

theorem scalar_notObject (text : List Char) (entries : List (String × Json)) :
    scalar text ≠ .object entries := by
  unfold scalar
  split
  · simp
  · split
    · simp
    · split
      · simp
      · split <;> simp

theorem isDigit_of_digit? {c : Char} {d : Nat} (read : Plain.digit? c = some d)
    (small : d < 10) : c.isDigit := by
  simp only [Plain.digit?, Plain.le_iff_toNat_le] at read
  split at read
  · next decimal => exact (Plain.isDigit_iff c).2 decimal
  · split at read
    · next letter =>
      obtain rfl := Option.some.inj read
      have low : 97 ≤ c.toNat := letter.1
      omega
    · split at read
      · next letter =>
        obtain rfl := Option.some.inj read
        have low : 65 ≤ c.toNat := letter.1
        omega
      · cases read

theorem isDigit_of_digits? {text : List Char} {value n : Nat}
    (read : Plain.digitsFrom 10 value text = some n) : ∀ c ∈ text, c.isDigit := by
  induction text generalizing value with
  | nil => simp
  | cons c text ih =>
    rw [Plain.digitsFrom] at read
    split at read
    · next d digit =>
      split at read
      · next small =>
        exact List.forall_mem_cons.2 ⟨isDigit_of_digit? digit small, ih read⟩
      · cases read
    · cases read

/-- A decimal without a fraction is a number with a fraction as well. -/
theorem unsignedFloat?_digits {digits : List Char} {n : Nat} (negative : Bool)
    (read : Plain.digits? 10 digits = some n) :
    ∃ x, Plain.unsignedFloat? negative digits = some x := by
  have decimal : ∀ c ∈ digits, c.isDigit := by
    cases digits with
    | nil => simp
    | cons c digits => exact isDigit_of_digits? read
  have whole : digits.takeWhile Char.isDigit = digits := List.takeWhile_eq_self_iff.2 decimal
  have rest : digits.dropWhile Char.isDigit = [] := List.dropWhile_eq_nil_iff.2 decimal
  refine ⟨Decimal.nearest negative n 0, ?_⟩
  simp [Plain.unsignedFloat?, whole, rest, read, Plain.exponent?]

theorem float?_of_signed {text : List Char} {n : Nat}
    (read : Plain.digits? 10 (signed text).2 = some n) : ∃ x, float? text = some x := by
  unfold float?
  split
  · exact ⟨_, rfl⟩
  · split
    · exact ⟨_, rfl⟩
    · exact unsignedFloat?_digits _ read

theorem number?_ne_text (text : List Char) : Plain.number? text ≠ some .text := by
  have whole (negative : Bool) (n : Nat) : Plain.ofInteger? negative n ≠ some .text := by
    unfold Plain.ofInteger?
    repeat' split
    all_goals simp
  intro same
  unfold Plain.number? at same
  split at same
  · next found =>
    obtain ⟨parts, -, read⟩ := Option.bind_eq_some_iff.1 found
    exact whole _ _ (read.trans same)
  · split at same
    · cases same
    · obtain ⟨x, -, none_⟩ := Option.map_eq_some_iff.1 same
      cases none_

theorem of_style_plain {text : List Char} (plain : Written.style text = .plain) :
    Plain.isZeroPadded text = false ∧ (text.isEmpty || Plain.isNull text) = false ∧
      Plain.bool? text = none ∧ Plain.number? text = none := by
  have other : Written.readsAsOther text = false := by
    unfold Written.style at plain
    split at plain
    · split at plain <;> cases plain
    · split at plain
      · next stands => simp_all
      · split at plain <;> cases plain
  simp only [Written.readsAsOther, Bool.or_eq_false_iff, decide_eq_false_iff_not, ne_eq,
    Decidable.not_not] at other
  obtain ⟨resolved, padded⟩ := other
  unfold Plain.resolve at resolved
  split at resolved
  · cases resolved
  · next notNull =>
    split at resolved
    · cases resolved
    · next notBool =>
      refine ⟨padded, by simpa using notNull, notBool, ?_⟩
      cases number : Plain.number? text with
      | none => rfl
      | some value =>
        rw [number, Option.getD_some] at resolved
        exact absurd (resolved ▸ number) (number?_ne_text text)

theorem number?_none {text : List Char} (padded : Plain.isZeroPadded text = false)
    (none_ : Plain.number? text = none) : Plain.float? text = none ∧
      ∀ parts, Plain.integer? text = some parts → Plain.ofInteger? parts.1 parts.2 = none := by
  unfold Plain.number? at none_
  split at none_
  · cases none_
  · next noInteger =>
    rw [padded] at none_
    refine ⟨by simpa using none_, fun parts found => ?_⟩
    simpa [found] using noInteger

theorem large_of_ofInteger? {n : Nat} (none_ : Plain.ofInteger? false n = none) :
    (2 : Int) ^ 128 ≤ n := by
  have large : ¬ n < 2 ^ 128 := by
    intro small
    unfold Plain.ofInteger? at none_
    rw [if_neg (by simp)] at none_
    split at none_
    · cases none_
    · split at none_
      · cases none_
      · next notWide => exact notWide small
  omega

theorem notFinite_of_float? {text : List Char} {x : Double} (none_ : Plain.float? text = none)
    (some_ : float? text = some x) : x.isFinite = false := by
  have same : Plain.float? text = if Plain.isNan text then some Plain.nan
      else if Plain.isInfinity (signed text).2 then some (Double.infinity (signed text).1)
      else (Plain.unsignedFloat? (signed text).1 (signed text).2).filter Double.isFinite := by
    rfl
  rw [same] at none_
  unfold float? at some_
  split at some_
  · next isNan => simp [isNan] at none_
  · next noNan =>
    split at some_
    · next infinite => simp [noNan, infinite] at none_
    · next decimal => simpa [noNan, decimal, some_, Option.filter] using none_

theorem large_of_integer? {text : List Char} {n : Int} (plain : Written.style text = .plain)
    (some_ : integer? text = some n) : (2 : Int) ^ 128 ≤ n ∨ ∃ x, float? text = some x := by
  obtain ⟨padded, -, -, number⟩ := of_style_plain plain
  obtain ⟨-, large⟩ := number?_none padded number
  unfold integer? at some_
  split at some_
  · next digits =>
    obtain ⟨m, read, rfl⟩ := Option.map_eq_some_iff.1 some_
    refine .inl (large_of_ofInteger? (large (false, m) ?_))
    simp [Plain.integer?, padded, Plain.magnitude?, read]
  · next digits =>
    obtain ⟨m, read, rfl⟩ := Option.map_eq_some_iff.1 some_
    refine .inl (large_of_ofInteger? (large (false, m) ?_))
    simp [Plain.integer?, padded, Plain.magnitude?, read]
  · next digits =>
    obtain ⟨m, read, -⟩ := Option.map_eq_some_iff.1 some_
    exact .inr (float?_of_signed read)
  · next digits =>
    obtain ⟨m, read, -⟩ := Option.map_eq_some_iff.1 some_
    exact .inr (float?_of_signed read)
  · next noOctal noHex noMinus noPlus =>
    obtain ⟨m, read, -⟩ := Option.map_eq_some_iff.1 some_
    have unsigned : (signed text).2 = text := by
      unfold signed
      split
      · next digits => exact absurd rfl (noMinus digits)
      · next digits => exact absurd rfl (noPlus digits)
      · rfl
    exact .inr (float?_of_signed (unsigned.symm ▸ read))

/-- The two readers differ on a plain text only where it is a number one of them does not know. -/
theorem scalar_eq_text_iff {text : List Char} (plain : Written.style text = .plain) :
    scalar text = .string (String.ofList text) ↔ exceeds text = false := by
  obtain ⟨padded, notNull, notBool, number⟩ := of_style_plain plain
  constructor
  · intro same
    obtain ⟨-, noInteger, noFloat⟩ := scalar_text same
    simp [exceeds, noInteger, noFloat]
  · intro within
    simp only [exceeds, Bool.or_eq_false_iff] at within
    have noFloat : float? text = none := by
      cases found : float? text with
      | none => rfl
      | some x =>
        have infinite := notFinite_of_float? (number?_none padded number).1 found
        simp [found, infinite] at within
    have noInteger : integer? text = none := by
      cases found : integer? text with
      | none => rfl
      | some n =>
        rcases large_of_integer? plain found with large | ⟨x, decimal⟩
        · simp only [found, Option.any_some, decide_eq_false_iff_not] at within
          exact absurd large within.1
        · rw [noFloat] at decimal
          cases decimal
    simp only [scalar, notNull, notBool, noInteger, noFloat]
    rfl

end ApiManifest.Yaml.Core
