import ApiManifest.Proofs.Json.Strings
import ApiManifest.Proofs.Yaml.FlowScanning

/-!
The characters of a JSON text. All of them may stand in a YAML text if the strings and the keys are
read, and making the breaks uniform changes nothing but the white space.
-/

namespace ApiManifest.JsonSyntax

open Yaml (isAllowed isBreak isGraphic uniformBreaks)

def isSettled (c : Char) : Prop :=
  isAllowed c ∧ c ≠ '\r' ∧ c ≠ '\u0085'

theorem isSettled_of_isGraphic {c : Char} (graphic : isGraphic c) : isSettled c := by
  unfold isGraphic at graphic
  refine ⟨by simp [isAllowed]; omega, ?_, ?_⟩
  · rintro rfl
    revert graphic
    decide
  · rintro rfl
    revert graphic
    decide

/-- What is written may stand in a text, and becomes that once its breaks are made uniform. -/
structure IsUniform (written uniform : List Char) : Prop where
  allowed : ∀ c ∈ written, isAllowed c
  same : uniformBreaks written = uniform

namespace IsUniform

variable {written uniform : List Char}

theorem nil : IsUniform [] [] :=
  ⟨by simp, rfl⟩

theorem cons {c : Char} (settled : isSettled c) (rest : IsUniform written uniform) :
    IsUniform (c :: written) (c :: uniform) := by
  refine ⟨by simpa using ⟨settled.1, rest.allowed⟩, ?_⟩
  rw [uniformBreaks]
  · simp [settled.2.1, settled.2.2, rest.same]
  · intro later same
    exact absurd same settled.2.1

theorem token {token : List Char} (settled : ∀ c ∈ token, isSettled c)
    (rest : IsUniform written uniform) : IsUniform (token ++ written) (token ++ uniform) := by
  induction token with
  | nil => exact rest
  | cons c token ih =>
    exact cons (settled c (by simp)) (ih fun d member => settled d (by simp [member]))

end IsUniform

theorem uniformBreaks_append {second : List Char} (starts : second.head? ≠ some '\n')
    (first : List Char) :
    uniformBreaks (first ++ second) = uniformBreaks first ++ uniformBreaks second := by
  fun_induction uniformBreaks first with
  | case1 => rfl
  | case2 rest ih => simp [uniformBreaks, ih]
  | case3 c rest other ih =>
    rw [List.cons_append, uniformBreaks, ih, List.cons_append]
    intro later carriage follows
    cases rest with
    | nil => exact starts (by simp at follows; simp [follows])
    | cons d rest =>
      obtain ⟨rfl, -⟩ := List.cons.inj follows
      exact other rest carriage rfl

theorem mem_uniformBreaks {c : Char} {text : List Char} (member : c ∈ uniformBreaks text) :
    c = '\n' ∨ (c ∈ text ∧ c ≠ '\r') := by
  fun_induction uniformBreaks text with
  | case1 => cases member
  | case2 rest ih =>
    rcases List.mem_cons.1 member with rfl | later
    · exact .inl rfl
    · exact (ih later).imp id (fun inside => ⟨by simp [inside.1], inside.2⟩)
  | case3 d rest other ih =>
    rcases List.mem_cons.1 member with same | later
    · split at same
      · exact .inl same
      · next plain => exact .inr ⟨by simp [same], by simp_all⟩
    · exact (ih later).imp id (fun inside => ⟨by simp [inside.1], inside.2⟩)

namespace Space

def uniform (space : Space) : List Char :=
  uniformBreaks space.chars

theorem white_cases (space : Space) :
    ∀ c ∈ space.chars, c = ' ' ∨ c = '\t' ∨ c = '\n' ∨ c = '\r' := by
  intro c member
  have white := space.white c member
  simpa [Json.isSpace, or_assoc] using white

theorem uniform_cases (space : Space) :
    ∀ c ∈ space.uniform, c = ' ' ∨ c = '\t' ∨ c = '\n' := by
  intro c member
  rcases mem_uniformBreaks member with rfl | ⟨inside, other⟩
  · exact .inr (.inr rfl)
  · rcases space.white_cases c inside with space | tab | feed | carriage
    · exact .inl space
    · exact .inr (.inl tab)
    · exact .inr (.inr feed)
    · exact absurd carriage other

theorem isUniform (space : Space) {written uniform : List Char}
    (rest : IsUniform written uniform) (starts : written.head? ≠ some '\n') :
    IsUniform (space.chars ++ written) (space.uniform ++ uniform) := by
  constructor
  · intro c member
    rcases List.mem_append.1 member with white | later
    · rcases space.white_cases c white with rfl | rfl | rfl | rfl <;> decide
    · exact rest.allowed c later
  · rw [uniformBreaks_append starts, rest.same]
    rfl

theorem uniform_line {space : Space} (line : '\n' ∉ space.chars ∧ '\r' ∉ space.chars) :
    space.uniform = space.chars ∧ ∀ c ∈ space.uniform, c = ' ' ∨ c = '\t' := by
  have blank : ∀ c ∈ space.chars, c = ' ' ∨ c = '\t' := by
    intro c member
    rcases space.white_cases c member with space | tab | rfl | rfl
    · exact .inl space
    · exact .inr tab
    · exact absurd member line.1
    · exact absurd member line.2
  have settled : ∀ c ∈ space.chars, isSettled c := by
    intro c member
    rcases blank c member with rfl | rfl <;> exact ⟨by decide, by decide, by decide⟩
  have stays : space.uniform = space.chars := by
    rw [uniform]
    simpa using (IsUniform.token settled .nil).same
  exact ⟨stays, stays ▸ blank⟩

end Space

def isPlain (c : Char) : Prop :=
  Yaml.Scalar.isBare c ∧ isGraphic c

theorem isPlain_of_isDigit {c : Char} (digit : c.isDigit) : isPlain c := by
  have bounds := (Yaml.Plain.isDigit_iff c).1 digit
  exact ⟨by simp [Yaml.Scalar.isBare, Char.isAlphanum, digit], by unfold isGraphic; omega⟩

theorem isPlain_of_isLower {c : Char} (lower : c.isLower) : isPlain c := by
  have bounds : 97 ≤ c.toNat ∧ c.toNat ≤ 122 := by
    simpa [Char.isLower, UInt32.le_iff_toNat_le] using lower
  exact ⟨by simp [Yaml.Scalar.isBare, Char.isAlphanum, Char.isAlpha, lower],
    by unfold isGraphic; omega⟩

theorem isPlain_null : ∀ c ∈ "null".toList, isPlain c := by
  have lower : ∀ c ∈ "null".toList, c.isLower := by simp [Char.isLower]
  exact fun c member => isPlain_of_isLower (lower c member)

theorem isPlain_flag (value : Bool) : ∀ c ∈ flagChars value, isPlain c := by
  have lower : ∀ c ∈ flagChars value, c.isLower := by
    cases value <;> simp [flagChars, Char.isLower]
  exact fun c member => isPlain_of_isLower (lower c member)

namespace Numeral

theorem isPlain_of_mem (numeral : Numeral) : ∀ c ∈ numeral.chars, isPlain c := by
  have digits (digits : Digits) : ∀ c ∈ digits.chars, isPlain c :=
    fun c member => isPlain_of_isDigit (digits.decimal c member)
  have mark {c : Char} (kind : c = '-' ∨ c = '+' ∨ c = '.' ∨ c = 'e' ∨ c = 'E') : isPlain c := by
    unfold isPlain isGraphic
    rcases kind with rfl | rfl | rfl | rfl | rfl <;> decide
  have exponent (exponent : Exponent) : ∀ c ∈ exponent.chars, isPlain c := by
    intro c member
    simp only [Exponent.chars, List.mem_cons, List.mem_append] at member
    rcases member with rfl | sign | digit
    · rcases exponent.marked with same | same <;> exact mark (by simp [same])
    · unfold Exponent.signed at sign
      split at sign
      · cases sign
      · exact mark (by simp_all)
      · exact mark (by simp_all)
    · exact digits exponent.digits c digit
  have tail : ∀ c ∈ numeral.tail, isPlain c := by
    intro c member
    rcases List.mem_append.1 member with fraction | exponent_
    · cases h : numeral.fraction with
      | none => simp [fractionChars, h] at fraction
      | some found =>
        simp only [fractionChars, h, List.mem_cons] at fraction
        rcases fraction with rfl | digit
        · exact mark (by simp)
        · exact digits found c digit
    · cases h : numeral.exponent with
      | none => simp [exponentChars, h] at exponent_
      | some found =>
        rw [exponentChars, h] at exponent_
        exact exponent found c exponent_
  have unsigned : ∀ c ∈ numeral.unsigned, isPlain c := by
    intro c member
    rcases List.mem_append.1 member with whole | later
    · exact digits numeral.whole c whole
    · exact tail c later
  intro c member
  unfold chars at member
  split at member
  · rcases List.mem_cons.1 member with rfl | later
    · exact mark (by simp)
    · exact unsigned c later
  · exact unsigned c member

theorem startsBare (numeral : Numeral) : Yaml.startsBare numeral.chars := by
  obtain ⟨c, rest, whole⟩ := List.exists_cons_of_ne_nil numeral.whole.nonempty
  have digit := numeral.whole.decimal c (by simp [whole])
  have other : c ≠ '.' ∧ c ≠ '-' := by
    constructor
    · rintro rfl
      revert digit
      decide
    · rintro rfl
      revert digit
      decide
  unfold chars
  split
  · simp [unsigned, whole, Yaml.startsBare, other]
  · simp [unsigned, whole, Yaml.startsBare, other]

end Numeral

/-- The key is read as one: the colon follows on its line, at most so many characters later. -/
structure Key.IsRead (key : Key) : Prop where
  pieces : ∀ piece ∈ key.pieces, piece.IsRead
  line : '\n' ∉ key.after.chars ∧ '\r' ∉ key.after.chars
  short : (Piece.quoted key.pieces).length + key.after.chars.length ≤ 1024

instance : DecidablePred Key.IsRead := fun _ =>
  decidable_of_iff (_ ∧ _ ∧ _)
    ⟨fun ⟨pieces, line, short⟩ => ⟨pieces, line, short⟩,
      fun ⟨pieces, line, short⟩ => ⟨pieces, line, short⟩⟩

def Value.IsRead : Value → Prop
  | .string pieces => ∀ piece ∈ pieces, piece.IsRead
  | .object _ members => ∀ member ∈ members.toList, member.1.IsRead
  | _ => True

instance : DecidablePred Value.IsRead
  | .string pieces => inferInstanceAs (Decidable (∀ piece ∈ pieces, piece.IsRead))
  | .object _ members => inferInstanceAs (Decidable (∀ member ∈ members.toList, member.1.IsRead))
  | .null | .bool _ | .number _ | .emptyArray _ | .array .. | .emptyObject _ =>
    inferInstanceAs (Decidable True)

theorem Piece.isSettled_of_mem {piece : Piece} (read : piece.IsRead) :
    ∀ c ∈ piece.spelled, isSettled c := by
  intro c member
  cases piece with
  | bare d stands =>
    obtain rfl := List.mem_singleton.1 member
    refine ⟨read.1, ?_, read.2.2⟩
    exact fun same => absurd stands.1 (by rw [same]; decide)
  | letter d found means =>
    obtain ⟨-, graphic⟩ := Piece.letter_cases means
    simp only [Piece.spelled, List.mem_cons, List.not_mem_nil, or_false] at member
    rcases member with rfl | rfl
    · exact isSettled_of_isGraphic (by unfold isGraphic; decide)
    · exact isSettled_of_isGraphic graphic
  | unit code =>
    simp only [Piece.spelled, List.mem_cons] at member
    rcases member with rfl | rfl | digit
    · exact isSettled_of_isGraphic (by unfold isGraphic; decide)
    · exact isSettled_of_isGraphic (by unfold isGraphic; decide)
    · exact isSettled_of_isGraphic (code.isGraphic_of_mem c digit)

theorem Piece.isSettled_quoted {pieces : List Piece} (read : ∀ piece ∈ pieces, piece.IsRead) :
    ∀ c ∈ Piece.quoted pieces, isSettled c := by
  have quote : isSettled '"' := isSettled_of_isGraphic (by unfold isGraphic; decide)
  intro c member
  simp only [Piece.quoted, List.mem_cons, List.mem_append, List.mem_flatMap, List.not_mem_nil,
    or_false] at member
  rcases member with rfl | ⟨piece, inside, here⟩ | rfl
  · exact quote
  · exact Piece.isSettled_of_mem (read piece inside) c here
  · exact quote

/-- A read string holds no break. -/
theorem Piece.line_quoted {pieces : List Piece} (read : ∀ piece ∈ pieces, piece.IsRead) :
    ∀ c ∈ pieces.flatMap Piece.spelled ++ ['"'], isBreak c = false := by
  intro c member
  simp only [List.mem_append, List.mem_flatMap, List.mem_singleton] at member
  rcases member with ⟨piece, inside, here⟩ | rfl
  · cases piece with
    | bare d stands =>
      obtain rfl := List.mem_singleton.1 here
      exact (read _ inside).2.1
    | letter d found means =>
      obtain ⟨-, graphic⟩ := Piece.letter_cases means
      simp only [Piece.spelled, List.mem_cons, List.not_mem_nil, or_false] at here
      rcases here with rfl | rfl
      · decide
      · exact Yaml.notBreak_of_isGraphic graphic
    | unit code =>
      simp only [Piece.spelled, List.mem_cons] at here
      rcases here with rfl | rfl | digit
      · decide
      · decide
      · exact Yaml.notBreak_of_isGraphic (code.isGraphic_of_mem c digit)
  · decide

section Uniform

theorem Key.spelled_starts (space : Space → List Char) (key : Key) (tail : List Char) :
    (key.spelled space ++ tail).head? = some '"' := by
  simp [Key.spelled, Piece.quoted]

theorem Value.spelled_starts (space : Space → List Char) (value : Value) (tail : List Char) :
    (value.spelled space ++ tail).head? ≠ some '\n' := by
  cases value with
  | number numeral =>
    have plain := numeral.isPlain_of_mem
    have starts := numeral.startsBare
    rw [Value.spelled]
    cases h : numeral.chars with
    | nil => simp [h, Yaml.startsBare] at starts
    | cons c rest =>
      have first := plain c (by simp [h])
      simp only [List.cons_append, List.head?_cons, ne_eq, Option.some.injEq]
      rintro rfl
      exact absurd first.2 (by unfold isGraphic; decide)
  | bool value => cases value <;> simp [Value.spelled, flagChars]
  | string pieces => simp [Value.spelled, Piece.quoted]
  | _ => simp [Value.spelled]

theorem Items.spelled_starts (space : Space → List Char) (items : Items) (tail : List Char) :
    (items.spelled space ++ tail).head? ≠ some '\n' := by
  cases items with
  | last value after =>
    rw [Items.spelled, List.append_assoc]
    exact value.spelled_starts space _
  | more value after beyond rest =>
    rw [Items.spelled, List.append_assoc]
    exact value.spelled_starts space _

theorem Members.spelled_starts (space : Space → List Char) (members : Members)
    (tail : List Char) : (members.spelled space ++ tail).head? ≠ some '\n' := by
  cases members with
  | last key value after =>
    rw [Members.spelled, List.append_assoc, key.spelled_starts]
    simp
  | more key value after beyond rest =>
    rw [Members.spelled, List.append_assoc, key.spelled_starts]
    simp

theorem isSettled_mark {c : Char} (mark : c ∈ ['[', ']', '\x7b', '\x7d', ',', ':']) :
    isSettled c := by
  apply isSettled_of_isGraphic
  simp only [List.mem_cons, List.not_mem_nil, or_false] at mark
  unfold isGraphic
  rcases mark with rfl | rfl | rfl | rfl | rfl | rfl <;> decide

theorem Key.isUniform {key : Key} {written uniform : List Char} (read : key.IsRead)
    (rest : IsUniform written uniform) (starts : written.head? ≠ some '\n') :
    IsUniform (key.spelled Space.chars ++ written) (key.spelled Space.uniform ++ uniform) := by
  have beyond := key.beyond.isUniform rest starts
  have colon := key.after.isUniform (beyond.cons (isSettled_mark (c := ':') (by simp))) (by simp)
  simpa [Key.spelled] using IsUniform.token (Piece.isSettled_quoted read.pieces) colon

mutual

theorem Value.isUniform (value : Value) {written uniform : List Char}
    (read : value.All Value.IsRead) (rest : IsUniform written uniform) :
    IsUniform (value.spelled Space.chars ++ written) (value.spelled Space.uniform ++ uniform) := by
  have settled (mark : Char) (kind : mark ∈ ['[', ']', '\x7b', '\x7d', ',', ':']) :
      isSettled mark := isSettled_mark kind
  have word {word : List Char} (plain : ∀ c ∈ word, isPlain c) :
      IsUniform (word ++ written) (word ++ uniform) :=
    .token (fun c member => isSettled_of_isGraphic (plain c member).2) rest
  match value with
  | .null => exact word isPlain_null
  | .bool value => exact word (isPlain_flag value)
  | .number numeral => exact word numeral.isPlain_of_mem
  | .string pieces => exact .token (Piece.isSettled_quoted read) rest
  | .emptyArray inside =>
    have closed := inside.isUniform (rest.cons (settled ']' (by simp))) (by simp)
    simpa [Value.spelled] using closed.cons (settled '[' (by simp))
  | .array before items =>
    have inner := before.isUniform (items.isUniform read.2 rest) (items.spelled_starts _ _)
    simpa [Value.spelled] using inner.cons (settled '[' (by simp))
  | .emptyObject inside =>
    have closed := inside.isUniform (rest.cons (settled '\x7d' (by simp))) (by simp)
    simpa [Value.spelled] using closed.cons (settled '\x7b' (by simp))
  | .object before members =>
    have inner := before.isUniform (members.isUniform read.1 read.2 rest)
      (members.spelled_starts _ _)
    simpa [Value.spelled] using inner.cons (settled '\x7b' (by simp))

theorem Items.isUniform (items : Items) {written uniform : List Char}
    (read : items.All Value.IsRead) (rest : IsUniform written uniform) :
    IsUniform (items.spelled Space.chars ++ written) (items.spelled Space.uniform ++ uniform) := by
  match items with
  | .last value after =>
    have closed := after.isUniform (rest.cons (isSettled_mark (c := ']') (by simp))) (by simp)
    simpa [Items.spelled] using value.isUniform read closed
  | .more value after beyond others =>
    have inner := beyond.isUniform (others.isUniform read.2 rest) (others.spelled_starts _ _)
    have comma := after.isUniform (inner.cons (isSettled_mark (c := ',') (by simp))) (by simp)
    simpa [Items.spelled] using value.isUniform read.1 comma

theorem Members.isUniform (members : Members) {written uniform : List Char}
    (keys : ∀ member ∈ members.toList, member.1.IsRead) (read : members.All Value.IsRead)
    (rest : IsUniform written uniform) :
    IsUniform (members.spelled Space.chars ++ written)
      (members.spelled Space.uniform ++ uniform) := by
  match members with
  | .last key value after =>
    have named := keys (key, value) (by simp [Members.toList])
    have closed := after.isUniform (rest.cons (isSettled_mark (c := '\x7d') (by simp))) (by simp)
    simpa [Members.spelled] using
      Key.isUniform named (value.isUniform read closed) (value.spelled_starts _ _)
  | .more key value after beyond others =>
    have named := keys (key, value) (by simp [Members.toList])
    have later := others.isUniform
      (fun member inside => keys member (by simp [Members.toList, inside])) read.2 rest
    have inner := beyond.isUniform later (others.spelled_starts _ _)
    have comma := after.isUniform (inner.cons (isSettled_mark (c := ',') (by simp))) (by simp)
    simpa [Members.spelled] using
      Key.isUniform named (value.isUniform read.1 comma) (value.spelled_starts _ _)

end

end Uniform

end ApiManifest.JsonSyntax
