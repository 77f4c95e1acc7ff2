import ApiManifest.Proofs.Json.Syntax
import ApiManifest.Proofs.Yaml.QuotedScalar

/-!
A JSON string where it is read as a YAML scalar in double quotes. It is read as what it denotes if
each piece of it stands for one character, and none of its characters is a break or one that may
not stand in a text.
-/

namespace ApiManifest.JsonSyntax

open Yaml (Scalar.Quoted Scalar.Run Scalar.Spells isAllowed isBreak isGraphic)
open Yaml.Plain (digit? digits? digitsFrom)

theorem isGraphic_of_digit? {c : Char} {d : Nat} (read : digit? c = some d) : isGraphic c := by
  simp only [digit?, Yaml.Plain.le_iff_toNat_le] at read
  unfold isGraphic
  have bounds : 48 = '0'.toNat ∧ 57 = '9'.toNat ∧ 97 = 'a'.toNat ∧ 102 = 'f'.toNat ∧
      65 = 'A'.toNat ∧ 70 = 'F'.toNat := by decide
  split at read
  · omega
  · split at read
    · omega
    · split at read
      · omega
      · cases read

theorem isGraphic_of_digitsFrom {base value n : Nat} {digits : List Char}
    (read : digitsFrom base value digits = some n) : ∀ c ∈ digits, isGraphic c := by
  induction digits generalizing value with
  | nil => simp
  | cons c digits ih =>
    rw [digitsFrom] at read
    split at read
    · next d found =>
      split at read
      · intro other member
        rcases List.mem_cons.1 member with rfl | later
        · exact isGraphic_of_digit? found
        · exact ih read other later
      · cases read
    · cases read

namespace CodeUnit

theorem isGraphic_of_mem (code : CodeUnit) : ∀ c ∈ code.digits, isGraphic c := by
  have spells := code.spells
  cases digits : code.digits with
  | nil => simp
  | cons c rest =>
    rw [digits] at spells
    exact isGraphic_of_digitsFrom spells

end CodeUnit

namespace Piece

/-- The piece is read as one character by the scan. -/
def IsRead : Piece → Prop
  | .bare c _ => isAllowed c ∧ isBreak c = false ∧ c ≠ '\u0085'
  | .letter .. => True
  | .unit code => code.value.isValidChar

instance : DecidablePred IsRead
  | .bare c _ => inferInstanceAs (Decidable (isAllowed c ∧ isBreak c = false ∧ c ≠ '\u0085'))
  | .letter .. => inferInstanceAs (Decidable True)
  | .unit code => inferInstanceAs (Decidable code.value.isValidChar)

def image : Piece → Char
  | .bare c _ => c
  | .letter _ image _ => image
  | .unit code => Char.ofNat code.value

theorem text?_eq {pieces : List Piece} (read : ∀ piece ∈ pieces, piece.IsRead) :
    text? pieces = some (pieces.map image) := by
  induction pieces with
  | nil => rfl
  | cons piece pieces ih =>
    have later := ih fun other member => read other (by simp [member])
    cases piece with
    | bare c stands => simp [text?, later, image]
    | letter c found means => simp [text?, later, image]
    | unit code =>
      have valid : code.value.isValidChar := read (.unit code) (by simp)
      have notHigh : code.isHigh = false := by
        unfold Nat.isValidChar at valid
        simp only [CodeUnit.isHigh, Bool.and_eq_false_iff, decide_eq_false_iff_not]
        omega
      have notLow : code.isLow = false := by
        unfold Nat.isValidChar at valid
        simp only [CodeUnit.isLow, Bool.and_eq_false_iff, decide_eq_false_iff_not]
        omega
      unfold text?
      simp [notHigh, notLow, later, image]

theorem letter_cases {c found : Char} (means : Json.letter? c = some found) :
    Yaml.Scalar.simpleEscape? c = some found ∧ isGraphic c := by
  unfold Json.letter? at means
  split at means
  all_goals
    first
    | obtain rfl := Option.some.inj means
      exact ⟨rfl, by unfold isGraphic; decide⟩
    | cases means

theorem spells_image {piece : Piece} (read : piece.IsRead) (space : piece.spelled ≠ [' ']) :
    Scalar.Spells false piece.image piece.spelled := by
  cases piece with
  | bare c stands =>
    obtain ⟨low, quote, slash⟩ := stands
    obtain ⟨-, noBreak, -⟩ := read
    have noBlank : Yaml.isBlank c = false := by
      have tab : c ≠ '\t' := fun same => absurd low (by rw [same]; decide)
      simpa [Yaml.isBlank, tab, spelled] using space
    refine ⟨by simp [spelled], fun fuel here => ?_⟩
    simp only [spelled, List.singleton_append] at here
    simp [Yaml.Scalar.quotedRun, here, noBlank, noBreak, quote, slash, spelled, image,
      Yaml.Cursor.pass]
  | letter c found means =>
    obtain ⟨escape, graphic⟩ := letter_cases means
    have noBreak := Yaml.notBreak_of_isGraphic graphic
    have slash : isBreak '\\' = false := by decide
    refine ⟨by simp [spelled], fun fuel here => ?_⟩
    simp only [spelled, List.cons_append, List.nil_append] at here
    simp [Yaml.Scalar.quotedRun, here, Yaml.isBlank, slash, noBreak, Yaml.Scalar.escape?, escape,
      spelled, image, Yaml.Cursor.pass, Yaml.Cursor.skip_skip]
  | unit code =>
    have valid : code.value.isValidChar := read
    have slash : isBreak '\\' = false := by decide
    have mark : isBreak 'u' = false := by decide
    have line : ∀ c ∈ '\\' :: 'u' :: code.digits, isBreak c = false := by
      intro c member
      simp only [List.mem_cons] at member
      rcases member with rfl | rfl | digit
      · exact slash
      · exact mark
      · exact Yaml.notBreak_of_isGraphic (code.isGraphic_of_mem c digit)
    refine ⟨by simp [spelled], fun {cursor tail} fuel here => ?_⟩
    simp only [spelled, List.cons_append] at here
    have escape : Yaml.Scalar.escape? ('u' :: (code.digits ++ tail))
        = some (Char.ofNat code.value, 5) := by
      have taken : (code.digits ++ tail).take 4 = code.digits := List.take_left' code.four
      simp [Yaml.Scalar.escape?, Yaml.Scalar.simpleEscape?, Yaml.Scalar.escapeWidth?, taken,
        code.four, code.spells, valid, Char.ofNat]
    have skips : cursor.past (spelled (.unit code)) = cursor.skip 6 := by
      rw [spelled, Yaml.Cursor.past_of_line line]
      simp [code.four]
    rw [skips]
    simp [Yaml.Scalar.quotedRun, here, Yaml.isBlank, slash, mark, escape, image]

def isSpace : Piece → Bool
  | .bare c _ => c = ' '
  | _ => false

theorem isSpace_iff (piece : Piece) : piece.isSpace ↔ piece.spelled = [' '] := by
  cases piece with
  | bare c stands => simp [isSpace, spelled]
  | letter c image means => simp [isSpace, spelled]
  | unit code => simp [isSpace, spelled]

theorem run_images {pieces : List Piece} (read : ∀ piece ∈ pieces, piece.IsRead)
    (noSpace : ∀ piece ∈ pieces, piece.isSpace = false) :
    Scalar.Run false (pieces.map image) (pieces.flatMap spelled) := by
  induction pieces with
  | nil => exact .nil
  | cons piece pieces ih =>
    have first : piece.spelled ≠ [' '] := by
      rw [Ne, ← isSpace_iff, noSpace piece (by simp)]
      simp
    exact .cons (spells_image (read piece (by simp)) first)
      (ih (fun other member => read other (by simp [member]))
        (fun other member => noSpace other (by simp [member])))

theorem spaces_eq {pieces : List Piece} (spaces : ∀ piece ∈ pieces, piece.isSpace) :
    pieces.map image = List.replicate pieces.length ' ' ∧
      pieces.flatMap spelled = List.replicate pieces.length ' ' := by
  induction pieces with
  | nil => exact ⟨rfl, rfl⟩
  | cons piece pieces ih =>
    obtain ⟨images, spellings⟩ := ih fun other member => spaces other (by simp [member])
    have first := spaces piece (by simp)
    cases piece with
    | bare c stands =>
      have space : c = ' ' := by simpa [isSpace] using first
      simp [images, spellings, image, spelled, space, List.replicate_succ]
    | letter c found means => cases first
    | unit code => cases first

theorem spelled_starts {piece : Piece} (read : piece.IsRead) (noSpace : piece.isSpace = false)
    (tail : List Char) :
    (piece.spelled ++ tail).head?.all (fun c => !Yaml.isBlank c && !isBreak c) := by
  cases piece with
  | bare c stands =>
    have tab : c ≠ '\t' := fun same => absurd stands.1 (by rw [same]; decide)
    have space : c ≠ ' ' := by simpa [isSpace] using noSpace
    simp [spelled, Yaml.isBlank, tab, space, read.2.1]
  | letter c found means => simp [spelled, Yaml.isBlank, isBreak]
  | unit code => simp [spelled, Yaml.isBlank, isBreak]

/-- A string is read as the characters of its pieces; the spaces of it are gaps. -/
theorem quoted_images (pieces : List Piece) (read : ∀ piece ∈ pieces, piece.IsRead) :
    Scalar.Quoted false (pieces.map image) (pieces.flatMap spelled ++ ['"']) := by
  induction h : pieces.length using Nat.strongRecOn generalizing pieces with
  | ind n ih =>
    obtain ⟨run, rest, rfl, inside, stops⟩ := exists_run (fun piece => !piece.isSpace) pieces
    have reads := @run_images run (fun piece member => read piece (by simp [member]))
      (fun piece member => by simpa using inside piece member)
    cases rest with
    | nil => simpa [Yaml.Scalar.quote] using Scalar.Quoted.last reads
    | cons space rest =>
      obtain ⟨spaces, later, rest_, blanks, starts⟩ := exists_run isSpace rest
      have first : space.isSpace := by simpa using stops space rfl
      have all : ∀ piece ∈ space :: spaces, piece.isSpace := by
        simpa [first] using blanks
      obtain ⟨images, spellings⟩ := spaces_eq all
      have quoted := ih later.length (by simp [← h, rest_]; omega) later
        (fun piece member => read piece (by simp [rest_, member])) rfl
      have begins : (later.flatMap spelled ++ ['"']).head?.all
          (fun c => !Yaml.isBlank c && !isBreak c) := by
        cases later with
        | nil => decide
        | cons piece later =>
          rw [List.flatMap_cons, List.append_assoc]
          exact spelled_starts (read piece (by simp [rest_])) (starts piece rfl) _
      have whole := Scalar.Quoted.gap reads (Yaml.Scalar.isGap_spaces spaces.length) quoted begins
      have split : run ++ space :: rest = run ++ ((space :: spaces) ++ later) := by rw [rest_]; rfl
      rw [split]
      simp only [List.map_append, List.flatMap_append, images, spellings]
      simpa using whole

end Piece

end ApiManifest.JsonSyntax
