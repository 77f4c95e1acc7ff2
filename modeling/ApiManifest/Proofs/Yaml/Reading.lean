import Mathlib
import ApiManifest.Proofs.Lists
import ApiManifest.Yaml.Token.Gap
import ApiManifest.Yaml.Written

/-!
Places in a text after a piece of it has been read, and the white space between two pieces of a
scalar. Every reader of scalars is described by the piece of text it passes over.
-/

namespace ApiManifest.Yaml

theorem ne_of_notBlank {c : Char} (noBlank : isBlank c = false) : c ≠ ' ' ∧ c ≠ '\t' := by
  simpa [isBlank] using noBlank

theorem ne_of_isBreak {c : Char} (break_ : isBreak c) : c ≠ ' ' ∧ c ≠ '\t' := by
  constructor <;>
  · rintro rfl
    revert break_
    decide

namespace Cursor

def pass (cursor : Cursor) (c : Char) : Cursor :=
  if isBreak c then cursor.skipBreak else cursor.skip 1

/-- The place after a piece of text that stands here. -/
def past (cursor : Cursor) (piece : List Char) : Cursor :=
  piece.foldl pass cursor

variable {cursor : Cursor} {piece tail : List Char}

@[simp]
theorem past_nil (cursor : Cursor) : cursor.past [] = cursor := rfl

@[simp]
theorem past_cons (cursor : Cursor) (c : Char) (piece : List Char) :
    cursor.past (c :: piece) = (cursor.pass c).past piece := rfl

theorem past_append (cursor : Cursor) (first second : List Char) :
    cursor.past (first ++ second) = (cursor.past first).past second := by
  simp [past]

theorem pass_rest {c : Char} (here : cursor.rest = c :: tail) : (cursor.pass c).rest = tail := by
  unfold pass
  split <;> simp [skip, skipBreak, here]

theorem past_rest (here : cursor.rest = piece ++ tail) : (cursor.past piece).rest = tail := by
  induction piece generalizing cursor with
  | nil => simpa using here
  | cons c piece ih => exact ih (pass_rest (by simpa using here))

/-- Less of the text remains after a piece of it, so that a run over tokens ends. -/
theorem past_shorter (here : cursor.rest = piece ++ tail) (nonempty : piece ≠ []) :
    (cursor.past piece).rest.length < cursor.rest.length := by
  have some_ := List.length_pos_of_ne_nil nonempty
  rw [past_rest here, here, List.length_append]
  omega

theorem skip_skip (cursor : Cursor) (first second : Nat) :
    (cursor.skip first).skip second = cursor.skip (first + second) := by
  simp [skip, Nat.add_assoc]

@[simp]
theorem skip_zero (cursor : Cursor) : cursor.skip 0 = cursor := rfl

theorem past_of_line (line : ∀ c ∈ piece, isBreak c = false) :
    cursor.past piece = cursor.skip piece.length := by
  induction piece generalizing cursor with
  | nil => simp [skip]
  | cons c piece ih =>
    have rest := @ih (cursor.pass c) (fun d hd => line d (by simp [hd]))
    simp only [past_cons, rest]
    simp [pass, line c, skip_skip, Nat.add_comm]

@[simp]
theorem past_pad (cursor : Cursor) (count : Nat) :
    cursor.past (Written.pad count) = cursor.skip count := by
  have line : ∀ c ∈ Written.pad count, isBreak c = false := by
    intro c member
    rw [List.eq_of_mem_replicate member]
    decide
  rw [past_of_line line, Written.pad, List.length_replicate]

theorem column_past_pad {breaks : List Char} (all : ∀ c ∈ breaks, isBreak c)
    (starts : cursor.column = 0) (count : Nat) :
    (cursor.past (breaks ++ Written.pad count)).column = count := by
  induction breaks generalizing cursor with
  | nil => simp [skip, starts]
  | cons c breaks ih =>
    exact ih (fun d member => all d (by simp [member])) (by simp [pass, all c, skipBreak])

theorem pass_line_le (cursor : Cursor) (c : Char) : cursor.line ≤ (cursor.pass c).line := by
  unfold pass
  split <;> simp [skip, skipBreak]

theorem past_line_le (cursor : Cursor) (piece : List Char) :
    cursor.line ≤ (cursor.past piece).line := by
  induction piece generalizing cursor with
  | nil => simp
  | cons c piece ih => exact Nat.le_trans (pass_line_le cursor c) (ih (cursor.pass c))

theorem past_line_lt (breaks : piece.any isBreak) : cursor.line < (cursor.past piece).line := by
  induction piece generalizing cursor with
  | nil => simp at breaks
  | cons c piece ih =>
    by_cases h : isBreak c
    · have later := past_line_le (cursor.pass c) piece
      have first : (cursor.pass c).line = cursor.line + 1 := by simp [pass, h, skipBreak]
      simp only [past_cons]
      omega
    · have later := @ih (cursor.pass c) (by simpa [h] using breaks)
      have first := pass_line_le cursor c
      simp only [past_cons]
      omega

end Cursor

namespace Gap

def take (gap : Gap) (c : Char) : Gap :=
  if isBreak c then gap.addBreak c else gap.addBlank c

variable {gap : Gap} {cursor : Cursor} {least : Option Nat} {white tail : List Char} {fuel : Nat}

/-- White space is read up to its end. Tabs may begin a line only where no column is asked for. -/
theorem read_white (here : cursor.rest = white ++ tail)
    (kind : ∀ c ∈ white, isBlank c ∨ isBreak c) (tabs : '\t' ∈ white → ∀ column ∈ least, column = 0)
    (stops : tail.head?.all (fun c => !isBlank c && !isBreak c))
    (enough : white.length ≤ fuel) :
    Gap.read least gap cursor fuel = some (white.foldl take gap, cursor.past white) := by
  induction fuel generalizing gap cursor white with
  | zero =>
    have empty : white = [] := List.length_eq_zero_iff.mp (by omega)
    simp [empty, Gap.read]
  | succ fuel ih =>
    cases white with
    | nil =>
      simp only [List.nil_append] at here
      unfold Gap.read
      cases tail with
      | nil => simp [here]
      | cons c tail => simp_all
    | cons c white =>
      have later := @ih (gap.take c) (cursor.pass c) white (Cursor.pass_rest (by simpa using here))
        (fun d hd => kind d (by simp [hd])) (fun tab => tabs (by simp [tab])) (by simpa using enough)
      unfold Gap.read
      simp only [here, List.cons_append, List.foldl_cons, Cursor.past_cons, ← later]
      by_cases blank : isBlank c
      · have noBreak : isBreak c = false := by
          simp only [isBlank, Bool.or_eq_true, decide_eq_true_eq] at blank
          rcases blank with rfl | rfl <;> decide
        have allowed : (c = '\t' && least.any (fun column => cursor.column < column)) = false := by
          by_cases tab : c = '\t'
          · have free := tabs (by simp [tab])
            cases least with
            | none => simp
            | some column => simp [free column rfl]
          · simp [tab]
        simp [take, Cursor.pass, blank, noBreak, Bool.and_assoc, allowed]
      · have breaks : isBreak c := (kind c (by simp)).resolve_left blank
        simp [take, Cursor.pass, blank, breaks]

theorem read_eq (here : cursor.rest = white ++ tail)
    (kind : ∀ c ∈ white, c = ' ' ∨ isBreak c)
    (stops : tail.head?.all (fun c => !isBlank c && !isBreak c))
    (enough : white.length ≤ fuel) :
    Gap.read least gap cursor fuel = some (white.foldl take gap, cursor.past white) := by
  have noTab : '\t' ∉ white := by
    intro tab
    have other := kind '\t' tab
    revert other
    decide
  apply read_white here _ (fun tab => absurd tab noTab) stops enough
  exact fun c member => (kind c member).imp (fun space => by simp [isBlank, space]) id

theorem foldl_spaces (count : Nat) (blanks : List Char) :
    (List.replicate count ' ').foldl take { blanks := blanks }
      = { blanks := blanks ++ List.replicate count ' ' } := by
  induction count generalizing blanks with
  | zero => simp
  | succ count ih =>
    simp only [List.replicate_succ, List.foldl_cons]
    rw [show take { blanks := blanks } ' ' = { blanks := blanks ++ [' '] } from rfl, ih]
    simp

theorem foldl_pad (broken : gap.broken) (count : Nat) :
    (List.replicate count ' ').foldl take gap = gap := by
  induction count with
  | zero => rfl
  | succ count ih =>
    simp only [List.replicate_succ, List.foldl_cons]
    rw [show take gap ' ' = gap by simp [take, addBlank, isBreak, broken], ih]

theorem foldl_breaks (breaks : List Char) (all : ∀ c ∈ breaks, isBreak c) (first : Char)
    (later : List Char) :
    breaks.foldl take { first := some first, later := later, broken := true }
      = { first := some first, later := later ++ breaks, broken := true } := by
  induction breaks generalizing later with
  | nil => simp
  | cons c breaks ih =>
    have kind := all c (by simp)
    simp only [List.foldl_cons]
    rw [show take { first := some first, later := later, broken := true } c
        = { first := some first, later := later ++ [c], broken := true } by
      simp [take, kind, addBreak]]
    rw [ih (fun d hd => all d (by simp [hd]))]
    simp

theorem fold_spaces (count : Nat) :
    ((List.replicate count ' ').foldl take {}).fold = List.replicate count ' ' := by
  rw [foldl_spaces]
  simp [fold]

/-- Breaks other than the line feed, and the indent after them, stand for the breaks. -/
theorem fold_breaks (breaks : List Char) (all : ∀ c ∈ breaks, isBreak c) (nonempty : breaks ≠ [])
    (separators : '\n' ∉ breaks) (count : Nat) :
    ((breaks ++ List.replicate count ' ').foldl take {}).fold = breaks := by
  obtain ⟨first, later, rfl⟩ := List.exists_cons_of_ne_nil nonempty
  have kind := all first (by simp)
  have other : first ≠ '\n' := fun h => separators (by simp [h])
  rw [List.foldl_append, List.foldl_cons,
    show take {} first = { first := some first, later := [], broken := true } by
      simp [take, kind, addBreak],
    foldl_breaks later (fun d hd => all d (by simp [hd])), foldl_pad rfl]
  simp [fold]

end Gap

end ApiManifest.Yaml
