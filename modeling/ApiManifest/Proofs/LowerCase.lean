import ApiManifest.Text.LowerCase
import Mathlib

/-!
What lower-casing leaves of a text: no capital letter of ASCII, whatever the text was, and all of a
text that has none and nothing beyond ASCII. So a second time changes nothing of what is ASCII.
-/

namespace ApiManifest.Text

/-- The characters of ASCII that lower-casing leaves as they are. -/
def isSettled (c : Char) : Bool :=
  decide (c.toNat < 128) && !c.isUpper

theorem not_isUpper_iff (c : Char) : c.isUpper = false ↔ c.toNat < 65 ∨ 90 < c.toNat := by
  have upper : c.isUpper = true ↔ 65 ≤ c.toNat ∧ c.toNat ≤ 90 := by
    simp only [Char.isUpper, decide_eq_true_eq, ge_iff_le,
      UInt32.le_iff_toNat_le]
    rfl
  rw [← Bool.not_eq_true, upper]
  omega

theorem lowerRuns_past : ∀ run ∈ lowerRuns, 90 < run.2.2.2 := by
  decide +kernel

theorem lt_of_runImage {code image : Nat} {run : Nat × Nat × Nat × Nat}
    (mapped : runImage code run = some image) (past : 90 < run.2.2.2) : 90 < image := by
  unfold runImage at mapped
  split at mapped
  · rw [Option.some.injEq] at mapped
    omega
  · cases mapped

theorem not_isUpper_ofNat {code : Nat} (past : 90 < code) : (Char.ofNat code).isUpper = false := by
  rw [not_isUpper_iff]
  by_cases valid : code.isValidChar
  · right
    rw [Char.toNat_ofNat, if_pos valid]
    exact past
  · left
    rw [Char.toNat_ofNat, if_neg valid]
    decide

theorem not_isUpper_lowerChar (c : Char) : ∀ d ∈ lowerChar c, d.isUpper = false := by
  intro d member
  unfold lowerChar at member
  split at member
  · rw [List.mem_singleton.1 member]
    exact Char.isUpper_toLower_eq_false c
  · next beyond =>
    split at member
    · rcases List.mem_cons.1 member with rfl | member
      · decide
      · rw [List.mem_singleton.1 member]
        decide
    · split at member
      · next image found =>
        obtain ⟨run, listed, mapped⟩ := List.exists_of_findSome?_eq_some found
        rw [List.mem_singleton.1 member]
        exact not_isUpper_ofNat (lt_of_runImage mapped (lowerRuns_past run listed))
      · rw [List.mem_singleton.1 member, not_isUpper_iff]
        omega

theorem not_isUpper_lowerFrom (before text : List Char) :
    ∀ d ∈ lowerFrom before text, d.isUpper = false := by
  induction text generalizing before with
  | nil => simp [lowerFrom]
  | cons c rest ih =>
    intro d member
    rw [lowerFrom] at member
    rcases List.mem_append.1 member with here | later
    · split at here
      · split at here <;> rw [List.mem_singleton.1 here] <;> decide
      · exact not_isUpper_lowerChar c d here
    · exact ih _ d later

theorem not_isUpper_lower (text : String) : ∀ d ∈ (lower text).toList, d.isUpper = false := by
  rw [lower, String.toList_ofList]
  exact not_isUpper_lowerFrom [] text.toList

theorem lowerChar_settled {c : Char} (settled : isSettled c) : lowerChar c = [c] := by
  simp only [isSettled, Bool.and_eq_true, decide_eq_true_eq, Bool.not_eq_true'] at settled
  rw [lowerChar, if_pos settled.1, Char.toLower_eq_of_not_isUpper (by simp [settled.2])]

theorem lowerFrom_settled (before : List Char) {text : List Char}
    (settled : ∀ c ∈ text, isSettled c) : lowerFrom before text = text := by
  induction text generalizing before with
  | nil => rfl
  | cons c rest ih =>
    have here : isSettled c := settled c (by simp)
    have notSigma : c ≠ '\u03a3' := by
      rintro rfl
      revert here
      decide
    rw [lowerFrom, ih _ (fun d member => settled d (by simp [member])), if_neg notSigma,
      lowerChar_settled here]
    rfl

theorem lower_settled {text : String} (settled : ∀ c ∈ text.toList, isSettled c) :
    lower text = text := by
  rw [lower, lowerFrom_settled [] settled, String.ofList_toList]

theorem lowerChar_ne_nil (c : Char) : lowerChar c ≠ [] := by
  unfold lowerChar
  split
  · exact List.cons_ne_nil _ _
  · split
    · exact List.cons_ne_nil _ _
    · split <;> exact List.cons_ne_nil _ _

/-- No character is lost, so no text becomes empty. -/
theorem lower_ne_empty {text : String} (filled : text ≠ "") : lower text ≠ "" := by
  obtain ⟨c, rest, spelled⟩ : ∃ c rest, text.toList = c :: rest := by
    apply List.exists_cons_of_ne_nil
    rwa [Ne, String.toList_eq_nil_iff]
  rw [Ne, ← String.toList_eq_nil_iff, lower, String.toList_ofList, spelled, lowerFrom]
  intro empty
  have image := (List.append_eq_nil_iff.1 empty).1
  split at image
  · split at image <;> cases image
  · exact lowerChar_ne_nil c image

end ApiManifest.Text
