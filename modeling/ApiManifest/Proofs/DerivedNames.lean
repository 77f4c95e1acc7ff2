import ApiManifest.Proofs.LowerCase
import ApiManifest.Proofs.Subdomains

/-!
Names made of text that may be anything: the name that a title gives to a manifest, and the system
name of an operation. Both are clean whatever the text was, and both stay as they are when a name
is made again of the name itself.
-/

namespace ApiManifest.Naming

open Gateway (Method)
open OpenApi (Operation)
open Text (isSettled isWordChar)

theorem lower_or_digit {c : Char} (kind : c.isAlphanum) (small : c.isUpper = false) :
    c.isLower || c.isDigit := by
  rw [Char.isAlphanum, Char.isAlpha, small, Bool.false_or] at kind
  exact kind

theorem isAlphanum_of_lower_or_digit {c : Char} (kind : c.isLower || c.isDigit) :
    c.isAlphanum := by
  rw [Char.isAlphanum, Char.isAlpha, Bool.or_assoc, kind, Bool.or_true]

theorem isSettled_of_lower_or_digit {c : Char} (kind : c.isLower || c.isDigit) : isSettled c := by
  have upper := Text.not_isUpper_iff c
  have range : (97 ≤ c.toNat ∧ c.toNat ≤ 122) ∨ (48 ≤ c.toNat ∧ c.toNat ≤ 57) := by
    simp only [Char.isLower, Char.isDigit, Bool.or_eq_true, Bool.and_eq_true, decide_eq_true_eq,
      ge_iff_le, UInt32.le_iff_toNat_le] at kind
    exact kind
  rw [isSettled, upper.2 (by omega), decide_eq_true (by omega)]
  rfl

section Titles

theorem lower_or_digit_of_mem {title : String} {c : Char}
    (member : c ∈ (titleLetters title).toList) :
    c.isLower || c.isDigit := by
  rw [titleLetters, String.toList_ofList, List.mem_filter] at member
  exact lower_or_digit member.2 (Text.not_isUpper_lower title c member.1)

theorem titleLetters_titleLetters (title : String) :
    titleLetters (titleLetters title) = titleLetters title := by
  have settled : ∀ c ∈ (titleLetters title).toList, isSettled c :=
    fun c member => isSettled_of_lower_or_digit (lower_or_digit_of_mem member)
  have kept : ∀ c ∈ (titleLetters title).toList, c.isAlphanum :=
    fun c member => isAlphanum_of_lower_or_digit (lower_or_digit_of_mem member)
  rw [titleLetters, Text.lower_settled settled, List.filter_eq_self.2 kept,
    String.ofList_toList]

theorem isLabel_titleLetters {title : String} (filled : titleLetters title ≠ "") :
    isLabel (titleLetters title).toList := by
  obtain ⟨c, rest, spelled⟩ : ∃ c rest, (titleLetters title).toList = c :: rest := by
    apply List.exists_cons_of_ne_nil
    rwa [Ne, String.toList_eq_nil_iff]
  have kind : ∀ d ∈ c :: rest, isLowerOrDigit d := by
    rw [← spelled]
    exact fun d member => lower_or_digit_of_mem member
  rw [spelled, isLabel_cons]
  refine ⟨kind c (by simp), fun d member => .inl (kind d (List.mem_cons_of_mem c member)), ?_⟩
  exact fun d last => kind d (List.mem_cons_of_mem c (List.mem_of_getLast? last))

/-- What is left of a title has no dots, so it is a subdomain of one label. -/
theorem isSubdomain_titleLetters {title : String} (filled : titleLetters title ≠ "") :
    isSubdomain (titleLetters title).toList := by
  have label := isLabel_titleLetters filled
  have alone : Text.splitOn '.' (dotted (titleLetters title).toList [])
      = [(titleLetters title).toList] :=
    splitOn_dotted (by simpa using noDot_of_isLabel label)
  rw [dotted, List.map_nil, List.flatten_nil, List.append_nil] at alone
  rw [isSubdomain, alone, List.all_cons, label]
  rfl

theorem resourceName_eq (title : String) : resourceName title =
    if titleLetters title = "" then .error (.invalidResourceName (titleLetters title) .empty)
    else if 253 < (titleLetters title).length then
      .error (.invalidResourceName (titleLetters title) .tooLong)
    else .ok (titleLetters title) := by
  rw [resourceName, checkSubdomain, subdomainLimit]
  by_cases empty : titleLetters title = ""
  · simp [empty]
  · have subdomain := isSubdomain_titleLetters empty
    by_cases long : 253 < (titleLetters title).length
    · simp [empty, long]
    · simp [empty, long, subdomain]

/-- What the lower-case form of a title has of letters and digits of ASCII, in their order. -/
def lowerAlphanumeric (title : String) : String :=
  String.ofList ((Text.lower title).toList.filter Char.isAlphanum)

/-- The name of a title is what its lower-case form has of letters and digits of ASCII, in their
order. It is refused only where that is nothing or more than a DNS subdomain may have: its form is
always that of a subdomain. A name is the name of itself. -/
theorem title_name_valid (title : String) :
    (∀ name, resourceName title = .ok name ↔ name = lowerAlphanumeric title ∧
        1 ≤ (lowerAlphanumeric title).length ∧ (lowerAlphanumeric title).length ≤ 253) ∧
      ((lowerAlphanumeric title).toList ∈ subdomainPattern.matches' ↔
        1 ≤ (lowerAlphanumeric title).length) ∧
      resourceName (lowerAlphanumeric title) = resourceName title ∧
      ∀ error, resourceName title = .error error ↔
        ((lowerAlphanumeric title).length = 0 ∧
          error = .invalidResourceName (lowerAlphanumeric title) .empty) ∨
        (253 < (lowerAlphanumeric title).length ∧
          error = .invalidResourceName (lowerAlphanumeric title) .tooLong) := by
  generalize named : lowerAlphanumeric title = letters
  have same : titleLetters title = letters := named
  have stable : titleLetters letters = letters := by
    rw [← same, titleLetters_titleLetters]
  have made := resourceName_eq title
  have madeAgain := resourceName_eq letters
  rw [same] at made
  rw [stable] at madeAgain
  have length_eq_zero : letters.length = 0 ↔ letters = "" := String.length_eq_zero_iff
  refine ⟨?_, ?_, madeAgain.trans made.symm, ?_⟩
  · intro name
    rw [made]
    by_cases empty : letters = ""
    · simp [empty]
    · by_cases long : 253 < letters.length
      · simp [empty, long]
      · have positive : 1 ≤ letters.length := Nat.one_le_iff_ne_zero.2 (mt length_eq_zero.1 empty)
        simp [empty, long, positive, Nat.le_of_not_lt long, eq_comm]
  · rw [← isSubdomain_iff_matches, ← same]
    constructor
    · intro subdomain
      by_contra short
      have empty : titleLetters title = "" := by
        rw [same, ← length_eq_zero]
        rw [same] at short
        omega
      rw [empty] at subdomain
      revert subdomain
      decide
    · intro positive
      apply isSubdomain_titleLetters
      intro empty
      rw [empty] at positive
      revert positive
      decide
  · intro error
    rw [made, length_eq_zero]
    by_cases empty : letters = ""
    · simp [empty, eq_comm]
    · by_cases long : 253 < letters.length
      · simp [empty, long, eq_comm]
      · simp [empty, long]

end Titles

section SystemNames

theorem operationName_ne_empty (path : String) (method : Method) (operation : Operation) :
    operationName path method operation ≠ "" := by
  have fallback : fallbackName path method ≠ "" := by
    intro empty
    rw [fallbackName, String.append_eq_empty_iff] at empty
    revert empty
    cases method <;> simp [Method.name]
  unfold operationName
  split
  · next id _ =>
    split
    · exact fallback
    · next filled =>
      simpa using filled
  · exact fallback

def cleaned (c : Char) : Char :=
  if isWordChar c then c else '_'

theorem toList_systemName (path : String) (method : Method) (operation : Operation) :
    (systemName path method operation).toList
      = (Text.lower (operationName path method operation)).toList.map cleaned :=
  String.toList_ofList

theorem cleaned_kind {c : Char} (small : c.isUpper = false) :
    ((cleaned c).isLower || (cleaned c).isDigit) ∨ cleaned c = '_' := by
  unfold cleaned
  split
  · next word =>
    rw [isWordChar, Bool.or_eq_true, decide_eq_true_eq] at word
    exact word.imp (fun kind => lower_or_digit kind small) id
  · exact .inr rfl

theorem kind_of_mem {path : String} {method : Method} {operation : Operation} {c : Char}
    (member : c ∈ (systemName path method operation).toList) :
    (c.isLower || c.isDigit) ∨ c = '_' := by
  rw [toList_systemName] at member
  obtain ⟨d, listed, rfl⟩ := List.mem_map.1 member
  exact cleaned_kind (Text.not_isUpper_lower _ d listed)

theorem systemName_ne_empty (path : String) (method : Method) (operation : Operation) :
    systemName path method operation ≠ "" := by
  have filled := Text.lower_ne_empty (operationName_ne_empty path method operation)
  intro empty
  rw [← String.toList_eq_nil_iff, toList_systemName, List.map_eq_nil_iff,
    String.toList_eq_nil_iff] at empty
  exact filled empty

theorem systemName_of_clean {name : String} (filled : name ≠ "")
    (clean : ∀ c ∈ name.toList, (c.isLower || c.isDigit) ∨ c = '_') (path : String)
    (method : Method) (operation : Operation) :
    systemName path method { operation with operationId := some name } = name := by
  have identified :
      operationName path method { operation with operationId := some name } = name := by
    simp [operationName, filled]
  have settled : ∀ c ∈ name.toList, isSettled c := by
    intro c member
    rcases clean c member with kind | rfl
    · exact isSettled_of_lower_or_digit kind
    · decide
  have kept : ∀ c ∈ name.toList, cleaned c = c := by
    intro c member
    apply if_pos
    rw [isWordChar, Bool.or_eq_true, decide_eq_true_eq]
    exact (clean c member).imp isAlphanum_of_lower_or_digit id
  rw [← String.toList_inj, toList_systemName, identified, Text.lower_settled settled]
  exact (List.map_congr_left kept).trans (List.map_id _)

/-- The system name of an operation is never empty and has only lower-case letters, digits and
underscores. It has one character for each of the operation's name in lower case: that character
if it is a letter, a digit or an underscore, and otherwise an underscore. An operation that it
identifies has it as its system name too, whatever path and method. -/
theorem system_name_clean (path : String) (method : Method) (operation : Operation) :
    let name := systemName path method operation
    let lowered := Text.lower (operationName path method operation)
    name ≠ "" ∧ name.toList.all (fun c => c.isLower || c.isDigit || c = '_') ∧
      name.length = lowered.length ∧
      List.Forall₂ (fun c d => d = if c.isAlphanum || c = '_' then c else '_')
        lowered.toList name.toList ∧
      ∀ (path : String) (method : Method) (operation : Operation),
        systemName path method { operation with operationId := some name } = name := by
  intro name lowered
  have spelled : name.toList = lowered.toList.map cleaned := toList_systemName path method operation
  have filled : name ≠ "" := systemName_ne_empty path method operation
  refine ⟨filled, ?_, ?_, ?_, ?_⟩
  · rw [List.all_eq_true]
    intro c member
    rw [Bool.or_eq_true, decide_eq_true_eq]
    exact kind_of_mem member
  · rw [← String.length_toList, ← String.length_toList, spelled, List.length_map]
  · rw [spelled, List.forall₂_map_right_iff, List.forall₂_same]
    intro c _
    rw [cleaned, isWordChar]
  · exact systemName_of_clean filled (fun c member => kind_of_mem member)

end SystemNames

end ApiManifest.Naming
