import ApiManifest.Naming
import Mathlib

/-!
DNS subdomains as a regular expression: labels with dots between them, each label of lower-case
letters, digits and dashes and with no dash at either end. The texts it matches are those that
`isSubdomain` accepts.
-/

namespace ApiManifest.Naming

open RegularExpression Text

def oneOf (chars : List Char) : RegularExpression Char :=
  chars.foldr (fun c others => char c + others) 0

def lettersAndDigits : List Char :=
  "abcdefghijklmnopqrstuvwxyz0123456789".toList

def labelPattern : RegularExpression Char :=
  oneOf lettersAndDigits
    * (1 + star (oneOf ('-' :: lettersAndDigits)) * oneOf lettersAndDigits)

def subdomainPattern : RegularExpression Char :=
  labelPattern * star (char '.' * labelPattern)

theorem mem_oneOf {chars text : List Char} :
    text ∈ (oneOf chars).matches' ↔ ∃ c ∈ chars, text = [c] := by
  induction chars with
  | nil => simp [oneOf, matches'_zero]
  | cons c chars ih =>
    have split_ : oneOf (c :: chars) = char c + oneOf chars := rfl
    have single : text ∈ (char c).matches' ↔ text = [c] := Iff.rfl
    rw [split_, matches'_add, Language.mem_add, ih, single]
    simp

theorem mem_star_oneOf {chars text : List Char} :
    text ∈ (star (oneOf chars)).matches' ↔ ∀ c ∈ text, c ∈ chars := by
  rw [matches'_star, Language.mem_kstar]
  constructor
  · rintro ⟨pieces, rfl, matched⟩ c member
    obtain ⟨piece, listed, member⟩ := List.mem_flatten.1 member
    obtain ⟨d, known, rfl⟩ := mem_oneOf.1 (matched piece listed)
    rw [List.mem_singleton.1 member]
    exact known
  · intro known
    refine ⟨text.map (fun c => [c]), ?_, ?_⟩
    · rw [← List.flatMap_def, List.flatMap_singleton']
    · intro piece listed
      obtain ⟨c, member, rfl⟩ := List.mem_map.1 listed
      exact mem_oneOf.2 ⟨c, known c member, rfl⟩

theorem isLowerOrDigit_iff (c : Char) : isLowerOrDigit c ↔ c ∈ lettersAndDigits := by
  have small : ∀ n < 128, isLowerOrDigit (Char.ofNat n) ↔ Char.ofNat n ∈ lettersAndDigits := by
    decide +kernel
  by_cases ascii : c.toNat < 128
  · rw [← Char.ofNat_toNat c]
    exact small c.toNat ascii
  · have bounded : lettersAndDigits.all (fun d => d.toNat < 128) := by decide +kernel
    constructor
    · intro kind
      simp only [isLowerOrDigit, Char.isLower, Char.isDigit, Bool.or_eq_true, Bool.and_eq_true,
        decide_eq_true_eq, ge_iff_le, UInt32.le_iff_toNat_le] at kind
      exfalso
      apply ascii
      rcases kind with kind | kind
      · exact lt_of_le_of_lt kind.2 (by decide)
      · exact lt_of_le_of_lt kind.2 (by decide)
    · intro member
      exact absurd (of_decide_eq_true (List.all_eq_true.1 bounded c member)) ascii

theorem isLabel_cons (c : Char) (text : List Char) : isLabel (c :: text) ↔
    isLowerOrDigit c ∧ (∀ d ∈ text, isLowerOrDigit d ∨ d = '-') ∧
      ∀ d ∈ text.getLast?, isLowerOrDigit d := by
  rcases List.eq_nil_or_concat text with rfl | ⟨before, last, rfl⟩
  · simp +contextual [isLabel]
  · simp only [isLabel, List.concat_eq_append, Bool.and_eq_true, List.all_eq_true,
      Option.any_some, Bool.or_eq_true, decide_eq_true_eq, ← List.cons_append,
      List.getLast?_append, List.getLast?_singleton, Option.some_or, Option.mem_def,
      Option.some.injEq, forall_eq']
    constructor
    · rintro ⟨⟨all, first⟩, last⟩
      exact ⟨first, fun d member => all d (List.mem_cons_of_mem c member), last⟩
    · rintro ⟨first, all, last⟩
      refine ⟨⟨?_, first⟩, last⟩
      intro d member
      rcases List.mem_cons.1 member with rfl | member
      · exact .inl first
      · exact all d member

/-- A label is one letter or digit, or one before and one after letters, digits and dashes. -/
theorem mem_labelPattern (text : List Char) : text ∈ labelPattern.matches' ↔ isLabel text := by
  have dashed (middle : List Char) : (∀ c ∈ middle, c ∈ '-' :: lettersAndDigits) ↔
      ∀ c ∈ middle, isLowerOrDigit c ∨ c = '-' := by
    simp only [List.mem_cons, isLowerOrDigit_iff, or_comm]
  rw [labelPattern, matches'_mul, Language.mem_mul]
  constructor
  · rintro ⟨first, single, rest, more, rfl⟩
    obtain ⟨c, known, rfl⟩ := mem_oneOf.1 single
    rw [matches'_add, Language.mem_add, matches'_epsilon, Language.mem_one] at more
    refine (isLabel_cons c rest).2 ⟨(isLowerOrDigit_iff c).2 known, ?_⟩
    rcases more with rfl | more
    · simp
    · rw [matches'_mul, Language.mem_mul] at more
      obtain ⟨middle, between, last, single, rfl⟩ := more
      obtain ⟨d, ends, rfl⟩ := mem_oneOf.1 single
      rw [mem_star_oneOf, dashed] at between
      rw [← isLowerOrDigit_iff] at ends
      refine ⟨?_, by simpa using ends⟩
      intro e member
      rcases List.mem_append.1 member with member | member
      · exact between e member
      · rw [List.mem_singleton.1 member]
        exact .inl ends
  · intro label
    cases text with
    | nil => simp [isLabel] at label
    | cons c rest =>
      obtain ⟨first, all, last⟩ := (isLabel_cons c rest).1 label
      refine ⟨[c], mem_oneOf.2 ⟨c, (isLowerOrDigit_iff c).1 first, rfl⟩, rest, ?_, rfl⟩
      rw [matches'_add, Language.mem_add, matches'_epsilon, Language.mem_one]
      rcases List.eq_nil_or_concat rest with rfl | ⟨middle, d, rfl⟩
      · exact .inl rfl
      · right
        rw [List.concat_eq_append] at all last ⊢
        have ends : isLowerOrDigit d := last d (by simp)
        rw [matches'_mul, Language.mem_mul]
        refine ⟨middle, ?_, [d], mem_oneOf.2 ⟨d, (isLowerOrDigit_iff d).1 ends, rfl⟩, rfl⟩
        rw [mem_star_oneOf, dashed]
        exact fun e member => all e (List.mem_append_left _ member)

/-- Parts with a dot before each but the first. -/
def dotted (first : List Char) (rest : List (List Char)) : List Char :=
  first ++ (rest.map (fun part => '.' :: part)).flatten

theorem splitOn_dot (text : List Char) : splitOn '.' ('.' :: text) = [] :: splitOn '.' text := rfl

theorem splitOn_cons {c : Char} (other : c ≠ '.') {text part : List Char}
    {rest : List (List Char)} (split_ : splitOn '.' text = part :: rest) :
    splitOn '.' (c :: text) = (c :: part) :: rest := by
  unfold splitOn at split_ ⊢
  rw [List.foldr_cons, split_, if_neg other]

theorem exists_splitOn (text : List Char) :
    ∃ first rest, splitOn '.' text = first :: rest ∧ text = dotted first rest := by
  induction text with
  | nil => exact ⟨[], [], rfl, rfl⟩
  | cons c text ih =>
    obtain ⟨first, rest, split_, spelled⟩ := ih
    by_cases dot : c = '.'
    · refine ⟨[], first :: rest, ?_, ?_⟩
      · rw [dot, splitOn_dot, split_]
      · rw [dot, spelled]
        simp [dotted]
    · refine ⟨c :: first, rest, splitOn_cons dot split_, ?_⟩
      rw [spelled]
      simp [dotted]

theorem splitOn_dotted {first : List Char} {rest : List (List Char)}
    (noDot : ∀ part ∈ first :: rest, '.' ∉ part) :
    splitOn '.' (dotted first rest) = first :: rest := by
  induction rest generalizing first with
  | nil =>
    induction first with
    | nil => rfl
    | cons c first ih =>
      have here : '.' ∉ c :: first := noDot _ (by simp)
      have split_ := ih (by simpa using fun dot => here (List.mem_cons_of_mem c dot))
      exact splitOn_cons (fun dot => here (by simp [dot])) split_
  | cons second rest later =>
    induction first with
    | nil =>
      have split_ := @later second (fun part member => noDot part (List.mem_cons_of_mem _ member))
      have spelled : dotted [] (second :: rest) = '.' :: dotted second rest := by simp [dotted]
      rw [spelled, splitOn_dot, split_]
    | cons c first ih =>
      have here : '.' ∉ c :: first := noDot _ (by simp)
      have split_ := ih (by
        intro part member
        rcases List.mem_cons.1 member with rfl | member
        · exact fun dot => here (List.mem_cons_of_mem c dot)
        · exact noDot part (List.mem_cons_of_mem _ member))
      exact splitOn_cons (fun dot => here (by simp [dot])) split_

theorem noDot_of_isLabel {text : List Char} (label : isLabel text) : '.' ∉ text := by
  intro dot
  simp only [isLabel, Bool.and_eq_true, List.all_eq_true] at label
  exact absurd (label.1.1 '.' dot) (by decide)

theorem mem_dottedLabels (text : List Char) :
    text ∈ (star (char '.' * labelPattern)).matches' ↔
      ∃ rest : List (List Char), (∀ part ∈ rest, isLabel part) ∧
        text = (rest.map (fun part => '.' :: part)).flatten := by
  have dottedLabel (piece : List Char) : piece ∈ (char '.' * labelPattern).matches' ↔
      ∃ part, isLabel part ∧ piece = '.' :: part := by
    rw [matches'_mul, Language.mem_mul]
    constructor
    · rintro ⟨_, rfl, part, label, rfl⟩
      exact ⟨part, (mem_labelPattern part).1 label, rfl⟩
    · rintro ⟨part, label, rfl⟩
      exact ⟨['.'], rfl, part, (mem_labelPattern part).2 label, rfl⟩
  rw [matches'_star, Language.mem_kstar]
  constructor
  · rintro ⟨pieces, rfl, matched⟩
    have parts (piece : List Char) (listed : piece ∈ pieces) :
        isLabel piece.tail ∧ '.' :: piece.tail = piece := by
      obtain ⟨part, label, rfl⟩ := (dottedLabel piece).1 (matched piece listed)
      exact ⟨label, rfl⟩
    refine ⟨pieces.map List.tail, ?_, ?_⟩
    · intro part member
      obtain ⟨piece, listed, rfl⟩ := List.mem_map.1 member
      exact (parts piece listed).1
    · have same := List.map_congr_left (g := id) (fun piece listed => (parts piece listed).2)
      rw [List.map_map]
      exact congrArg List.flatten (same.trans (List.map_id pieces)).symm
  · rintro ⟨rest, labels, rfl⟩
    refine ⟨_, rfl, ?_⟩
    intro piece listed
    obtain ⟨part, member, rfl⟩ := List.mem_map.1 listed
    exact (dottedLabel _).2 ⟨part, labels part member, rfl⟩

/-- The texts that are accepted as DNS subdomains are those that the pattern matches. -/
theorem isSubdomain_iff_matches (text : List Char) :
    isSubdomain text ↔ text ∈ subdomainPattern.matches' := by
  rw [subdomainPattern, matches'_mul, Language.mem_mul]
  constructor
  · intro subdomain
    obtain ⟨first, rest, split_, spelled⟩ := exists_splitOn text
    rw [isSubdomain, split_, List.all_eq_true] at subdomain
    refine ⟨first, ?_, _, ?_, spelled.symm⟩
    · exact (mem_labelPattern first).2 (subdomain first (by simp))
    · rw [mem_dottedLabels]
      exact ⟨rest, fun part member => subdomain part (List.mem_cons_of_mem _ member), rfl⟩
  · rintro ⟨first, label, tail, more, rfl⟩
    obtain ⟨rest, labels, rfl⟩ := (mem_dottedLabels tail).1 more
    have all : ∀ part ∈ first :: rest, isLabel part := by
      intro part member
      rcases List.mem_cons.1 member with rfl | member
      · exact (mem_labelPattern _).1 label
      · exact labels part member
    have split_ := splitOn_dotted (fun part member => noDot_of_isLabel (all part member))
    rw [isSubdomain, ← dotted, split_, List.all_eq_true]
    exact all

end ApiManifest.Naming
