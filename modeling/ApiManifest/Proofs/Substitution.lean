import Mathlib.Data.List.Infix
import ApiManifest.Proofs.ServerUrls

/-!
How the variables in a server's URL are replaced. A name in braces is a variable if it is a word,
made of letters, digits and underscores. One pass from the left replaces every variable, which comes
to the same as taking the first variable each time, since no two of them overlap. What is put in is
not looked at again, and all other text stays, stray braces and names that are no words included.
-/

namespace ApiManifest.OpenApi

open Text (isWordChar)

structure IsWord (name : List Char) : Prop where
  filled : name ≠ []
  characters : ∀ c ∈ name, isWordChar c = true

instance (name : List Char) : Decidable (IsWord name) :=
  decidable_of_iff (name ≠ [] ∧ name.all isWordChar = true)
    ⟨fun word => ⟨word.1, List.all_eq_true.1 word.2⟩,
      fun word => ⟨word.filled, List.all_eq_true.2 word.characters⟩⟩

def braced (name : List Char) : List Char :=
  '\x7b' :: (name ++ ['\x7d'])

theorem braced_append (name rest : List Char) :
    braced name ++ rest = '\x7b' :: (name ++ '\x7d' :: rest) := by
  simp [braced]

def BeginsVariable (text : List Char) : Prop :=
  ∃ name, IsWord name ∧ braced name <+: text

theorem placeholder?_of_braced {name : List Char} (word : IsWord name) (rest : List Char) :
    placeholder? (name ++ '\x7d' :: rest) = some (name, rest) :=
  placeholder?_eq_some_iff.2 ⟨word.filled, word.characters, rfl⟩

theorem placeholder?_eq_none_iff {text : List Char} :
    placeholder? text = none ↔ ¬ BeginsVariable ('\x7b' :: text) := by
  constructor
  · rintro absent ⟨name, word, rest, whole⟩
    rw [braced_append, List.cons.injEq] at whole
    rw [← whole.2, placeholder?_of_braced word] at absent
    cases absent
  · intro none
    cases found : placeholder? text with
    | none => rfl
    | some pair =>
      obtain ⟨filled, characters, rfl⟩ := placeholder?_eq_some_iff.1 found
      exact absurd ⟨pair.1, ⟨filled, characters⟩, pair.2, braced_append _ _⟩ none

theorem eq_of_braced_first {name other rest : List Char} (word : IsWord name)
    (otherWord : IsWord other) (here : braced other <+: braced name ++ rest) : other = name := by
  obtain ⟨after, whole⟩ := here
  rw [braced_append, braced_append, List.cons.injEq] at whole
  have found := placeholder?_of_braced otherWord after
  rw [whole.2, placeholder?_of_braced word] at found
  cases found
  rfl

/-! ### One step of a pass -/

section Steps

variable {value : String → String}

theorem substitute_variable {name : List Char} (word : IsWord name) (rest : List Char) :
    substitute value (braced name ++ rest) =
      (value (String.ofList name)).toList ++ substitute value rest := by
  have found := placeholder?_of_braced word rest
  rw [braced_append, substitute, if_pos rfl]
  split
  next other after same =>
    cases found.symm.trans same
    rfl
  next absent =>
    rw [found] at absent
    cases absent

theorem substitute_kept {c : Char} {rest : List Char} (free : ¬ BeginsVariable (c :: rest)) :
    substitute value (c :: rest) = c :: substitute value rest := by
  rw [substitute]
  by_cases brace : c = '\x7b'
  · subst brace
    rw [if_pos rfl]
    split
    next found =>
      rw [placeholder?_eq_none_iff.2 free] at found
      cases found
    next => rfl
  · rw [if_neg brace]

theorem substitute_stretch {front rest : List Char}
    (free : ∀ late, late <:+ front → late ≠ [] → ¬ BeginsVariable (late ++ rest)) :
    substitute value (front ++ rest) = front ++ substitute value rest := by
  induction front with
  | nil => rfl
  | cons c front ih =>
    have here : ¬ BeginsVariable (c :: (front ++ rest)) :=
      free (c :: front) (List.suffix_refl _) (List.cons_ne_nil _ _)
    have later : ∀ late, late <:+ front → late ≠ [] → ¬ BeginsVariable (late ++ rest) :=
      fun late inside => free late (inside.trans (List.suffix_cons c front))
    rw [List.cons_append, substitute_kept here, ih later, List.cons_append]

end Steps

/-! ### Whole passes -/

/-- One pass over a text from left to right: a variable that begins here is replaced and the pass
goes on behind it, and any other character is kept. -/
inductive Scan (value : String → String) : List Char → List Char → Prop where
  | done : Scan value [] []
  | replace {name rest result : List Char} (word : IsWord name) (later : Scan value rest result) :
      Scan value (braced name ++ rest) ((value (String.ofList name)).toList ++ result)
  | keep {c : Char} {rest result : List Char} (free : ¬ BeginsVariable (c :: rest))
      (later : Scan value rest result) : Scan value (c :: rest) (c :: result)

/-- Every variable replaced: the first in the text, then all in what comes after it. -/
inductive ReplacesAll (value : String → String) : List Char → List Char → Prop where
  | none {text : List Char} (free : ∀ name, IsWord name → ¬ braced name <:+: text) :
      ReplacesAll value text text
  | first {front name rest result : List Char} (word : IsWord name)
      (free : ∀ late, late <:+ front → late ≠ [] → ¬ BeginsVariable (late ++ (braced name ++ rest)))
      (later : ReplacesAll value rest result) :
      ReplacesAll value (front ++ (braced name ++ rest))
        (front ++ ((value (String.ofList name)).toList ++ result))

section Passes

variable {value : String → String}

theorem scan_substitute (text : List Char) : Scan value text (substitute value text) := by
  fun_induction substitute value text with
  | case1 => exact .done
  | case2 rest name after found ih =>
    obtain ⟨filled, characters, rfl⟩ := placeholder?_eq_some_iff.1 found
    rw [← braced_append]
    exact .replace ⟨filled, characters⟩ ih
  | case3 rest absent ih => exact .keep (placeholder?_eq_none_iff.1 absent) ih
  | case4 c rest notBrace ih =>
    refine .keep ?_ ih
    rintro ⟨name, _, here⟩
    exact notBrace (List.cons_prefix_cons.1 here).1.symm

theorem scan_iff {text result : List Char} :
    Scan value text result ↔ result = substitute value text := by
  constructor
  · intro scan
    induction scan with
    | done => rw [substitute]
    | replace word later ih => rw [substitute_variable word, ih]
    | keep free later ih => rw [substitute_kept free, ih]
  · rintro rfl
    exact scan_substitute text

theorem replacesAll_of_scan {text result : List Char} (scan : Scan value text result) :
    ReplacesAll value text result := by
  induction scan with
  | done =>
    refine .none fun name _ inside => ?_
    cases List.infix_nil.1 inside
  | @replace name rest result word later ih =>
    refine @ReplacesAll.first value [] name rest result word ?_ ih
    intro late inside filled
    exact absurd (List.suffix_nil.1 inside) filled
  | @keep c rest result free later ih =>
    cases ih with
    | none absent =>
      refine .none fun name word inside => ?_
      rcases List.infix_cons_iff.1 inside with here | inRest
      · exact free ⟨name, word, here⟩
      · exact absent name word inRest
    | @first front name after others word early last =>
      refine @ReplacesAll.first value (c :: front) name after others word ?_ last
      intro late inside filled
      rcases List.suffix_cons_iff.1 inside with rfl | inFront
      · exact free
      · exact early late inFront filled

theorem replacesAll_iff {text result : List Char} :
    ReplacesAll value text result ↔ result = substitute value text := by
  constructor
  · intro replaces
    induction replaces with
    | @none text free =>
      have stays := @substitute_stretch value text [] (by
        rintro late ⟨early, rfl⟩ filled ⟨name, word, here⟩
        rw [List.append_nil] at here
        exact free name word (here.isInfix.trans (List.suffix_append early late).isInfix))
      rw [List.append_nil, substitute, List.append_nil] at stays
      exact stays.symm
    | first word free later ih => rw [substitute_stretch free, substitute_variable word, ih]
  · rintro rfl
    exact replacesAll_of_scan (scan_substitute text)

end Passes

/-! ### Pieces of a URL -/

/-- Text that stays, or a name in braces. -/
inductive Piece where
  | literal (text : List Char)
  | named (name : List Char)
  deriving DecidableEq

namespace Piece

def written : Piece → List Char
  | .literal text => text
  | .named name => braced name

def filled (value : String → String) : Piece → List Char
  | .literal text => text
  | .named name => (value (String.ofList name)).toList

def rendered (value : String → String) : Piece → List Char
  | .literal text => text
  | .named name =>
    if IsWord name then (value (String.ofList name)).toList else braced name

/-- Braces stand only around names, and each name is filled. -/
def IsPlain : Piece → Prop
  | .literal text => '\x7b' ∉ text ∧ '\x7d' ∉ text
  | .named name => name ≠ [] ∧ '\x7b' ∉ name ∧ '\x7d' ∉ name

instance : DecidablePred IsPlain
  | .literal text => inferInstanceAs (Decidable ('\x7b' ∉ text ∧ '\x7d' ∉ text))
  | .named name => inferInstanceAs (Decidable (name ≠ [] ∧ '\x7b' ∉ name ∧ '\x7d' ∉ name))

end Piece

theorem infix_append_of_not_mem {c : Char} {word front rest : List Char} (outside : c ∉ front) :
    c :: word <:+: front ++ rest ↔ c :: word <:+: rest := by
  induction front with
  | nil => rfl
  | cons first front ih =>
    rw [List.mem_cons, not_or] at outside
    rw [List.cons_append, List.infix_cons_iff, ih outside.2, or_iff_right]
    intro here
    exact outside.1 (List.cons_prefix_cons.1 here).1

/-- A variable that stands behind another or is it. -/
theorem braced_infix_iff {name other rest : List Char} (word : IsWord name)
    (otherWord : IsWord other) :
    braced other <:+: braced name ++ rest ↔ other = name ∨ braced other <:+: rest := by
  have noBrace : '\x7b' ∉ name ++ ['\x7d'] := by
    rw [List.mem_append, not_or]
    refine ⟨fun inside => ?_, by decide⟩
    have isWord := word.characters _ inside
    revert isWord
    decide
  have later : braced other <:+: name ++ ['\x7d'] ++ rest ↔ braced other <:+: rest :=
    infix_append_of_not_mem noBrace
  have start : braced name ++ rest = '\x7b' :: (name ++ ['\x7d'] ++ rest) := rfl
  constructor
  · intro inside
    rw [start, List.infix_cons_iff, later, ← start] at inside
    exact inside.imp_left (eq_of_braced_first word otherWord)
  · rintro (rfl | inRest)
    · exact List.infix_append [] (braced other) rest
    · exact inRest.trans (List.suffix_append (braced name) rest).isInfix

/-- The text as a row of pieces, in which the names are its variables. -/
structure IsCut (pieces : List Piece) (text : List Char) : Prop where
  whole : pieces.flatMap Piece.written = text
  names : ∀ name, .named name ∈ pieces ↔ IsWord name ∧ braced name <:+: text

/-- A text is cut into pieces in one way for all values, and each piece is filled on its own. -/
theorem exists_cut (text : List Char) : ∃ pieces, IsCut pieces text ∧
    ∀ value, substitute value text = pieces.flatMap (Piece.filled value) := by
  obtain ⟨result, scan⟩ : ∃ result, Scan (fun _ => "") text result := ⟨_, scan_substitute text⟩
  induction scan with
  | done =>
    refine ⟨[], ⟨rfl, fun name => ?_⟩, fun value => by rw [substitute]; rfl⟩
    refine iff_of_false List.not_mem_nil ?_
    rintro ⟨_, inside⟩
    cases List.infix_nil.1 inside
  | @replace name rest result word later ih =>
    obtain ⟨pieces, cut, filled⟩ := ih
    refine ⟨.named name :: pieces, ⟨?_, fun other => ?_⟩, fun value => ?_⟩
    · rw [List.flatMap_cons, cut.whole, Piece.written]
    · rw [List.mem_cons, Piece.named.injEq, cut.names]
      constructor
      · rintro (rfl | ⟨otherWord, inside⟩)
        · exact ⟨word, (braced_infix_iff word word).2 (Or.inl rfl)⟩
        · exact ⟨otherWord, (braced_infix_iff word otherWord).2 (Or.inr inside)⟩
      · rintro ⟨otherWord, inside⟩
        exact ((braced_infix_iff word otherWord).1 inside).imp_right
          (fun inRest => ⟨otherWord, inRest⟩)
    · rw [substitute_variable word, filled, List.flatMap_cons, Piece.filled]
  | @keep c rest result free later ih =>
    obtain ⟨pieces, cut, filled⟩ := ih
    refine ⟨.literal [c] :: pieces, ⟨?_, fun name => ?_⟩, fun value => ?_⟩
    · rw [List.flatMap_cons, cut.whole, Piece.written, List.singleton_append]
    · have notHere : Piece.named name ≠ .literal [c] := by simp
      rw [List.mem_cons, or_iff_right notHere, cut.names]
      refine and_congr_right fun word => ?_
      rw [List.infix_cons_iff, or_iff_right]
      exact fun here => free ⟨name, word, here⟩
    · rw [substitute_kept free, filled, List.flatMap_cons, Piece.filled, List.singleton_append]

/-- A URL is rendered in one pass from left to right: the result is what the scan gives, and what
replacing the first variable and then the later ones gives. The pieces of the URL are the same for
all defaults, all but its variables stay as they are, and defaults count only for these. -/
theorem Server.render_single_pass (server : Server) :
    (∀ result, Scan server.valueOf server.url.toList result ↔ result = server.render.toList) ∧
    (∀ result, ReplacesAll server.valueOf server.url.toList result ↔
      result = server.render.toList) ∧
    (∃ pieces, IsCut pieces server.url.toList ∧ ∀ defaults,
      (render ⟨server.url, defaults⟩).toList =
        pieces.flatMap (Piece.filled (valueOf ⟨server.url, defaults⟩))) ∧
    ∀ defaults, (∀ name, IsWord name → braced name <:+: server.url.toList →
        valueOf ⟨server.url, defaults⟩ (String.ofList name) =
          server.valueOf (String.ofList name)) →
      render ⟨server.url, defaults⟩ = server.render := by
  obtain ⟨pieces, cut, filled⟩ := exists_cut server.url.toList
  refine ⟨fun result => ?_, fun result => ?_, ⟨pieces, cut, fun defaults => ?_⟩, ?_⟩
  · rw [toList_render, scan_iff]
  · rw [toList_render, replacesAll_iff]
  · rw [toList_render, filled]
  · intro defaults agree
    rw [← String.toList_inj, toList_render, toList_render, filled, filled]
    refine List.flatMap_congr fun piece member => ?_
    cases piece with
    | literal text => rfl
    | named name =>
      obtain ⟨word, inside⟩ := (cut.names name).1 member
      rw [Piece.filled, Piece.filled, agree name word inside]

/-- The variable inside is replaced, and what its default opens and closes stays. -/
example : Server.render ⟨"\x7ba\x7bb\x7dc\x7d", .ofList [("b", "\x7d\x7bc"), ("cc", "d")]⟩ =
    "\x7ba\x7d\x7bcc\x7d" := by
  decide +kernel

/-! ### Names that are no words -/

section Names

variable {value : String → String}

theorem substitute_literal {text : List Char} (noBrace : '\x7b' ∉ text) (rest : List Char) :
    substitute value (text ++ rest) = text ++ substitute value rest := by
  apply substitute_stretch
  rintro (_ | ⟨c, late⟩) inside filled ⟨name, _, here⟩
  · exact filled rfl
  · apply noBrace
    rw [braced, List.cons_append, List.cons_prefix_cons] at here
    exact here.1 ▸ inside.subset List.mem_cons_self

theorem substitute_other {name : List Char} (noWord : ¬ IsWord name)
    (noBrace : '\x7b' ∉ name) (noEnd : '\x7d' ∉ name) (rest : List Char) :
    substitute value (braced name ++ rest) = braced name ++ substitute value rest := by
  have free : ¬ BeginsVariable (braced name ++ rest) := by
    rintro ⟨other, word, after, whole⟩
    rw [braced_append, braced_append, List.cons.injEq] at whole
    have otherNoEnd : '\x7d' ∉ other := fun inside => absurd (word.characters _ inside) (by decide)
    have ended := congrArg (List.takeWhile (· ≠ '\x7d')) whole.2
    rw [takeWhile_until otherNoEnd, takeWhile_until noEnd] at ended
    exact noWord (ended ▸ word)
  have inner : '\x7b' ∉ name ++ ['\x7d'] := by simp [noBrace]
  calc substitute value (braced name ++ rest)
      = '\x7b' :: substitute value (name ++ ['\x7d'] ++ rest) := substitute_kept free
    _ = braced name ++ substitute value rest := by rw [substitute_literal inner]; rfl

theorem substitute_written {piece : Piece} (plain : piece.IsPlain) (rest : List Char) :
    substitute value (piece.written ++ rest) = piece.rendered value ++ substitute value rest := by
  cases piece with
  | literal text => exact substitute_literal plain.1 rest
  | named name =>
    obtain ⟨_, noBrace, noEnd⟩ := plain
    by_cases word : IsWord name
    · rw [Piece.written, Piece.rendered, if_pos word, substitute_variable word]
    · rw [Piece.written, Piece.rendered, if_neg word, substitute_other word noBrace noEnd]

theorem substitute_pieces {pieces : List Piece} (plain : ∀ piece ∈ pieces, piece.IsPlain) :
    substitute value (pieces.flatMap Piece.written) =
      pieces.flatMap (Piece.rendered value) := by
  induction pieces with
  | nil => rw [List.flatMap_nil, substitute, List.flatMap_nil]
  | cons piece pieces ih =>
    rw [List.forall_mem_cons] at plain
    rw [List.flatMap_cons, substitute_written plain.1, ih plain.2, List.flatMap_cons]

end Names

/-- Every name in braces is filled, whatever the defaults are, exactly if all of them are words. A
word stands for its default, or for nothing if it is not declared; any other name stays, with its
braces. -/
theorem every_name_filled_iff {url : String} {pieces : List Piece}
    (whole : pieces.flatMap Piece.written = url.toList)
    (plain : ∀ piece ∈ pieces, piece.IsPlain) :
    (∀ defaults, (Server.render ⟨url, defaults⟩).toList =
      pieces.flatMap (Piece.rendered (Server.valueOf ⟨url, defaults⟩))) ∧
    ((∀ defaults, (Server.render ⟨url, defaults⟩).toList =
        pieces.flatMap (Piece.filled (Server.valueOf ⟨url, defaults⟩))) ↔
      ∀ name, .named name ∈ pieces → IsWord name) := by
  have rendered : ∀ defaults, (Server.render ⟨url, defaults⟩).toList =
      pieces.flatMap (Piece.rendered (Server.valueOf ⟨url, defaults⟩)) := by
    intro defaults
    rw [Server.toList_render, ← whole, substitute_pieces plain]
  refine ⟨rendered, ?_, ?_⟩
  · intro filled name member
    by_contra noWord
    have brace : '\x7b' ∈ pieces.flatMap (Piece.rendered (Server.valueOf ⟨url, .empty⟩)) := by
      refine List.mem_flatMap.2 ⟨.named name, member, ?_⟩
      rw [Piece.rendered, if_neg noWord]
      exact List.mem_cons_self
    rw [← rendered, filled] at brace
    obtain ⟨piece, inside, brace⟩ := List.mem_flatMap.1 brace
    cases piece with
    | literal text => exact (plain _ inside).1 brace
    | named other => cases brace
  · intro words defaults
    rw [rendered]
    refine List.flatMap_congr fun piece member => ?_
    cases piece with
    | literal text => rfl
    | named name => rw [Piece.rendered, if_pos (words name member), Piece.filled]

def regional : List Piece :=
  [.literal "https://".toList, .named "region".toList, .literal ".example.com/".toList,
    .named "base_path".toList]

theorem regional_filled :
    Server.render ⟨"https://\x7bregion\x7d.example.com/\x7bbase_path\x7d",
      .ofList [("region", "eu")]⟩ = "https://eu.example.com/" := by
  have words : ∀ name, Piece.named name ∈ regional → IsWord name := by
    intro name member
    have cases : name = "region".toList ∨ name = "base_path".toList := by
      simpa [regional] using member
    rcases cases with rfl | rfl <;> decide +kernel
  have whole : regional.flatMap Piece.written =
      "https://\x7bregion\x7d.example.com/\x7bbase_path\x7d".toList := by decide +kernel
  rw [← String.toList_inj, (every_name_filled_iff whole (by decide +kernel)).2.2 words]
  decide +kernel

def hyphenated : List Piece :=
  [.literal "/".toList, .named "api-version".toList, .literal "/pets".toList]

/-- The name stays in the URL, although it is declared. -/
theorem hyphenated_stays :
    (∀ piece ∈ hyphenated, piece.IsPlain) ∧
    hyphenated.flatMap Piece.written = "/\x7bapi-version\x7d/pets".toList ∧
    Server.render ⟨"/\x7bapi-version\x7d/pets", .ofList [("api-version", "v2")]⟩ =
      "/\x7bapi-version\x7d/pets" ∧
    hyphenated.flatMap (Piece.filled (Server.valueOf
      ⟨"/\x7bapi-version\x7d/pets", .ofList [("api-version", "v2")]⟩)) = "/v2/pets".toList := by
  refine ⟨?_, ?_, ?_, ?_⟩ <;> decide +kernel

end ApiManifest.OpenApi
