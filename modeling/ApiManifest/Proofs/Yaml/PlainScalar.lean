import ApiManifest.Proofs.Yaml.Reading
import ApiManifest.Yaml.Token.Scalar

/-!
A text that can stand plain is read back as it was written, on the line of its key or as the key
itself: its words are read one by one, and the gaps between them stand for themselves.
-/

namespace ApiManifest.Yaml

open Written (holdsMark standsPlain)

theorem holdsMark_append {before last : Char} {first second : List Char}
    (unmarked : holdsMark before (first ++ last :: second) = false) :
    holdsMark last second = false := by
  induction first generalizing before with
  | nil =>
    simp only [List.nil_append, holdsMark, Bool.or_eq_false_iff] at unmarked
    exact unmarked.2
  | cons c first ih =>
    simp only [List.cons_append, holdsMark, Bool.or_eq_false_iff] at unmarked
    exact ih unmarked.2

theorem endsWord_append {text : List Char} (tail : List Char) (more : endsWord text = false) :
    endsWord (text ++ tail) = false := by
  cases text with
  | nil => cases more
  | cons c text => exact more

namespace Scalar

/-- What may follow the last word of a plain scalar: the colon after a key, or the end of the line
and a line that stands further left, down to its first character. -/
inductive PlainEnd (least : Nat) (next : List Char) : List Char → Prop
  | colon (ends : ∃ rest, next = ':' :: rest ∧ endsWord rest) : PlainEnd least next []
  | line (column : Nat) (left : column < least)
    (starts : next.head?.all (fun c => !isBlank c && !isBreak c)) :
    PlainEnd least next ('\n' :: List.replicate column ' ')

variable {least : Nat} {next gap text : List Char} {cursor : Cursor}

theorem PlainEnd.plainRun_eq (stops : PlainEnd least next gap) :
    plainRun false (gap ++ next) = some [] := by
  cases stops with
  | colon ends =>
    obtain ⟨rest, rfl, word⟩ := ends
    simp [plainRun, word]
  | line => simp [plainRun, isBreak]

theorem plainRun_word {before : Char} {word rest : List Char}
    (inside : ∀ c ∈ word, isBlank c = false ∧ isBreak c = false)
    (unmarked : holdsMark before (word ++ rest) = false) {tail : List Char}
    (stops : plainRun false (rest ++ tail) = some []) :
    plainRun false (word ++ (rest ++ tail)) = some word := by
  induction word generalizing before with
  | nil => exact stops
  | cons c word ih =>
    obtain ⟨noBlank, noBreak⟩ := inside c (by simp)
    simp only [List.cons_append, holdsMark, Bool.or_eq_false_iff] at unmarked
    obtain ⟨⟨colon, -⟩, later⟩ := unmarked
    have following := ih (fun d hd => inside d (by simp [hd])) later
    have notEnd : (c = ':' && endsWord (word ++ (rest ++ tail))) = false := by
      by_cases h : c = ':'
      · simp only [h, decide_true, Bool.true_and] at colon ⊢
        rw [← List.append_assoc]
        exact endsWord_append tail colon
      · simp [h]
    simp [plainRun, noBlank, noBreak, notEnd, following]

/-- What makes a text readable as words of a plain scalar, where it follows `before`. -/
structure Words (before : Char) (text : List Char) : Prop where
  nonempty : text ≠ []
  line : ∀ c ∈ text, isBreak c = false ∧ c ≠ '\t'
  starts : text.head? ≠ some ' '
  ends : text.getLast? ≠ some ' '
  unmarked : holdsMark before text = false
  noComment : text.head? ≠ some '#'

/-- Behind a gap between words there are words again. -/
theorem Words.after_gap {before : Char} {word later : List Char} {count : Nat}
    (words : Words before (word ++ (List.replicate (count + 1) ' ' ++ later)))
    (starts : later.head? ≠ some ' ') : Words ' ' later := by
  have unmarked : holdsMark ' ' later = false := by
    have marks := words.unmarked
    rw [List.replicate_succ', List.append_assoc, ← List.append_assoc word] at marks
    exact holdsMark_append marks
  have ends : later ≠ [] ∧ later.getLast? ≠ some ' ' := by
    have last := words.ends
    cases later with
    | nil => simp [List.getLast?_append, List.getLast?_replicate] at last
    | cons d later => exact ⟨by simp, by simpa [List.getLast?_append] using last⟩
  constructor
  · exact ends.1
  · exact fun d member => words.line d (by simp [member])
  · exact starts
  · exact ends.2
  · exact unmarked
  · intro head
    cases later with
    | nil => cases head
    | cons d later =>
      simp only [List.head?_cons, Option.some.injEq] at head
      simp [holdsMark, head, isBlank] at unmarked

theorem Words.split {before : Char} (words : Words before text) :
    ∃ word, word ≠ [] ∧ (∀ c ∈ word, isBlank c = false ∧ isBreak c = false) ∧
      (text = word ∨ ∃ count later,
        text = word ++ (List.replicate (count + 1) ' ' ++ later) ∧ Words ' ' later) := by
  obtain ⟨word, rest, whole, inside, stops⟩ := exists_run (· ≠ ' ') text
  have nonempty : word ≠ [] := by
    rintro rfl
    cases text with
    | nil => exact words.nonempty rfl
    | cons c text =>
      have head : rest.head? = some c := by rw [List.nil_append] at whole; simp [← whole]
      have space := stops c head
      exact words.starts (by simpa using space)
  refine ⟨word, nonempty, ?_, ?_⟩
  · intro c member
    have line := words.line c (by simp [whole, member])
    have noSpace := inside c member
    exact ⟨by simp_all [isBlank], line.1⟩
  · obtain ⟨spaces, later, rfl, blank, starts⟩ := exists_run (· = ' ') rest
    have run : spaces = List.replicate spaces.length ' ' :=
      List.eq_replicate_iff.2 ⟨rfl, fun c member => by simpa using blank c member⟩
    cases spaces with
    | nil =>
      left
      cases later with
      | nil => simpa using whole
      | cons c later =>
        have space : c = ' ' := by simpa using stops c rfl
        have other : c ≠ ' ' := by simpa using starts c rfl
        exact absurd space other
    | cons c spaces =>
      right
      simp only [List.length_cons] at run
      rw [run] at whole
      have noSpace : later.head? ≠ some ' ' := fun head => absurd (starts ' ' head) (by decide)
      exact ⟨spaces.length, later, whole, Words.after_gap (whole ▸ words) noSpace⟩

theorem plainPieces_word {word after : List Char} (here : cursor.rest = word ++ after)
    (run : plainRun false cursor.rest = some word) (nonempty : word ≠ [])
    (noMark : cursor.atDocumentMark = false) (noComment : cursor.rest.head? ≠ some '#')
    (inside : ∀ c ∈ word, isBreak c = false) (first : Gap) (fuel : Nat) :
    plainPieces false least first cursor (fuel + 1) =
      if after.head?.any (fun c => isBlank c || isBreak c) then
        (Gap.read (some least) {} (cursor.past word) (fuel + 1)).bind (fun found =>
          if found.2.column < least then some ⟨first.fold ++ word, found.2, found.1.broken⟩
          else (plainPieces false least found.1 found.2 fuel).map (fun following =>
            { following with text := first.fold ++ word ++ following.text }))
      else some ⟨first.fold ++ word, cursor.past word, false⟩ := by
  have rest : (cursor.skip word.length).rest = after := by simp [Cursor.skip, here]
  rw [plainPieces]
  simp [noMark, noComment, run, nonempty, rest, Cursor.past_of_line inside, Option.map_eq_bind]

theorem column_past {word : List Char} (inside : ∀ c ∈ word, isBreak c = false) (count : Nat) :
    (cursor.past (word ++ List.replicate count ' ')).column = cursor.column + word.length + count := by
  have line : ∀ c ∈ word ++ List.replicate count ' ', isBreak c = false := by
    intro c member
    rcases List.mem_append.1 member with h | h
    · exact inside c h
    · rw [List.eq_of_mem_replicate h]
      decide
  simp [Cursor.past_of_line line, Cursor.skip, Nat.add_assoc]

theorem column_past_line (cursor : Cursor) (indent : Nat) :
    (cursor.past ('\n' :: List.replicate indent ' ')).column = indent := by
  have indented := @column_past (cursor.pass '\n') [] (by simp) indent
  simp only [Cursor.past_cons]
  simpa [Cursor.pass, isBreak, Cursor.skipBreak] using indented

theorem Words.starts_word {before : Char} (words : Words before text) (tail : List Char) :
    (text ++ tail).head?.all (fun c => !isBlank c && !isBreak c) := by
  obtain ⟨c, text, rfl⟩ := List.exists_cons_of_ne_nil words.nonempty
  have line := words.line c (by simp)
  have space := words.starts
  simp_all [isBlank]

theorem plainPieces_last {before : Char} {word : List Char} (nonempty : word ≠ [])
    (inside : ∀ c ∈ word, isBlank c = false ∧ isBreak c = false)
    (unmarked : holdsMark before word = false) (stops : PlainEnd least next gap)
    (here : cursor.rest = word ++ (gap ++ next)) (noMark : cursor.atDocumentMark = false)
    (noComment : cursor.rest.head? ≠ some '#') (first : Gap) {fuel : Nat}
    (enough : gap.length ≤ fuel + 1) :
    plainPieces false least first cursor (fuel + 1)
      = some ⟨first.fold ++ word, cursor.past (word ++ gap), !gap.isEmpty⟩ := by
  have run : plainRun false cursor.rest = some word := by
    have read := @plainRun_word _ _ [] inside (by simpa using unmarked) _ stops.plainRun_eq
    simpa [here] using read
  rw [plainPieces_word here run nonempty noMark noComment (fun c member => (inside c member).2)]
  cases stops with
  | colon ends =>
    obtain ⟨rest, rfl, -⟩ := ends
    simp [isBlank, isBreak]
  | line indent left starts =>
    have read := @Gap.read_eq {} (cursor.past word) (some least)
        ('\n' :: List.replicate indent ' ') next (fuel + 1) (Cursor.past_rest here)
        (by simp [isBreak]) starts enough
    have broken : (('\n' :: List.replicate indent ' ').foldl Gap.take {}).broken = true := by
      rw [List.foldl_cons, Gap.foldl_pad rfl]
      rfl
    rw [read]
    simp only [Option.bind_some, column_past_line, left, if_true, broken]
    simp [isBreak, Cursor.past_append]

/-- The words of a text are read up to its end, with the gaps between them. -/
theorem plainPieces_words {before : Char} (words : Words before text)
    (stops : PlainEnd least next gap) (here : cursor.rest = text ++ (gap ++ next))
    (column : least ≤ cursor.column + 1) (noMark : cursor.atDocumentMark = false) (first : Gap)
    {fuel : Nat} (enough : text.length + gap.length ≤ fuel) :
    plainPieces false least first cursor fuel
      = some ⟨first.fold ++ text, cursor.past (text ++ gap), !gap.isEmpty⟩ := by
  induction fuel generalizing before text cursor first with
  | zero => exact absurd (List.length_eq_zero_iff.1 (by omega)) words.nonempty
  | succ fuel ih =>
    have noComment : cursor.rest.head? ≠ some '#' := by
      obtain ⟨c, text, rfl⟩ := List.exists_cons_of_ne_nil words.nonempty
      simpa [here] using words.noComment
    obtain ⟨word, nonempty, inside, last | ⟨count, later, whole, rest⟩⟩ := words.split
    · subst last
      exact plainPieces_last nonempty inside words.unmarked stops here noMark noComment first
        (by omega)
    · have breaks : ∀ c ∈ word, isBreak c = false := fun c member => (inside c member).2
      have split : cursor.rest
          = word ++ (List.replicate (count + 1) ' ' ++ (later ++ (gap ++ next))) := by
        simp [here, whole]
      have spaces : plainRun false (List.replicate (count + 1) ' ' ++ (later ++ (gap ++ next)))
          = some [] := by
        simp [List.replicate_succ, plainRun, isBlank]
      have run : plainRun false cursor.rest = some word := by
        have unmarked := words.unmarked
        rw [whole] at unmarked
        have read := plainRun_word inside unmarked (by simpa using spaces)
        simpa [split] using read
      have read := @Gap.read_eq {} (cursor.past word) (some least) (List.replicate (count + 1) ' ')
          (later ++ (gap ++ next)) (fuel + 1) (Cursor.past_rest split) (by simp)
          (rest.starts_word _) (by simp [whole] at enough ⊢; omega)
      have place := @column_past cursor _ breaks (count + 1)
      rw [Cursor.past_append] at place
      have long : 0 < word.length := List.length_pos_iff.2 nonempty
      have following := ih rest
        (Cursor.past_rest (Cursor.past_rest split)) (by omega)
        (by simp [Cursor.atDocumentMark, place])
        ((List.replicate (count + 1) ' ').foldl Gap.take {})
        (by simp [whole] at enough; omega)
      have inner : ¬ cursor.column + word.length + (count + 1) < least := by omega
      rw [plainPieces_word split run nonempty noMark noComment breaks, read]
      simp only [Option.bind_some, place, inner, if_false, following, Gap.fold_spaces]
      simp [List.replicate_succ, isBlank, whole, Cursor.past_append]

theorem words_of_standsPlain (nonempty : text ≠ []) (stands : standsPlain text) :
    Words ' ' text := by
  obtain ⟨c, rest, rfl⟩ := List.exists_cons_of_ne_nil nonempty
  simp only [standsPlain, Bool.and_eq_true, Bool.not_eq_true', decide_eq_true_eq] at stands
  obtain ⟨⟨⟨⟨⟨⟨shown, noBreaks⟩, starts⟩, ends⟩, -⟩, noOther⟩, unmarked⟩ := stands
  simp only [Written.startsOther, Bool.or_eq_false_iff] at noOther
  obtain ⟨noIndicator, noDash⟩ := noOther
  have noComment : c ≠ '#' := by
    rintro rfl
    simp at noIndicator
  constructor
  · simp
  · intro d member
    have noBreak := List.any_eq_false.1 noBreaks d member
    simp only [Written.needsEscapes, Bool.or_eq_false_iff, List.any_eq_false] at shown
    have visible := shown.1 d member
    constructor
    · simp_all [Written.breaksLine]
    · rintro rfl
      exact visible (by decide)
  · simpa using starts
  · simpa using ends
  · have colon : (c = ':' && endsWord rest) = false := by
      by_cases h : c = ':'
      · simpa [h] using noDash
      · simp [h]
    simp [holdsMark, colon, noComment, unmarked]
  · simpa using noComment

/-- A plain text does not begin like a document mark, whatever follows it. -/
theorem noMark_of_standsPlain (stands : standsPlain text) (nonempty : text ≠ [])
    (stops : PlainEnd least next gap) (here : cursor.rest = text ++ (gap ++ next)) :
    cursor.atDocumentMark = false := by
  have unlike : Written.startsLikeMark text = false := by
    obtain ⟨c, rest, rfl⟩ := List.exists_cons_of_ne_nil nonempty
    simp only [standsPlain, Bool.and_eq_true, Bool.not_eq_true'] at stands
    exact stands.1.1.2
  obtain ⟨d, tail, follows, other⟩ : ∃ d tail, gap ++ next = d :: tail ∧ d ≠ '-' ∧ d ≠ '.' := by
    cases stops with
    | colon ends =>
      obtain ⟨rest, rfl, -⟩ := ends
      exact ⟨':', rest, rfl, by decide⟩
    | line column left starts => exact ⟨'\n', _, rfl, by decide⟩
  rw [follows] at here
  simp only [Cursor.atDocumentMark, here, Bool.and_eq_false_iff]
  right
  rcases text with _ | ⟨a, _ | ⟨b, _ | ⟨c, rest⟩⟩⟩
  · exact absurd rfl nonempty
  · simp [other]
  · simp [other]
  · simp only [List.cons_append]
    split <;> simp_all [Written.startsLikeMark]

end Scalar

end ApiManifest.Yaml
