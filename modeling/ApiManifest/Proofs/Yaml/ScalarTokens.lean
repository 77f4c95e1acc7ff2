import ApiManifest.Proofs.Yaml.Scanning

/-!
The scalars of a written text as its scan reads them: values, with the break and the indent that
follow them, and keys that stand on one line with their values.
-/

namespace ApiManifest.Yaml

open Scan (startsToken)

variable {rest : List Char} {column : Nat} {indents : List Nat} {keyAllowed : Bool}
  {output : List Token}

/-- The candidate for a key that a token leaves behind. -/
def Scan.candidate? (scan : Scan) : Option KeyCandidate :=
  if scan.keyAllowed then
    some ⟨scan.count, decide (scan.indents.head? = some scan.cursor.column), scan.cursor.index,
      scan.cursor.line, scan.cursor.column⟩
  else none

theorem saveCandidate_eq {scan : Scan} (none_ : scan.candidates = [none]) :
    scan.saveCandidate = some { scan with candidates := [scan.candidate?] } := by
  have block : scan.inFlow = false := by simp [Scan.inFlow, none_]
  by_cases allowed : scan.keyAllowed = true
  · simp [Scan.saveCandidate, Scan.candidate?, allowed, dropCandidate_eq none_, none_, block]
  · rw [Scan.saveCandidate, if_neg allowed, Scan.candidate?, if_neg allowed, ← none_]

/-- The candidate that a value leaves behind is given up once its line has ended. -/
theorem isIdle_after {after scan : Scan} (candidates : after.candidates = [scan.candidate?])
    (deeper : ∀ indent ∈ scan.indents.head?, indent < scan.cursor.column)
    (line : scan.cursor.line < after.cursor.line) : after.isIdle := by
  by_cases allowed : scan.keyAllowed = true
  · right
    refine ⟨_, by simpa [Scan.candidate?, allowed] using candidates, ?_, line⟩
    have away : scan.indents.head? ≠ some scan.cursor.column := fun head =>
      Nat.lt_irrefl _ (deeper _ head)
    simpa using away
  · left
    simpa [Scan.candidate?, allowed] using candidates

/-- What follows a value that ends on its line: the break, and the indent of the next line. The
candidate that the value left behind is given up there. -/
theorem reaches_line {after scan : Scan} {count : Nat}
    (here : after.cursor.rest = '\n' :: (Written.pad count ++ rest))
    (line : scan.cursor.line ≤ after.cursor.line) (indents_ : after.indents = indents)
    (deeper : ∀ indent ∈ indents.head?, indent < scan.cursor.column)
    (same : scan.indents = indents)
    (candidates : after.candidates = [scan.candidate?])
    (wrote : Wrote after.count after.tokens after.keys output) :
    ∃ last, after.Reaches last ∧ last.Stands ⟨rest, count, indents, true, output⟩ := by
  have block : after.inFlow = false := by simp [Scan.inFlow, candidates]
  have stands : ({ after with cursor := after.cursor.skipBreak, keyAllowed := true } : Scan).Stands
      ⟨Written.pad count ++ rest, 0, indents, true, output⟩ := by
    refine ⟨by simp [Cursor.skipBreak, here], rfl, indents_, rfl, ?_, wrote⟩
    exact isIdle_after candidates (by simpa [same] using deeper) (Nat.lt_succ_of_le line)
  obtain ⟨last, reached, ends⟩ := leads_pad count _ stands
  rw [Nat.zero_add] at ends
  exact ⟨last, (Scan.reaches_break here block).trans reached, ends⟩

def Scan.afterScalar (scan : Scan) (style : Style) (text : List Char) (cursor : Cursor)
    (allowed : Bool) : Scan :=
  { (({ scan with candidates := [scan.candidate?] } : Scan).push (.scalar style text)).moveTo cursor
      with keyAllowed := allowed }

def quotedStyle (single : Bool) : Style :=
  if single then .singleQuoted else .doubleQuoted

theorem token_quoted {single : Bool} {text written : List Char} {scan : Scan} {fuel : Nat}
    (quoted : Scalar.Quoted single text written) (none_ : scan.candidates = [none])
    (here : scan.cursor.rest = Scalar.quote single :: (written ++ rest))
    (ends : rest.head? ≠ some '\x27') (enough : scan.cursor.rest.length < fuel) :
    scan.token (Scalar.quote single) (written ++ rest) fuel = some
      (scan.afterScalar (quotedStyle single) text
        (scan.cursor.past (Scalar.quote single :: written)) false) := by
  have noMark : scan.cursor.atDocumentMark = false := by
    simp only [Cursor.atDocumentMark, here, Bool.and_eq_false_iff]
    cases single <;> simp [Scalar.quote]
  have dispatch : scan.token (Scalar.quote single) (written ++ rest) fuel
      = scan.quotedScalar single fuel := by
    cases single <;> simp [Scan.token, noMark, Scalar.quote]
  have quoted_ := Scalar.quoted_eq quoted here (fun _ => ends)
      (show written.length ≤ fuel by simp [here] at enough; omega)
  rw [dispatch]
  simp [Scan.quotedScalar, saveCandidate_eq none_, quoted_, Scan.afterScalar, quotedStyle]

theorem leads_quoted {single : Bool} {text written : List Char} {count : Nat}
    (quoted : Scalar.Quoted single text written)
    (deeper : ∀ indent ∈ indents.head?, indent < column) :
    Leads ⟨Scalar.quote single :: (written ++ '\n' :: (Written.pad count ++ rest)), column, indents,
        keyAllowed, output⟩
      ⟨rest, count, indents, true, output ++ [.scalar (quotedStyle single) text]⟩ := by
  apply leads_of_token rfl (by cases single <;> decide)
    (fun indent head => Nat.le_of_lt (deeper indent head))
  intro scan stands none_
  have here : scan.cursor.rest
      = Scalar.quote single :: written ++ '\n' :: (Written.pad count ++ rest) := stands.rest
  refine ⟨scan.afterScalar (quotedStyle single) text
    (scan.cursor.past (Scalar.quote single :: written)) false, ?_, ?_, ?_⟩
  · intro fuel enough
    exact token_quoted quoted none_ stands.rest (by simp) enough
  · exact Cursor.past_shorter here (List.cons_ne_nil _ _)
  · exact reaches_line (Cursor.past_rest here) (Cursor.past_line_le _ _) stands.indents
        (by simpa [stands.column] using deeper) stands.indents rfl (stands.wrote.push _)

/-- The column a plain scalar must keep to on further lines. -/
def leastColumn (indents : List Nat) : Nat :=
  match indents with
  | indent :: _ => indent + 1
  | [] => 0

theorem token_eq_plainScalar {scan : Scan} {c : Char} {text tail : List Char}
    (plain : Written.standsPlain (c :: text)) (block : scan.inFlow = false)
    (noMark : scan.cursor.atDocumentMark = false) (fuel : Nat) :
    scan.token c (text ++ tail) fuel = scan.plainScalar fuel := by
  simp only [Written.standsPlain, Bool.and_eq_true, Bool.not_eq_true'] at plain
  obtain ⟨⟨⟨⟨⟨⟨shown, noBreaks⟩, space⟩, -⟩, -⟩, noOther⟩, -⟩ := plain
  simp only [Written.startsOther, Bool.or_eq_false_iff] at noOther
  obtain ⟨noIndicator, noDash⟩ := noOther
  have noEnd (dash : c = '-' ∨ c = '?' ∨ c = ':') : endsWord (text ++ tail) = false := by
    apply endsWord_append
    rcases dash with rfl | rfl | rfl <;> simpa using noDash
  have others : c ≠ '#' ∧ c ≠ ',' ∧ c ≠ '[' ∧ c ≠ ']' ∧ c ≠ '\x7b' ∧ c ≠ '\x7d' ∧ c ≠ '&' ∧ c ≠ '*' ∧
      c ≠ '!' ∧ c ≠ '|' ∧ c ≠ '>' ∧ c ≠ '\x27' ∧ c ≠ '"' ∧ c ≠ '%' ∧ c ≠ '@' ∧ c ≠ '\x60' := by
    simpa using noIndicator
  have visible : isBlank c = false := by
    have shown_ : Written.isShown c := by
      simp only [Written.needsEscapes, Bool.or_eq_false_iff, List.any_eq_false] at shown
      simpa using shown.1 c (by simp)
    exact Written.notBlank_of_isShown shown_ (by simpa using space)
  have starts : Scan.startsPlain false c (text ++ tail) := by
    by_cases dash : c = '-' ∨ c = '?' ∨ c = ':'
    · have more := noEnd dash
      have noBlank : (text ++ tail).head?.any isBlank = false := by
        cases h : text ++ tail with
        | nil => rfl
        | cons d rest =>
          rw [h] at more
          simp only [endsWord, Bool.or_eq_false_iff] at more
          simpa using more.1
      rcases dash with rfl | rfl | rfl <;>
        simp [Scan.startsPlain, more, noBlank, -List.head?_append]
    · have noIndicator : Scan.isIndicator c = false := by simp_all [Scan.isIndicator]
      simp [Scan.startsPlain, noIndicator, visible]
  have unmarked : ∀ mark, mark = '-' ∨ mark = '?' ∨ mark = ':' →
      ¬ (c = mark ∧ endsWord (text ++ tail) = true) := by
    rintro mark kind ⟨rfl, ends⟩
    simp [noEnd kind] at ends
  unfold Scan.token
  simp [noMark, block, others, unmarked, starts]

theorem plainScalar_eq (scan : Scan) (fuel : Nat) :
    scan.plainScalar fuel = scan.saveCandidate.bind (fun saved =>
      (Scalar.plain saved.inFlow (leastColumn saved.indents) saved.cursor fuel).bind (fun found =>
        some { (saved.push (.scalar .plain found.text)).moveTo found.cursor with
          keyAllowed := found.broken })) := rfl

theorem token_plain {scan : Scan} {c : Char} {text next gap : List Char} {fuel : Nat}
    (plain : Written.standsPlain (c :: text)) (none_ : scan.candidates = [none])
    (stops : Scalar.PlainEnd (leastColumn scan.indents) next gap)
    (here : scan.cursor.rest = c :: (text ++ (gap ++ next)))
    (column : ∀ indent ∈ scan.indents.head?, indent ≤ scan.cursor.column)
    (enough : scan.cursor.rest.length < fuel) :
    scan.token c (text ++ (gap ++ next)) fuel = some (scan.afterScalar .plain (c :: text)
      (scan.cursor.past (c :: text ++ gap)) (!gap.isEmpty)) := by
  have noMark := Scalar.noMark_of_standsPlain plain (by simp) stops here
  have block : scan.inFlow = false := by simp [Scan.inFlow, none_]
  have within : leastColumn scan.indents ≤ scan.cursor.column + 1 := by
    cases h : scan.indents with
    | nil => exact Nat.zero_le _
    | cons indent indents => exact Nat.succ_le_succ (column indent (by simp [h]))
  have read := @Scalar.plainPieces_words _ _ _ _ _ _ (Scalar.words_of_standsPlain (by simp) plain)
      stops here within noMark {} fuel (by simp [here] at enough ⊢; omega)
  have same : Scalar.plain false (leastColumn scan.indents) scan.cursor fuel
      = some ⟨c :: text, scan.cursor.past (c :: text ++ gap), !gap.isEmpty⟩ := by
    simpa [Scalar.plain, Gap.fold] using read
  rw [token_eq_plainScalar plain block noMark, plainScalar_eq]
  simp [saveCandidate_eq none_, Scan.inFlow, same, Scan.afterScalar]

theorem startsToken_of_standsPlain {c : Char} {text : List Char}
    (plain : Written.standsPlain (c :: text)) : startsToken c := by
  have words := Scalar.words_of_standsPlain (by simp) plain
  have line := words.line c (by simp)
  have space : c ≠ ' ' := by simpa using words.starts
  have comment : c ≠ '#' := by simpa using words.noComment
  have mark : c ≠ '\ufeff' := by
    rintro rfl
    simp only [Written.standsPlain, Written.needsEscapes, Bool.and_eq_true, Bool.not_eq_true',
      Bool.or_eq_false_iff, List.any_eq_false] at plain
    have shown := plain.1.1.1.1.1.1.1 _ List.mem_cons_self
    revert shown
    decide
  simp [startsToken, line, space, comment, mark]

variable {indent count : Nat}

theorem leads_plain {text : List Char} (plain : Written.standsPlain text) (nonempty : text ≠ [])
    (deeper : indent < column) (left : count ≤ indent)
    (starts : rest.head?.all (fun c => !isBlank c && !isBreak c)) :
    Leads ⟨text ++ '\n' :: (Written.pad count ++ rest), column, indent :: indents, keyAllowed,
        output⟩
      ⟨rest, count, indent :: indents, true, output ++ [.scalar .plain text]⟩ := by
  obtain ⟨c, text, rfl⟩ := List.exists_cons_of_ne_nil nonempty
  apply leads_of_token (by rfl) (startsToken_of_standsPlain plain) (by simpa using Nat.le_of_lt deeper)
  intro scan stands none_
  have stops : Scalar.PlainEnd (leastColumn scan.indents) rest ('\n' :: Written.pad count) := by
    rw [stands.indents]
    exact .line count (Nat.lt_succ_of_le left) starts
  have here : scan.cursor.rest = c :: text ++ '\n' :: Written.pad count ++ rest := by
    simpa using stands.rest
  have line : scan.cursor.line < (scan.cursor.past (c :: text ++ '\n' :: Written.pad count)).line :=
    Cursor.past_line_lt (by simp [isBreak])
  have column_ : (scan.cursor.past (c :: text ++ '\n' :: Written.pad count)).column = count := by
    rw [Cursor.past_append]
    exact Scalar.column_past_line _ _
  refine ⟨scan.afterScalar .plain (c :: text)
    (scan.cursor.past (c :: text ++ '\n' :: Written.pad count)) true, ?_, ?_, _, .refl _, ?_⟩
  · intro fuel enough
    exact token_plain plain none_ stops (by simpa using stands.rest)
      (by simpa [stands.indents, stands.column] using Nat.le_of_lt deeper) enough
  · exact Cursor.past_shorter here (List.cons_ne_nil _ _)
  · refine ⟨Cursor.past_rest here, column_, stands.indents, rfl, ?_, stands.wrote.push _⟩
    exact isIdle_after rfl (by simpa [stands.indents, stands.column] using deeper) line

theorem leads_literal {text : List Char} (shown : ∀ c ∈ text, Written.isShown c)
    (nonempty : text ≠ []) (deeper : indent < column) (left : count ≤ indent)
    (starts : ∀ c ∈ rest.head?, isBlank c = false ∧ isBreak c = false) :
    Leads ⟨Written.literal (indent + 2) text ++ Scalar.feed text ++ (Written.pad count ++ rest),
        column, indent :: indents, keyAllowed, output⟩
      ⟨rest, count, indent :: indents, true, output ++ [.scalar .literal text]⟩ := by
  obtain ⟨tail, bar⟩ : ∃ tail, Written.literal (indent + 2) text = '|' :: tail := ⟨_, rfl⟩
  have first : Written.literal (indent + 2) text ++ Scalar.feed text ++ (Written.pad count ++ rest)
      = '|' :: (tail ++ (Scalar.feed text ++ (Written.pad count ++ rest))) := by
    simp [bar]
  apply leads_of_token first (by decide) (by simpa using Nat.le_of_lt deeper)
  intro scan stands none_
  have noMark : scan.cursor.atDocumentMark = false := by
    simp [Cursor.atDocumentMark, stands.rest.trans first]
  have here : scan.cursor.rest
      = Written.literal (indent + 2) text ++ Scalar.feed text ++ Written.pad count ++ rest := by
    simpa using stands.rest
  refine ⟨{ (scan.push (.scalar .literal text)).moveTo (scan.cursor.past
      (Written.literal (indent + 2) text ++ Scalar.feed text ++ Written.pad count)) with
        keyAllowed := true }, ?_, ?_, _, .refl _, ?_⟩
  · intro fuel enough
    have read := Scalar.block_literal shown nonempty stands.rest left starts (Nat.le_of_lt enough)
    simp [Scan.token, noMark, stands.block, Scan.blockScalar, dropCandidate_eq none_,
      stands.indents, read]
  · exact Cursor.past_shorter here (by simp [bar])
  · refine ⟨Cursor.past_rest here, ?_, stands.indents, rfl, .inl none_, stands.wrote.push _⟩
    obtain ⟨front, b, ends, break_⟩ := Scalar.literal_ends shown (indent + 2)
    have start : (scan.cursor.past (front ++ [b])).column = 0 := by
      simp [Cursor.past_append, Cursor.pass, break_, Cursor.skipBreak]
    have place := @Cursor.column_past_pad _ [] (by simp) start count
    rw [List.nil_append, ← ends, ← Cursor.past_append] at place
    exact place

theorem style_cases (text : List Char) :
    (Written.style text = .plain ∧ Written.standsPlain text ∧ text ≠ []) ∨
      (Written.style text = .singleQuoted ∧ Written.FitsSingle text) ∨
      Written.style text = .doubleQuoted ∨
      (Written.style text = .literal ∧ (∀ c ∈ text, Written.isShown c) ∧ '\n' ∈ text) := by
  have shown (calm : Written.needsEscapes text = false) : ∀ c ∈ text, Written.isShown c := by
    intro c member
    simp only [Written.needsEscapes, Bool.or_eq_false_iff, List.any_eq_false] at calm
    simpa using calm.1 c member
  by_cases feed : text.contains '\n'
  · by_cases escapes : Written.needsEscapes text || text.getLast? = some ' '
    · exact .inr (.inr (.inl (by rw [Written.style, if_pos feed, if_pos escapes])))
    · have literal : Written.style text = .literal := by
        rw [Written.style, if_pos feed, if_neg escapes]
      simp only [Bool.or_eq_true, not_or, Bool.not_eq_true] at escapes
      exact .inr (.inr (.inr ⟨literal, shown escapes.1, by simpa using feed⟩))
  · by_cases plain : Written.standsPlain text && !Written.readsAsOther text
    · left
      refine ⟨by rw [Written.style, if_neg feed, if_pos plain], ?_, ?_⟩
      · simp_all
      · rintro rfl
        revert plain
        decide
    · by_cases escapes : Written.needsEscapes text || Written.adjacent Written.breaksLine (· = ' ') text
      · exact .inr (.inr (.inl (by rw [Written.style, if_neg feed, if_neg plain, if_pos escapes])))
      · have single : Written.style text = .singleQuoted := by
          rw [Written.style, if_neg feed, if_neg plain, if_neg escapes]
        simp only [Bool.or_eq_true, not_or, Bool.not_eq_true] at escapes
        have calm := escapes.1
        simp only [Written.needsEscapes, Bool.or_eq_false_iff] at calm
        exact .inr (.inl ⟨single, shown escapes.1, by simpa using feed, calm.2, escapes.2⟩)

theorem singleQuoted_eq (indent : Nat) (text : List Char) :
    Written.singleQuoted indent text = '\x27' :: Written.singleBody indent text := by
  simp [Written.singleQuoted, Written.singleBody]
  rfl

/-- A scalar as a value, whatever its style. -/
theorem leads_scalar (text : List Char) (deeper : indent < column) (left : count ≤ indent)
    (starts : ∀ c ∈ rest.head?, startsToken c) :
    Leads ⟨Written.scalar (indent + 2) text ++ (Written.pad count ++ rest), column,
        indent :: indents, keyAllowed, output⟩
      ⟨rest, count, indent :: indents, true,
        output ++ [.scalar (Written.style text) text]⟩ := by
  have first : ∀ c ∈ rest.head?, isBlank c = false ∧ isBreak c = false := by
    intro c head
    have kind := starts c head
    simp_all [startsToken, isBlank]
  have deeper_ : ∀ other ∈ (indent :: indents).head?, other < column := by simpa using deeper
  rcases style_cases text with ⟨style, plain, nonempty⟩ | ⟨style, fits⟩ | style |
    ⟨style, shown, feed⟩
  · have word : rest.head?.all (fun c => !isBlank c && !isBreak c) := by
      cases rest with
      | nil => rfl
      | cons c rest => simpa using first c
    have read := @leads_plain _ _ indents keyAllowed output _ _ _ plain nonempty deeper left word
    simpa [Written.scalar, style] using read
  · have quoted := @Written.quoted_single (indent + 2) _ fits (.inl (by omega))
    have read := @leads_quoted rest _ _ keyAllowed output _ _ _ count quoted deeper_
    simpa [Written.scalar, style, singleQuoted_eq, Scalar.quote, quotedStyle] using read
  · have quoted := Written.quoted_double text
    have read := @leads_quoted rest _ _ keyAllowed output _ _ _ count quoted deeper_
    simpa [Written.scalar, style, Written.doubleQuoted, Scalar.quote, quotedStyle] using read
  · have nonempty : text ≠ [] := List.ne_nil_of_mem feed
    have read := @leads_literal _ _ indents keyAllowed output _ _ _ shown nonempty deeper left
        first
    simpa [Written.scalar, style, Scalar.feed] using read

theorem length_escapeChar_le (c : Char) : (Written.escapeChar c).length ≤ 6 * c.utf8Size := by
  have positive := c.utf8Size_pos
  have code : (Written.escapeCode c.toNat).length + 1 ≤ 6 * c.utf8Size := by
    unfold Written.escapeCode
    split
    · have length := Written.length_upperHex (by decide) (show c.toNat < 16 ^ 2 by omega)
      simp only [List.length_cons, length]
      omega
    · split
      · have length := Written.length_upperHex (by decide) (show c.toNat < 16 ^ 4 by omega)
        simp only [List.length_cons, length]
        omega
      · next large =>
        have size : c.utf8Size = 4 :=
          Char.utf8Size_eq_four_iff.2 (by
            have bound : 0xFFFF < c.val.toNat := Nat.lt_of_not_le large
            exact UInt32.lt_iff_toNat_lt.2 bound)
        have valid : c.toNat.isValidChar := c.valid
        unfold Nat.isValidChar at valid
        have length := Written.length_upperHex (by decide) (show c.toNat < 16 ^ 8 by omega)
        simp only [List.length_cons, length]
        omega
  unfold Written.escapeChar
  split
  case h_15 =>
    split
    · simp only [List.length_singleton]
      omega
    · simpa using code
  all_goals
    simp only [List.length_cons, List.length_nil]
    omega

theorem length_spelled_le (single : Bool) (text : List Char) :
    (text.flatMap (Written.spell single)).length ≤ 6 * (String.ofList text).utf8ByteSize := by
  induction text with
  | nil => simp
  | cons c text ih =>
    have positive := c.utf8Size_pos
    have here : (Written.spell single c).length ≤ 6 * c.utf8Size := by
      cases single with
      | true =>
        simp only [Written.spell, if_true]
        split <;> simp <;> omega
      | false => exact Written.spell_double ▸ length_escapeChar_le c
    rw [String.ofList_cons, String.utf8ByteSize_append, String.utf8ByteSize_singleton]
    simp only [List.flatMap_cons, List.length_append]
    omega

theorem simpleKey_cases {text : List Char} (simple : Written.isSimpleKey text) :
    (Written.style text = .plain ∧ Written.simpleKey text = text ∧ Written.standsPlain text ∧
        text ≠ []) ∨
      ∃ single, Written.style text = quotedStyle single ∧
        Written.simpleKey text = Scalar.quote single ::
          (text.flatMap (Written.spell single) ++ [Scalar.quote single]) ∧
        Scalar.Quoted single text (text.flatMap (Written.spell single) ++ [Scalar.quote single]) := by
  simp only [Written.isSimpleKey, Bool.and_eq_true, Bool.not_eq_true'] at simple
  have noBreaks : ∀ c ∈ text, Written.breaksLine c = false := by
    simpa using List.any_eq_false.1 simple.1
  rcases style_cases text with ⟨style, plain, nonempty⟩ | ⟨style, fits⟩ | style |
    ⟨style, shown, feed⟩
  · exact .inl ⟨style, by simp [Written.simpleKey, style], plain, nonempty⟩
  · right
    have body : Written.singleBody 0 text = text.flatMap (Written.spell true) ++ ['\x27'] := by
      have line := @Written.singleBody_line 0 _ [] noBreaks
      rw [List.append_nil] at line
      exact line
    refine ⟨true, style, ?_, ?_⟩
    · simp only [Written.simpleKey, style, singleQuoted_eq, body]
      rfl
    · have quoted := @Written.quoted_single 0 _ fits (.inr simple.1)
      rw [body] at quoted
      exact quoted
  · right
    refine ⟨false, style, ?_, ?_⟩
    · simp only [Written.simpleKey, style, Written.doubleQuoted, Written.spell_double]
      rfl
    · have quoted := Written.quoted_double text
      rw [← Written.spell_double] at quoted
      exact quoted
  · exact absurd (noBreaks _ feed) (by decide)

/-- A key that stands on one line is short enough to be found as a key. -/
theorem length_simpleKey_le {text : List Char} (simple : Written.isSimpleKey text) :
    (Written.simpleKey text).length ≤ 1024 := by
  have limit : (String.ofList text).utf8ByteSize ≤ 128 := by
    simp only [Written.isSimpleKey, Bool.and_eq_true, decide_eq_true_eq] at simple
    exact simple.2
  rcases simpleKey_cases simple with ⟨-, written, -⟩ | ⟨single, -, written, -⟩
  · have long := Scalar.length_le_spelled true text
    have bound := length_spelled_le true text
    rw [written]
    omega
  · have bound := length_spelled_le single text
    rw [written]
    simp only [List.length_cons, List.length_append, List.length_nil]
    omega

theorem simpleKey_line {text : List Char} (simple : Written.isSimpleKey text) :
    ∀ c ∈ Written.simpleKey text, isBreak c = false := by
  have noBreaks : ∀ c ∈ text, isBreak c = false := by
    simp only [Written.isSimpleKey, Bool.and_eq_true, Bool.not_eq_true', List.any_eq_false] at simple
    intro c member
    have line := simple.1 c member
    simp_all [Written.breaksLine]
  rcases simpleKey_cases simple with ⟨-, written, -⟩ | ⟨single, -, written, -⟩
  · rw [written]
    exact noBreaks
  · have quote : isBreak (Scalar.quote single) = false := by cases single <;> decide
    intro c member
    rw [written] at member
    simp only [List.mem_cons, List.mem_append, List.mem_flatMap, List.not_mem_nil, or_false]
      at member
    rcases member with rfl | ⟨d, here, spelled⟩ | rfl
    · exact quote
    · exact Written.spell_line (fun _ => noBreaks d here) c spelled
    · exact quote

theorem token_simpleKey {scan : Scan} {c : Char} {text written : List Char} {fuel : Nat}
    (simple : Written.isSimpleKey text) (spelled : Written.simpleKey text = c :: written)
    (none_ : scan.candidates = [none]) (here : scan.cursor.rest = c :: (written ++ ':' :: rest))
    (ends : endsWord rest)
    (column : ∀ indent ∈ scan.indents.head?, indent ≤ scan.cursor.column)
    (enough : scan.cursor.rest.length < fuel) :
    scan.token c (written ++ ':' :: rest) fuel
      = some (scan.afterScalar (Written.style text) text (scan.cursor.past (c :: written)) false) := by
  rcases simpleKey_cases simple with ⟨style, plain, stands, nonempty⟩ | ⟨single, style, same, quoted⟩
  · rw [plain] at spelled
    subst spelled
    have read := token_plain stands none_ (.colon ⟨rest, rfl, ends⟩) here column enough
    simpa [style] using read
  · rw [same] at spelled
    obtain ⟨rfl, rfl⟩ := List.cons.inj spelled
    rw [style]
    exact token_quoted quoted none_ here (by simp) enough

/-- A step of the run where no candidate is given up and no collection ends. -/
theorem run_stays {scan : Scan} {c : Char} (here : scan.cursor.rest = c :: rest)
    (starts : startsToken c) (kept : scan.dropStale = some scan)
    (open_ : scan.unroll (some scan.cursor.column) = scan) (fuel : Nat) :
    scan.run (fuel + 1) = (scan.token c rest (fuel + 1)).bind (fun after => after.run fuel) := by
  have blanks := @Scan.toToken_start scan (by simpa [here] using starts) fuel
  rw [Scan.run]
  simp only [blanks, kept, Option.bind_eq_bind, Option.bind_some, open_]
  simp [here]

theorem reaches_colon {scan : Scan} {candidate : KeyCandidate}
    (here : scan.cursor.rest = ':' :: rest) (ends : endsWord rest)
    (found : scan.candidates = [some candidate]) (line : candidate.line = scan.cursor.line)
    (near : scan.cursor.index ≤ candidate.index + 1024)
    (fits : ∀ indent ∈ scan.indents.head?, indent ≤ scan.cursor.column) :
    scan.Reaches
      { scan.single .value with
        keys := Scan.addKey ⟨candidate.position, scan.opensAt candidate.column⟩ scan.keys
        indents := if scan.opensAt candidate.column then candidate.column :: scan.indents
          else scan.indents
        candidates := [none]
        keyAllowed := false } := by
  have fresh : Scan.isStale scan.cursor candidate = false := by
    simp [Scan.isStale, line]
    omega
  have stays : Scan.dropStaleFrom scan.cursor scan.candidates = some scan.candidates := by
    rw [found]
    simp [Scan.dropStaleFrom, fresh]
  have kept : scan.dropStale = some scan := by simp [Scan.dropStale, stays]
  have noMark := noMark_of_endsWord here ends
  intro fuel enough
  obtain ⟨fuel, rfl⟩ : ∃ n, fuel = n + 1 := ⟨fuel - 1, by omega⟩
  refine ⟨fuel, ?_, ?_⟩
  · simp [Scan.single, Scan.moveTo, Cursor.skip, here] at enough ⊢
    omega
  · rw [run_stays here (by decide) kept (Scan.unroll_fits fits)]
    simp [Scan.token, noMark, ends, Scan.valueMark, found]
    rfl

theorem simpleKey_starts {text : List Char} (simple : Written.isSimpleKey text) :
    ∃ c written, Written.simpleKey text = c :: written ∧ startsToken c := by
  rcases simpleKey_cases simple with ⟨-, same, plain, nonempty⟩ | ⟨single, -, same, -⟩
  · obtain ⟨c, text, rfl⟩ := List.exists_cons_of_ne_nil nonempty
    exact ⟨c, text, same, startsToken_of_standsPlain plain⟩
  · exact ⟨_, _, same, by cases single <;> decide⟩

theorem marks_eq (position column : Nat) (indents : List Nat) :
    FoundKey.marks ⟨position, indents.head?.all (fun indent => indent < column)⟩
      = opening indents column .blockMappingStart ++ [.key] := by
  unfold FoundKey.marks opening
  split <;> rfl

/-- Once a key has been read its colon shows that it is one, and where a mapping begins. -/
theorem reaches_value {scan : Scan} {style : Style} {text written : List Char}
    (stands : scan.Stands ⟨written ++ ':' :: rest, column, indents, true, output⟩)
    (line : ∀ c ∈ written, isBreak c = false) (short : written.length ≤ 1024)
    (ends : endsWord rest) (fits : ∀ indent ∈ indents.head?, indent ≤ column) :
    ∃ last, (scan.afterScalar style text (scan.cursor.past written) false).Reaches last ∧
      last.Stands ⟨rest, column + written.length + 1, opened indents column, false,
        output ++ (opening indents column .blockMappingStart
          ++ [.key, .scalar style text, .value])⟩ := by
  have passed : scan.cursor.past written = scan.cursor.skip written.length :=
    Cursor.past_of_line line
  have after : (scan.cursor.past written).rest = ':' :: rest := Cursor.past_rest stands.rest
  have place : (scan.cursor.past written).column = column + written.length := by
    rw [passed]
    exact congrArg (· + _) stands.column
  have candidate : scan.candidate? = some ⟨scan.count,
      decide (scan.indents.head? = some scan.cursor.column), scan.cursor.index, scan.cursor.line,
      scan.cursor.column⟩ := if_pos stands.keyAllowed
  have reached := @reaches_colon _
      (scan.afterScalar style text (scan.cursor.past written) false) _
      after ends (congrArg ([·]) candidate)
      (show scan.cursor.line = (scan.cursor.past written).line by rw [passed]; rfl)
      (show (scan.cursor.past written).index ≤ scan.cursor.index + 1024 by
      rw [passed]
      exact Nat.add_le_add_left short _)
      (show ∀ indent ∈ scan.indents.head?, indent ≤ (scan.cursor.past written).column by
      rw [place, stands.indents]
      intro indent head
      exact Nat.le_trans (fits indent head) (Nat.le_add_right _ _))
  have opens : (scan.afterScalar style text (scan.cursor.past written) false).opensAt
      scan.cursor.column = indents.head?.all (fun indent => indent < column) := by
    simp [Scan.opensAt, Scan.inFlow, Scan.afterScalar, Scan.moveTo, Scan.push, stands.indents,
      stands.column]
  have wrote := (stands.wrote.pushKey (.scalar style text)
    (indents.head?.all (fun indent => indent < column))).push .value
  rw [← stands.wrote.addKey_eq] at wrote
  refine ⟨_, reached, ?_⟩
  rw [opens]
  refine ⟨?_, ?_, ?_, rfl, .inl rfl, ?_⟩
  · exact Cursor.pass_rest after
  · exact congrArg (· + 1) place
  · show (if _ then scan.cursor.column :: scan.indents else scan.indents) = opened indents column
    rw [stands.column, stands.indents]
    rfl
  · simp only [marks_eq, List.append_assoc] at wrote
    exact wrote

theorem leads_simpleKey {text : List Char} (simple : Written.isSimpleKey text) (ends : endsWord rest)
    (fits : ∀ indent ∈ indents.head?, indent ≤ column) :
    Leads ⟨Written.simpleKey text ++ ':' :: rest, column, indents, true, output⟩
      ⟨rest, column + (Written.simpleKey text).length + 1, opened indents column, false,
        output ++ (opening indents column .blockMappingStart
          ++ [.key, .scalar (Written.style text) text, .value])⟩ := by
  obtain ⟨c, written, spelled, starts⟩ := simpleKey_starts simple
  have line := simpleKey_line simple
  have short := length_simpleKey_le simple
  rw [spelled] at line short ⊢
  apply leads_of_token (by rfl) starts fits
  intro scan stands none_
  have here : scan.cursor.rest = c :: written ++ ':' :: rest := stands.rest
  refine ⟨scan.afterScalar (Written.style text) text (scan.cursor.past (c :: written)) false, ?_,
    Cursor.past_shorter here (List.cons_ne_nil _ _), reaches_value stands line short ends fits⟩
  intro fuel enough
  exact token_simpleKey simple spelled none_ here ends
    (by simpa [stands.indents, stands.column] using fits) enough

end ApiManifest.Yaml
