import ApiManifest.Proofs.Digits
import ApiManifest.Proofs.Yaml.Reading
import ApiManifest.Yaml.Token.Scalar

/-!
A text in quotes is read back as it was. Within the quotes it is a row of runs and gaps: a run is
read character by character, each as it was written, and a gap stands for itself.
-/

namespace ApiManifest.Yaml

/-- The characters of escapes, and more: those that stand for themselves on a line. -/
def isGraphic (c : Char) : Prop :=
  0x21 ≤ c.toNat ∧ c.toNat ≤ 0x7E

theorem notBreak_of_isGraphic {c : Char} (graphic : isGraphic c) : isBreak c = false := by
  simp only [isBreak, Bool.or_eq_false_iff, decide_eq_false_iff_not]
  refine ⟨⟨?_, ?_⟩, ?_⟩ <;> rintro rfl <;> revert graphic <;> simp [isGraphic]

namespace Written

theorem isGraphic_of_mem_escapeCode {n : Nat} {c : Char} (member : c ∈ escapeCode n) :
    isGraphic c := by
  have hex {width : Nat} (digit : c ∈ upperHex width n) : isGraphic c := by
    obtain ⟨d, small, rfl⟩ := mem_upperHex digit
    have graphic : ∀ d < 16, isGraphic (Nat.digitChar d).toUpper := by
      unfold isGraphic
      decide
    exact graphic d small
  unfold escapeCode at member
  split at member
  · rcases List.mem_cons.1 member with rfl | digit
    · simp [isGraphic]
    · exact hex digit
  · split at member
    · rcases List.mem_cons.1 member with rfl | digit
      · simp [isGraphic]
      · exact hex digit
    · rcases List.mem_cons.1 member with rfl | digit
      · simp [isGraphic]
      · exact hex digit

theorem escape?_digits {mark : Char} {width : Nat} (c : Char) (tail : List Char)
    (noLetter : Scalar.simpleEscape? mark = none) (wide : Scalar.escapeWidth? mark = some width)
    (positive : 0 < width) (fits : c.toNat < 16 ^ width) :
    Scalar.escape? (mark :: upperHex width c.toNat ++ tail) = some (c, width + 1) := by
  have length := length_upperHex positive fits
  have digits : (upperHex width c.toNat ++ tail).take width = upperHex width c.toNat :=
    List.take_left' length
  have valid : c.toNat.isValidChar := c.valid
  simp only [Scalar.escape?, List.cons_append, noLetter, wide, Option.bind_eq_bind,
    Option.bind_some, digits, length, if_true, digits?_upperHex, valid, dif_pos]
  rfl

theorem escape?_escapeCode (c : Char) (tail : List Char) :
    Scalar.escape? (escapeCode c.toNat ++ tail) = some (c, (escapeCode c.toNat).length) := by
  have valid : c.toNat < 16 ^ 8 := by
    have bound : c.toNat.isValidChar := c.valid
    unfold Nat.isValidChar at bound
    omega
  unfold escapeCode
  split
  · rw [escape?_digits c tail rfl rfl (by decide) (by omega)]
    simp [length_upperHex (by decide) (show c.toNat < 16 ^ 2 by omega)]
  · split
    · rw [escape?_digits c tail rfl rfl (by decide) (by omega)]
      simp [length_upperHex (by decide) (show c.toNat < 16 ^ 4 by omega)]
    · rw [escape?_digits c tail rfl rfl (by decide) valid]
      simp [length_upperHex (by decide) valid]

theorem escapeChar_cases (c : Char) :
    (escapeChar c = [c] ∧ isShown c ∧ isBreak c = false ∧ c ≠ '"' ∧ c ≠ '\\') ∨
      ∃ code, escapeChar c = '\\' :: code ∧ code ≠ [] ∧ (∀ d ∈ code, isGraphic d) ∧
        ∀ tail, Scalar.escape? (code ++ tail) = some (c, code.length) := by
  unfold escapeChar
  split
  case h_15 => 
    split
    · next shown =>
      left
      refine ⟨rfl, shown, ?_, ?_, ?_⟩
      all_goals simp_all [isBreak]
    · right
      have some_code : escapeCode c.toNat ≠ [] := by
        unfold escapeCode
        split
        · simp
        · split <;> simp
      exact ⟨_, rfl, some_code, fun d => isGraphic_of_mem_escapeCode, escape?_escapeCode c⟩
  all_goals
    right
    refine ⟨_, rfl, by simp, by simp [isGraphic], fun tail => rfl⟩

theorem notTab_of_isShown {c : Char} (shown : isShown c) : c ≠ '\t' := by
  rintro rfl
  revert shown
  decide

theorem notBlank_of_isShown {c : Char} (shown : isShown c) (space : c ≠ ' ') :
    isBlank c = false := by
  simp [isBlank, space, notTab_of_isShown shown]

def spell (single : Bool) (c : Char) : List Char :=
  if single then (if c = '\x27' then [c, c] else [c]) else escapeChar c

theorem spell_double : spell false = escapeChar := by
  funext c
  simp [spell]

/-- The characters of a run. In double quotes every break is escaped, and so is a tab. -/
def inRun (single : Bool) (c : Char) : Bool :=
  if single then !isBlank c && !isBreak c else c ≠ ' '

theorem spell_line {single : Bool} {c : Char} (line : single → isBreak c = false) :
    ∀ d ∈ spell single c, isBreak d = false := by
  intro d member
  cases single with
  | true =>
    have same : d = c := by
      simp only [spell, if_true] at member
      split at member <;> simpa using member
    exact same ▸ line rfl
  | false =>
    rcases escapeChar_cases c with ⟨plain, -, noBreak, -⟩ | ⟨code, escaped, -, graphic, -⟩
    · simp only [spell, plain] at member
      simp_all
    · simp only [spell, escaped, Bool.false_eq_true, if_false, List.mem_cons] at member
      rcases member with rfl | digit
      · decide
      · exact notBreak_of_isGraphic (graphic d digit)

end Written

namespace Scalar

open Written (inRun spell)

variable {single : Bool} {cursor : Cursor} {tail : List Char} {fuel : Nat}

def quote (single : Bool) : Char :=
  if single then '\x27' else '"'

structure Spells (single : Bool) (c : Char) (piece : List Char) : Prop where
  nonempty : piece ≠ []
  reads : ∀ {cursor : Cursor} {tail : List Char} (fuel : Nat), cursor.rest = piece ++ tail →
    quotedRun single cursor (fuel + 1)
      = (quotedRun single (cursor.past piece) fuel).map (.after c)

theorem spell_ne_nil (single : Bool) (c : Char) : spell single c ≠ [] := by
  cases single with
  | true =>
    simp only [spell, if_true]
    split <;> simp
  | false =>
    rcases Written.escapeChar_cases c with ⟨plain, -⟩ | ⟨code, escaped, -⟩
    · simp [spell, plain]
    · simp [spell, escaped]

theorem quotedRun_char {c : Char} (inside : inRun single c)
    (here : cursor.rest = spell single c ++ tail) :
    quotedRun single cursor (fuel + 1)
      = (quotedRun single (cursor.past (spell single c)) fuel).map (.after c) := by
  have line : single → isBreak c = false := by
    rintro rfl
    simp only [inRun, if_true, Bool.and_eq_true, Bool.not_eq_true'] at inside
    exact inside.2
  rw [Cursor.past_of_line (Written.spell_line line)]
  cases single with
  | true =>
    simp only [inRun, if_true, Bool.and_eq_true, Bool.not_eq_true'] at inside
    by_cases quoted : c = '\x27'
    · simp [spell, quoted] at here
      simp [quotedRun, here, spell, quoted, isBlank, isBreak]
    · simp [spell, quoted] at here
      simp [quotedRun, here, spell, quoted, inside]
  | false =>
    simp only [inRun, Bool.false_eq_true, if_false, decide_eq_true_eq] at inside
    rcases Written.escapeChar_cases c with ⟨plain, shown, noBreak, noQuote, noSlash⟩ |
      ⟨code, escaped, nonempty, graphic, read⟩
    · have noBlank := Written.notBlank_of_isShown shown inside
      simp [spell, plain] at here
      simp [quotedRun, here, spell, plain, noBlank, noBreak, noQuote, noSlash]
    · obtain ⟨d, code, rfl⟩ := List.exists_cons_of_ne_nil nonempty
      have noBreak := notBreak_of_isGraphic (graphic d (by simp))
      have image := read tail
      simp only [spell, escaped, Bool.false_eq_true, if_false, List.cons_append] at here image
      have slash : isBreak '\\' = false := by decide
      simp [quotedRun, here, spell, escaped, isBlank, slash, noBreak, image]

inductive Run (single : Bool) : List Char → List Char → Prop
  | nil : Run single [] []
  | cons {c : Char} {piece run spelled : List Char} (first : Spells single c piece)
    (rest : Run single run spelled) : Run single (c :: run) (piece ++ spelled)

theorem run_spell {run : List Char} (inside : ∀ c ∈ run, inRun single c) :
    Run single run (run.flatMap (spell single)) := by
  induction run with
  | nil => exact .nil
  | cons c run ih =>
    have first : Spells single c (spell single c) :=
      ⟨spell_ne_nil single c, fun fuel here => quotedRun_char (inside c (by simp)) here⟩
    exact .cons first (ih fun d member => inside d (by simp [member]))

theorem Run.length_le {run spelled : List Char} (reads : Run single run spelled) :
    run.length ≤ spelled.length := by
  induction reads with
  | nil => simp
  | cons first rest ih =>
    have positive := List.length_pos_iff.2 first.nonempty
    simp only [List.length_append, List.length_cons]
    omega

theorem length_le_spelled (single : Bool) (run : List Char) :
    run.length ≤ (run.flatMap (spell single)).length := by
  have positive : ∀ n ∈ run.map (fun c => (spell single c).length), 1 ≤ n := by
    intro n member
    obtain ⟨c, -, rfl⟩ := List.mem_map.1 member
    exact List.length_pos_iff.2 (spell_ne_nil single c)
  simpa [List.length_flatMap] using List.length_le_sum_of_one_le _ positive

def endsRun (single : Bool) : List Char → Bool
  | [] => false
  | c :: rest =>
    c = ' ' || isBreak c || (c = quote single && (!single || rest.head? ≠ some '\x27'))

theorem quotedRun_run {run spelled : List Char} (reads : Run single run spelled)
    (here : cursor.rest = spelled ++ tail) (ends : endsRun single tail)
    (enough : run.length < fuel) :
    quotedRun single cursor fuel = some ⟨run, cursor.past spelled, false⟩ := by
  induction reads generalizing cursor fuel with
  | nil =>
    obtain ⟨fuel, rfl⟩ : ∃ n, fuel = n + 1 := ⟨fuel - 1, by omega⟩
    cases tail with
    | nil => cases ends
    | cons c tail =>
      simp only [List.nil_append] at here
      simp only [endsRun, Bool.or_eq_true, decide_eq_true_eq, Bool.and_eq_true] at ends
      rcases ends with (space | breaks) | ⟨closing, single_⟩
      · simp [quotedRun, here, space, isBlank]
      · simp [quotedRun, here, breaks]
      · cases single <;> simp_all [quotedRun, quote, isBlank, isBreak]
  | @cons c piece run spelled first rest ih =>
    obtain ⟨fuel, rfl⟩ : ∃ n, fuel = n + 1 := ⟨fuel - 1, by omega⟩
    rw [List.append_assoc] at here
    have following := @ih (cursor.past piece) fuel (Cursor.past_rest here) (by simpa using enough)
    rw [first.reads fuel here, following]
    simp [QuotedRun.after, Cursor.past_append]

/-- A gap between two runs as it is written: it ends with a space, and stands for `white`. -/
structure IsGap (white written : List Char) : Prop where
  kind : ∀ c ∈ written, c = ' ' ∨ isBreak c
  ends : ∃ front, written = front ++ [' ']
  stands : (written.foldl Gap.take {}).fold = white

inductive Quoted (single : Bool) : List Char → List Char → Prop
  | last {run spelled : List Char} (reads : Run single run spelled) :
    Quoted single run (spelled ++ [quote single])
  | gap {run spelled : List Char} (reads : Run single run spelled) {white written : List Char}
    (apart : IsGap white written) {later rest : List Char} (quoted : Quoted single later rest)
    (starts : rest.head?.all (fun c => !isBlank c && !isBreak c)) :
    Quoted single (run ++ white ++ later) (spelled ++ written ++ rest)

theorem Quoted.ends {text written : List Char} (quoted : Quoted single text written) :
    ∃ front, written = front ++ [quote single] := by
  induction quoted with
  | last reads => exact ⟨_, rfl⟩
  | gap reads apart quoted starts ih =>
    obtain ⟨front, closed⟩ := ih
    exact ⟨_, by rw [closed, ← List.append_assoc]⟩

theorem IsGap.column {white written : List Char} (apart : IsGap white written) (cursor : Cursor) :
    0 < (cursor.past written).column := by
  obtain ⟨front, rfl⟩ := apart.ends
  simp [Cursor.past_append, Cursor.pass, isBreak, Cursor.skip]

theorem quotedPieces_run {run spelled : List Char} (reads : Run single run spelled)
    (here : cursor.rest = spelled ++ tail) (ends : endsRun single tail)
    (column : 0 < cursor.column) (enough : run.length ≤ fuel) :
    quotedPieces single cursor (fuel + 1) =
      if tail.head? = some (quote single) then some (run, (cursor.past spelled).skip 1)
      else
        (Gap.read none {} (cursor.past spelled) (fuel + 1)).bind (fun found =>
          (quotedPieces single found.2 fuel).map (fun following =>
            (run ++ (found.1.fold ++ following.1), following.2))) := by
  have read := quotedRun_run reads here ends (show run.length < fuel + 1 by omega)
  have after := Cursor.past_rest here
  have noMark : cursor.atDocumentMark = false := by
    simp [Cursor.atDocumentMark, show cursor.column ≠ 0 by omega]
  have more : cursor.rest ≠ [] := by
    cases tail with
    | nil => cases ends
    | cons c tail => simp [here]
  rw [quotedPieces]
  simp [noMark, more, read, after, quote, Option.map_eq_bind]

/-- A quoted text is read run by run, and each gap is read as what it stands for. -/
theorem quotedPieces_eq {text written : List Char} (quoted : Quoted single text written)
    (here : cursor.rest = written ++ tail) (column : 0 < cursor.column)
    (ends : single → tail.head? ≠ some '\x27') (enough : written.length ≤ fuel) :
    quotedPieces single cursor fuel = some (text, cursor.past written) := by
  induction quoted generalizing cursor fuel with
  | last reads =>
    obtain ⟨fuel, rfl⟩ : ∃ n, fuel = n + 1 := ⟨fuel - 1, by simp at enough; omega⟩
    have shorter := reads.length_le
    simp only [List.length_append, List.length_singleton] at enough
    rw [List.append_assoc] at here
    rw [quotedPieces_run reads here (by cases single <;> simp_all [endsRun]) column (by omega)]
    have closing : isBreak (quote single) = false := by cases single <;> decide
    simp [Cursor.past_append, Cursor.pass, closing]
  | @gap run spelled reads white written apart later rest quoted starts ih =>
    obtain ⟨front, ends_⟩ := apart.ends
    have nonempty : 0 < written.length := by simp [ends_]
    have shorter := reads.length_le
    simp only [List.length_append] at enough
    obtain ⟨fuel, rfl⟩ : ∃ n, fuel = n + 1 := ⟨fuel - 1, by omega⟩
    simp only [List.append_assoc] at here
    obtain ⟨c, blanks, first⟩ := List.exists_cons_of_ne_nil (List.ne_nil_of_length_pos nonempty)
    have kind := apart.kind c (by simp [first])
    have ended : endsRun single (written ++ (rest ++ tail)) := by
      simp only [first, List.cons_append, endsRun, Bool.or_eq_true, decide_eq_true_eq]
      exact .inl kind
    have open_ : (written ++ (rest ++ tail)).head? ≠ some (quote single) := by
      simp only [first, List.cons_append, List.head?_cons, ne_eq, Option.some.injEq]
      rintro rfl
      revert kind
      cases single <;> decide
    have places := Cursor.past_rest here
    obtain ⟨_, closed⟩ := quoted.ends
    have restNonempty : rest ≠ [] := by simp [closed]
    have read := @Gap.read_eq {} _ none _ _ (fuel + 1) places apart.kind (by
        obtain ⟨d, rest, rfl⟩ := List.exists_cons_of_ne_nil restNonempty
        simpa using starts) (by omega)
    have following := @ih ((cursor.past spelled).past written) fuel
      (Cursor.past_rest places) (apart.column _) (by omega)
    rw [quotedPieces_run reads here ended column (by omega), if_neg open_, read]
    simp only [Option.bind_some, following, Option.map_some, apart.stands]
    simp [Cursor.past_append]

theorem quoted_eq {text written : List Char} (reads : Quoted single text written)
    (here : cursor.rest = quote single :: (written ++ tail))
    (ends : single → tail.head? ≠ some '\x27') (enough : written.length ≤ fuel) :
    quoted single cursor fuel = some (text, cursor.past (quote single :: written)) := by
  have skips : cursor.pass (quote single) = cursor.skip 1 := by
    cases single <;> rfl
  have read := @quotedPieces_eq _ (cursor.skip 1) _ fuel _ _ reads
      (skips ▸ Cursor.pass_rest here) (by simp [Cursor.skip]) ends enough
  rw [quoted, read, ← skips]
  rfl

theorem isGap_spaces (count : Nat) :
    IsGap (List.replicate (count + 1) ' ') (List.replicate (count + 1) ' ') where
  kind := by simp
  ends := ⟨_, List.replicate_succ'⟩
  stands := Gap.fold_spaces _

theorem isGap_breaks {breaks : List Char} (all : ∀ c ∈ breaks, isBreak c) (nonempty : breaks ≠ [])
    (separators : '\n' ∉ breaks) {indent : Nat} (deep : 0 < indent) :
    IsGap breaks (breaks ++ Written.pad indent) where
  kind := by
    intro c member
    rcases List.mem_append.1 member with h | h
    · exact .inr (all c h)
    · exact .inl (List.eq_of_mem_replicate h)
  ends := by
    obtain ⟨count, rfl⟩ : ∃ n, indent = n + 1 := ⟨indent - 1, by omega⟩
    exact ⟨_, by rw [Written.pad, List.replicate_succ', ← List.append_assoc]⟩
  stands := Gap.fold_breaks breaks all nonempty separators indent

end Scalar

namespace Written

open Scalar (Quoted quote)

theorem exists_spaces (text : List Char) :
    ∃ count rest, text = List.replicate count ' ' ++ rest ∧ rest.head? ≠ some ' ' := by
  obtain ⟨run, rest, whole, spaces, stops⟩ := exists_run (· = ' ') text
  refine ⟨run.length, rest, ?_, ?_⟩
  · rw [whole, ← List.eq_replicate_iff.2 ⟨rfl, fun c member => by simpa using spaces c member⟩]
  · intro head
    have other := stops ' ' head
    simp at other

theorem escapeChar_starts (c : Char) (space : c ≠ ' ') (tail : List Char) :
    (escapeChar c ++ tail).head?.all (fun d => !isBlank d && !isBreak d) := by
  rcases escapeChar_cases c with ⟨plain, shown, noBreak, -⟩ | ⟨code, escaped, -⟩
  · have noBlank := notBlank_of_isShown shown space
    simp [plain, noBlank, noBreak]
  · simp [escaped]
    decide

/-- A text in double quotes, where every break and every tab is escaped. -/
theorem quoted_double (text : List Char) :
    Quoted false text (text.flatMap escapeChar ++ ['"']) := by
  induction h : text.length using Nat.strongRecOn generalizing text with
  | ind n ih =>
    obtain ⟨run, rest, whole, inside, stops⟩ := exists_run (inRun false) text
    cases rest with
    | nil =>
      have alone : text = run := by simpa using whole
      rw [alone, ← spell_double]
      exact .last (Scalar.run_spell inside)
    | cons c rest =>
      have space : c = ' ' := by
        have other := stops c rfl
        simpa [inRun] using other
      obtain ⟨count, later, spaces, starts⟩ := exists_spaces rest
      have whole : text = run ++ List.replicate (count + 1) ' ' ++ later := by
        simp [whole, space, spaces, List.replicate_succ]
      have quoted := ih later.length (by simp [← h, whole]; omega) later rfl
      have first : (later.flatMap escapeChar ++ ['"']).head?.all
          (fun d => !isBlank d && !isBreak d) := by
        cases later with
        | nil => decide
        | cons d later =>
          simp only [List.flatMap_cons, List.append_assoc]
          exact escapeChar_starts d (by simpa using starts) _
      have written : text.flatMap escapeChar ++ ['"'] = run.flatMap (spell false)
          ++ List.replicate (count + 1) ' ' ++ (later.flatMap escapeChar ++ ['"']) := by
        have blank : escapeChar ' ' = [' '] := by decide
        simp [whole, blank, spell_double, List.flatMap_replicate]
      rw [written]
      conv => arg 2; rw [whole]
      exact .gap (Scalar.run_spell inside) (Scalar.isGap_spaces count) quoted first

theorem lines_line {indent : Nat} {first : List Char}
    (line : ∀ c ∈ first, breaksLine c = false) (second : List Char) :
    lines indent false (first ++ second) = first ++ lines indent false second := by
  induction first with
  | nil => rfl
  | cons c first ih =>
    simp [lines, line c, ih (fun d hd => line d (by simp [hd]))]

theorem lines_breaks {indent : Nat} {first : List Char} (breaks : ∀ c ∈ first, breaksLine c)
    (fresh : Bool) (nonempty : first ≠ []) (second : List Char) :
    lines indent fresh (first ++ second) = first ++ lines indent true second := by
  induction first generalizing fresh with
  | nil => exact absurd rfl nonempty
  | cons c first ih =>
    have kind := breaks c (by simp)
    cases first with
    | nil => simp [lines, kind]
    | cons d first =>
      have later := ih (fun e he => breaks e (by simp [he])) true (by simp)
      simp only [List.cons_append] at later
      simp [lines, kind] at later ⊢
      exact later

theorem lines_fresh {indent : Nat} {c : Char} (line : breaksLine c = false) (rest : List Char) :
    lines indent true (c :: rest) = pad indent ++ lines indent false (c :: rest) := by
  simp [lines, line]

theorem length_le_lines (indent : Nat) (fresh : Bool) (text : List Char) :
    text.length ≤ (lines indent fresh text).length := by
  induction text generalizing fresh with
  | nil => simp
  | cons c text ih =>
    have after := ih true
    have within := ih false
    unfold lines
    split
    · simpa using after
    · simp only [List.length_append, List.length_cons]
      omega

theorem adjacent_append {left right : Char → Bool} {front rest : List Char}
    (apart : adjacent left right (front ++ rest) = false) : adjacent left right rest = false := by
  induction front with
  | nil => exact apart
  | cons c front ih =>
    simp only [List.cons_append, adjacent, Bool.or_eq_false_iff] at apart
    exact ih apart.2

theorem adjacent_pair {left right : Char → Bool} {front rest : List Char} {c d : Char}
    (apart : adjacent left right (front ++ c :: d :: rest) = false) (first : left c) :
    right d = false := by
  have here := adjacent_append apart
  simp only [adjacent, List.head?_cons, Option.any_some, Bool.or_eq_false_iff] at here
  simpa [first] using here.1

/-- The texts that single quotes can hold: breaks are separators, and no space is next to one. -/
structure FitsSingle (text : List Char) : Prop where
  shown : ∀ c ∈ text, isShown c
  separators : '\n' ∉ text
  spaceBreak : adjacent (· = ' ') breaksLine text = false
  breakSpace : adjacent breaksLine (· = ' ') text = false

theorem FitsSingle.later {front rest : List Char} (fits : FitsSingle (front ++ rest)) :
    FitsSingle rest where
  shown := fun c member => fits.shown c (by simp [member])
  separators := fun member => fits.separators (by simp [member])
  spaceBreak := adjacent_append fits.spaceBreak
  breakSpace := adjacent_append fits.breakSpace

theorem breaksLine_eq {c : Char} (shown : isShown c) : breaksLine c = isBreak c := by
  have noReturn : c ≠ '\r' := by
    rintro rfl
    revert shown
    decide
  have noNext : c ≠ '\u0085' := by
    rintro rfl
    revert shown
    decide
  simp [breaksLine, noReturn, noNext]

def singleBody (indent : Nat) (text : List Char) : List Char :=
  lines indent false (text.flatMap (spell true))
    ++ (if text.getLast?.any breaksLine then pad indent else []) ++ ['\x27']

theorem spell_single_of_ne {c : Char} (other : c ≠ '\x27') : spell true c = [c] := by
  simp [spell, other]

theorem singleBody_line {indent : Nat} {line later : List Char}
    (noBreaks : ∀ c ∈ line, breaksLine c = false) :
    singleBody indent (line ++ later) = line.flatMap (spell true) ++ singleBody indent later := by
  have spelled : ∀ c ∈ line.flatMap (spell true), breaksLine c = false := by
    intro c member
    obtain ⟨d, here, spelling⟩ := List.mem_flatMap.1 member
    have same : c = d := by
      simp only [spell, if_true] at spelling
      split at spelling <;> simpa using spelling
    exact same ▸ noBreaks d here
  have last : (line ++ later).getLast?.any breaksLine = later.getLast?.any breaksLine := by
    cases later with
    | nil =>
      cases h : line.getLast? with
      | none => simp [h]
      | some c => simp [h, noBreaks c (List.mem_of_getLast? h)]
    | cons c later => simp [List.getLast?_append, List.getLast?_cons]
  simp only [singleBody, List.flatMap_append, lines_line spelled, last, List.append_assoc]

theorem spell_breaks {breaks : List Char} (all : ∀ c ∈ breaks, breaksLine c) :
    breaks.flatMap (spell true) = breaks := by
  induction breaks with
  | nil => rfl
  | cons c breaks ih =>
    have other : c ≠ '\x27' := by
      rintro rfl
      exact absurd (all _ List.mem_cons_self) (by decide)
    rw [List.flatMap_cons, spell_single_of_ne other, ih (fun d hd => all d (by simp [hd]))]
    rfl

theorem singleBody_breaks {indent : Nat} {breaks later : List Char}
    (all : ∀ c ∈ breaks, breaksLine c) (nonempty : breaks ≠ [])
    (starts : ∀ c ∈ later.head?, breaksLine c = false) :
    singleBody indent (breaks ++ later) = breaks ++ pad indent ++ singleBody indent later := by
  simp only [singleBody, List.flatMap_append, spell_breaks all, lines_breaks all false nonempty]
  cases later with
  | nil =>
    have last : breaks.getLast?.any breaksLine := by
      rw [List.getLast?_eq_some_getLast nonempty]
      exact all _ (List.getLast_mem nonempty)
    simp [lines, last]
  | cons c later =>
    have line := starts c rfl
    have first : ∃ rest, (c :: later).flatMap (spell true) = c :: rest := by
      simp only [List.flatMap_cons, spell, if_true]
      split <;> simp
    obtain ⟨rest, starts⟩ := first
    have last : (breaks ++ c :: later).getLast? = (c :: later).getLast? := by
      simp [List.getLast?_append, List.getLast?_cons]
    rw [starts, lines_fresh line, last]
    simp

theorem singleBody_starts {indent : Nat} {text : List Char}
    (starts : ∀ c ∈ text.head?, isBlank c = false ∧ breaksLine c = false) :
    (singleBody indent text).head?.all (fun c => !isBlank c && !isBreak c) := by
  cases text with
  | nil => simp [singleBody, lines, isBlank, isBreak]
  | cons c text =>
    obtain ⟨noBlank, line⟩ := starts c rfl
    have noBreak : isBreak c = false := by simp_all [breaksLine]
    have first : ∃ rest, (c :: text).flatMap (spell true) = c :: rest := by
      simp only [List.flatMap_cons, spell, if_true]
      split <;> simp
    obtain ⟨rest, spelled⟩ := first
    simp [singleBody, spelled, lines, line, noBlank, noBreak]

variable {indent : Nat} {run later : List Char}

theorem quoted_spaces (inside : ∀ c ∈ run, inRun true c) (noBreaks : ∀ c ∈ run, breaksLine c = false)
    {count : Nat} (fits : FitsSingle (run ++ List.replicate (count + 1) ' ' ++ later))
    (starts : later.head? ≠ some ' ') (quoted : Quoted true later (singleBody indent later)) :
    Quoted true (run ++ List.replicate (count + 1) ' ' ++ later)
      (singleBody indent (run ++ List.replicate (count + 1) ' ' ++ later)) := by
  have first : ∀ d ∈ later.head?, isBlank d = false ∧ breaksLine d = false := by
    intro d head
    obtain ⟨rest, rfl⟩ := List.head?_eq_some_iff.1 head
    have apart := fits.spaceBreak
    rw [List.replicate_succ', List.append_assoc, List.append_assoc, ← List.append_assoc,
      List.singleton_append] at apart
    have noSpace : d ≠ ' ' := fun same => starts (by simp [same])
    exact ⟨notBlank_of_isShown (fits.shown d (by simp)) noSpace, adjacent_pair apart (by simp)⟩
  have line : ∀ d ∈ run ++ List.replicate (count + 1) ' ', breaksLine d = false := by
    intro d member
    rcases List.mem_append.1 member with h | h
    · exact noBreaks d h
    · rw [List.eq_of_mem_replicate h]
      decide
  have blanks : (List.replicate (count + 1) ' ').flatMap (spell true)
      = List.replicate (count + 1) ' ' := by
    have blank : spell true ' ' = [' '] := by decide
    simp [List.flatMap_replicate, blank]
  rw [singleBody_line line, List.flatMap_append, blanks]
  exact .gap (Scalar.run_spell inside) (Scalar.isGap_spaces count) quoted (singleBody_starts first)

theorem quoted_breaks (inside : ∀ c ∈ run, inRun true c) (noBreaks : ∀ c ∈ run, breaksLine c = false)
    {breaks : List Char} (all : ∀ c ∈ breaks, isBreak c) (nonempty : breaks ≠ [])
    (fits : FitsSingle (run ++ (breaks ++ later))) (starts : ∀ c ∈ later.head?, isBreak c = false)
    (deep : 0 < indent) (quoted : Quoted true later (singleBody indent later)) :
    Quoted true (run ++ (breaks ++ later)) (singleBody indent (run ++ (breaks ++ later))) := by
  have lines : ∀ c ∈ breaks, breaksLine c := fun c member => by simp [breaksLine, all c member]
  have separators : '\n' ∉ breaks := fun member => fits.separators (by simp [member])
  have first : ∀ d ∈ later.head?, isBlank d = false ∧ breaksLine d = false := by
    intro d head
    obtain ⟨rest, rfl⟩ := List.head?_eq_some_iff.1 head
    have shown := fits.shown d (by simp)
    have apart := fits.breakSpace
    rw [← List.dropLast_concat_getLast nonempty, List.append_assoc, ← List.append_assoc,
      List.singleton_append] at apart
    have noSpace := adjacent_pair apart (lines _ (List.getLast_mem nonempty))
    exact ⟨notBlank_of_isShown shown (by simpa using noSpace),
      by rw [breaksLine_eq shown, starts d head]⟩
  rw [singleBody_line noBreaks,
    singleBody_breaks lines nonempty (fun d head => (first d head).2),
    ← List.append_assoc, ← List.append_assoc]
  exact .gap (Scalar.run_spell inside) (Scalar.isGap_breaks all nonempty separators deep) quoted
    (singleBody_starts first)

/-- A text in single quotes, in lines that are indented unless there is one line only. -/
theorem quoted_single {text : List Char} (fits : FitsSingle text)
    (deep : 0 < indent ∨ text.any breaksLine = false) :
    Quoted true text (singleBody indent text) := by
  induction h : text.length using Nat.strongRecOn generalizing text with
  | ind n ih =>
    obtain ⟨run, rest, rfl, inside, stops⟩ := exists_run (inRun true) text
    have noBreaks : ∀ c ∈ run, breaksLine c = false := by
      intro c member
      have kind := inside c member
      simp only [inRun, if_true, Bool.and_eq_true, Bool.not_eq_true'] at kind
      rw [breaksLine_eq (fits.shown c (by simp [member])), kind.2]
    have restFits := fits.later
    cases rest with
    | nil =>
      rw [singleBody_line noBreaks, List.append_nil]
      exact .last (Scalar.run_spell inside)
    | cons c rest =>
      by_cases space : c = ' '
      · obtain ⟨count, later, spaces, starts⟩ := exists_spaces rest
        have split : c :: rest = List.replicate (count + 1) ' ' ++ later := by
          simp [space, spaces, List.replicate_succ]
        rw [split] at restFits deep h
        have quoted := ih later.length (by simp [← h]; omega) restFits.later
          (deep.imp id (by simp)) rfl
        rw [split, ← List.append_assoc] at fits ⊢
        exact quoted_spaces inside noBreaks fits starts quoted
      · have breaks : isBreak c := by
          have noBlank := notBlank_of_isShown (fits.shown c (by simp)) space
          simpa [inRun, noBlank] using stops c rfl
        obtain ⟨more, later, rfl, all, starts⟩ := exists_run isBreak rest
        have deep : 0 < indent := by
          rcases deep with deep | line
          · exact deep
          · simp [breaksLine, breaks] at line
        rw [← List.cons_append] at restFits
        have quoted := ih later.length (by simp [← h]; omega) restFits.later (.inl deep) rfl
        exact @quoted_breaks _ _ _ inside noBreaks (c :: more) (by simpa [breaks] using all)
            (by simp) fits starts deep quoted

end Written

end ApiManifest.Yaml
