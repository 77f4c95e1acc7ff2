import ApiManifest.Proofs.Yaml.QuotedScalar

/-!
A text of several lines is read back from the block it is written as: its lines lose their indent,
and the header of the block says how many of the breaks at its end belong to it.
-/

namespace ApiManifest.Yaml.Scalar

open Written (breaksLine lines pad)

variable {cursor : Cursor} {indent column fuel : Nat} {breaks next text tail : List Char}

theorem count_spaces (here : cursor.rest = pad column ++ tail) (place : column ≤ indent)
    (left : column < indent → ∀ c ∈ tail.head?, isBlank c = false) :
    min (cursor.takeWhile (· = ' ')).length indent = column := by
  rw [Cursor.takeWhile, here, pad, List.takeWhile_append_of_pos (by simp)]
  rcases Nat.lt_or_eq_of_le place with less | same
  · have none : tail.takeWhile (· = ' ') = [] := by
      cases tail with
      | nil => rfl
      | cons c tail => simp [(ne_of_notBlank (left less c rfl)).1]
    simp [none]
    omega
  · simp
    omega

theorem blockBreaks_nil (starts : cursor.column = 0) (here : cursor.rest = pad column ++ tail)
    (ends : ∀ c ∈ tail.head?, isBreak c = false) (place : column ≤ indent)
    (left : column < indent → ∀ c ∈ tail.head?, isBlank c = false) (read : List Char)
    (deepest : Nat) :
    blockBreaks (some indent) read deepest cursor (fuel + 1)
      = some ⟨read, max deepest column, cursor.past (pad column)⟩ := by
  have after : (cursor.skip column).rest = tail := by
    simpa using Cursor.past_rest here
  have place_ : (cursor.skip column).column = column := by simp [Cursor.skip, starts]
  rw [blockBreaks]
  simp only [starts, Nat.sub_zero, count_spaces here place left, after, place_, Cursor.past_pad]
  cases tail with
  | nil => simp
  | cons c tail =>
    have noBreak := ends c rfl
    by_cases less : column < indent
    · simp [(ne_of_notBlank (left less c rfl)).2, noBreak]
    · simp [less, noBreak]

/-- Empty lines are read up to the indent of a line, or to a line that stands further left. -/
theorem blockBreaks_eq (all : ∀ c ∈ breaks, isBreak c) (starts : cursor.column = 0)
    (here : cursor.rest = breaks ++ (pad column ++ tail))
    (ends : ∀ c ∈ tail.head?, isBreak c = false) (place : column ≤ indent)
    (left : column < indent → ∀ c ∈ tail.head?, isBlank c = false)
    (enough : breaks.length < fuel) (read : List Char) (deepest : Nat) :
    ∃ deep, blockBreaks (some indent) read deepest cursor fuel
      = some ⟨read ++ breaks, deep, cursor.past (breaks ++ pad column)⟩ := by
  induction breaks generalizing cursor fuel read deepest with
  | nil =>
    obtain ⟨fuel, rfl⟩ : ∃ n, fuel = n + 1 := ⟨fuel - 1, by omega⟩
    have stops := @blockBreaks_nil _ _ _ fuel _ starts here ends place left read deepest
    exact ⟨max deepest column, by simpa using stops⟩
  | cons c breaks ih =>
    obtain ⟨fuel, rfl⟩ : ∃ n, fuel = n + 1 := ⟨fuel - 1, by omega⟩
    have breaks_ := all c (by simp)
    obtain ⟨noSpace, noTab⟩ := ne_of_isBreak breaks_
    have skips : cursor.pass c = cursor.skipBreak := by simp [Cursor.pass, breaks_]
    simp only [List.cons_append] at here
    have following := @ih cursor.skipBreak fuel
      (fun d hd => all d (by simp [hd])) rfl (skips ▸ Cursor.pass_rest here)
      (by simpa using enough) (read ++ [c]) (max deepest 0)
    obtain ⟨deep, following⟩ := following
    refine ⟨deep, ?_⟩
    have skip : cursor.skip 0 = cursor := by simp [Cursor.skip]
    rw [blockBreaks]
    simp only [Nat.max_zero, List.append_assoc] at following
    simp [Cursor.takeWhile, here, noSpace, skip, starts, noTab, breaks_, skips, following]

theorem blockLines_end (left : cursor.column ≠ indent) (joint : Joint) (fuel : Nat) :
    blockLines true indent joint cursor fuel = some ⟨[], joint.last, joint.later, cursor⟩ := by
  cases fuel with
  | zero => rfl
  | succ fuel => simp [blockLines, left]

theorem blockLines_line {line : List Char} {c : Char} (place : cursor.column = indent)
    (here : cursor.rest = line ++ c :: (breaks ++ (pad column ++ tail)))
    (inside : ∀ d ∈ line, isBreak d = false) (all : ∀ d ∈ c :: breaks, isBreak d)
    (ends : ∀ d ∈ tail.head?, isBreak d = false) (within : column ≤ indent)
    (left : column < indent → ∀ d ∈ tail.head?, isBlank d = false)
    (enough : breaks.length ≤ fuel) (joint : Joint) :
    ∃ indented, blockLines true indent joint cursor (fuel + 1) =
      (blockLines true indent ⟨some c, breaks, indented⟩
        (cursor.past (line ++ c :: (breaks ++ pad column))) fuel).map (fun following =>
          { following with
            text := joint.last.toList ++ (joint.later ++ (line ++ following.text)) }) := by
  have break_ := all c (by simp)
  have taken : cursor.takeWhile (fun c => !isBreak c) = line := by
    rw [Cursor.takeWhile, here, List.takeWhile_append_of_pos (by simpa using inside)]
    simp [break_]
  have after : (cursor.skip line.length).rest = c :: (breaks ++ (pad column ++ tail)) := by
    simp [Cursor.skip, here]
  have more : cursor.rest ≠ [] := by simp [here]
  have start : (cursor.past (line ++ [c])).column = 0 := by
    simp [Cursor.past_append, Cursor.pass, break_, Cursor.skipBreak]
  have empty : ∀ d ∈ breaks, isBreak d := fun d member => all d (by simp [member])
  obtain ⟨deep, found⟩ := @blockBreaks_eq _ _ _ (fuel + 1) _ _ empty start
      (Cursor.past_rest (by simpa using here)) ends within left (by omega) [] 0
  simp only [Cursor.past_append, Cursor.past_of_line inside, Cursor.past_cons, Cursor.past_nil,
    Cursor.pass, break_, if_true] at found
  refine ⟨cursor.rest.head?.any isBlank, ?_⟩
  rw [blockLines]
  simp [place, more, taken, after, found, Joint.fold, Cursor.past_append,
    Cursor.past_of_line inside, Cursor.pass, break_, Option.map_eq_bind]

def feed (text : List Char) : List Char :=
  if text.getLast?.any breaksLine then [] else ['\n']

theorem lines_last {line breaks : List Char} (inside : ∀ c ∈ line, breaksLine c = false)
    (nonempty : line ≠ []) (all : ∀ c ∈ breaks, breaksLine c) :
    lines indent false (line ++ breaks) ++ feed (line ++ breaks)
      = line ++ breaks.head?.getD '\n' :: breaks.tail := by
  rw [Written.lines_line inside]
  cases breaks with
  | nil =>
    have last := inside _ (List.getLast_mem nonempty)
    simp [lines, feed, List.getLast?_eq_some_getLast nonempty, last]
  | cons c breaks =>
    have ended : breaksLine ((c :: breaks).getLast (by simp)) := all _ (List.getLast_mem _)
    have split := @Written.lines_breaks indent _ all false (by simp) []
    rw [List.append_nil] at split
    rw [split]
    simp [feed, lines, List.getLast?_eq_some_getLast, ended]

theorem lines_more {line breaks later : List Char} (inside : ∀ c ∈ line, breaksLine c = false)
    (all : ∀ c ∈ breaks, breaksLine c) (nonempty : breaks ≠ [])
    (starts : ∃ c ∈ later.head?, breaksLine c = false) :
    lines indent false (line ++ (breaks ++ later)) ++ feed (line ++ (breaks ++ later))
      = line ++ (breaks ++ (pad indent ++ (lines indent false later ++ feed later))) := by
  obtain ⟨c, head, noBreak⟩ := starts
  obtain ⟨rest, rfl⟩ := List.head?_eq_some_iff.1 head
  rw [Written.lines_line inside, Written.lines_breaks all false nonempty,
    Written.lines_fresh noBreak]
  have same : feed (line ++ (breaks ++ c :: rest)) = feed (c :: rest) := by
    simp [feed, List.getLast?_append, List.getLast?_cons]
  simp [same]

theorem column_after_line {line : List Char} {b : Char} (all : ∀ c ∈ b :: breaks, isBreak c)
    (cursor : Cursor) (count : Nat) :
    (cursor.past (line ++ b :: (breaks ++ pad count))).column = count := by
  have start : ((cursor.past line).pass b).column = 0 := by
    simp [Cursor.pass, all b (by simp), Cursor.skipBreak]
  have empty : ∀ c ∈ breaks, isBreak c := fun c member => all c (by simp [member])
  rw [Cursor.past_append, Cursor.past_cons]
  exact Cursor.column_past_pad empty start count

theorem blockLines_last {line : List Char} (place : cursor.column = indent)
    (here : cursor.rest = lines indent false (line ++ breaks) ++ feed (line ++ breaks)
      ++ (pad column ++ next))
    (inside : ∀ c ∈ line, breaksLine c = false) (nonempty : line ≠ [])
    (all : ∀ c ∈ breaks, isBreak c) (left : column < indent)
    (ends : ∀ c ∈ next.head?, isBlank c = false ∧ isBreak c = false) (joint : Joint)
    (enough : breaks.length ≤ fuel) :
    blockLines true indent joint cursor (fuel + 1) =
      some ⟨joint.last.toList ++ (joint.later ++ line), some (breaks.head?.getD '\n'), breaks.tail,
        cursor.past (lines indent false (line ++ breaks) ++ feed (line ++ breaks)
          ++ pad column)⟩ := by
  have noBreaks : ∀ c ∈ line, isBreak c = false := fun c member => by
    have noBreak := inside c member
    simp only [breaksLine, Bool.or_eq_false_iff] at noBreak
    simp [noBreak]
  have every : ∀ c ∈ breaks.head?.getD '\n' :: breaks.tail, isBreak c := by
    cases breaks with
    | nil => simp [isBreak]
    | cons c breaks => simpa using all
  rw [lines_last inside nonempty (fun c member => by simp [breaksLine, all c member])] at here ⊢
  have split : cursor.rest = line ++ breaks.head?.getD '\n' ::
      (breaks.tail ++ (pad column ++ next)) := by simpa using here
  obtain ⟨indented, first⟩ := @blockLines_line _ _ _ fuel _ _ _ _ place split noBreaks every
      (fun c head => (ends c head).2) (Nat.le_of_lt left) (fun _ c head => (ends c head).1)
      (by rw [List.length_tail]; omega) joint
  have away := @column_after_line _ line _ every cursor column
  rw [first, blockLines_end (by omega)]
  simp

/-- Lines from the first character of one on are read down to the line after the block. -/
theorem blockLines_eq (same : ∀ c ∈ text, breaksLine c = isBreak c)
    (starts : ∃ c ∈ text.head?, isBreak c = false) (place : cursor.column = indent)
    (here : cursor.rest = lines indent false text ++ feed text ++ (pad column ++ next))
    (left : column < indent) (ends : ∀ c ∈ next.head?, isBlank c = false ∧ isBreak c = false)
    (joint : Joint) (enough : text.length < fuel) :
    ∃ body breaks, text = body ++ breaks ∧ (∀ c ∈ breaks, isBreak c) ∧
      (∃ c ∈ body.getLast?, isBreak c = false) ∧
      blockLines true indent joint cursor fuel =
        some ⟨joint.last.toList ++ (joint.later ++ body), some (breaks.head?.getD '\n'), breaks.tail,
          cursor.past (lines indent false text ++ feed text ++ pad column)⟩ := by
  induction h : text.length using Nat.strongRecOn generalizing text cursor fuel joint with
  | ind n ih =>
    obtain ⟨fuel, rfl⟩ : ∃ n, fuel = n + 1 := ⟨fuel - 1, by omega⟩
    obtain ⟨line, rest, rfl, inside, stops⟩ := exists_run (fun c => !isBreak c) text
    obtain ⟨breaks, later, rfl, all, starts_⟩ := exists_run isBreak rest
    have inside : ∀ c ∈ line, isBreak c = false := by simpa using inside
    have inside_ : ∀ c ∈ line, breaksLine c = false := fun c member => by
      rw [same c (by simp [member]), inside c member]
    have all_ : ∀ c ∈ breaks, breaksLine c := fun c member => by
      rw [same c (by simp [member]), all c member]
    have nonempty : line ≠ [] := by
      rintro rfl
      obtain ⟨c, head, noBreak⟩ := starts
      have other := stops c (by simpa using head)
      simp [noBreak] at other
    have last : ∃ c ∈ line.getLast?, isBreak c = false :=
      ⟨_, List.getLast?_eq_some_getLast nonempty, inside _ (List.getLast_mem nonempty)⟩
    cases later with
    | nil =>
      rw [List.append_nil] at here ⊢
      exact ⟨line, breaks, rfl, all, last, blockLines_last place here inside_ nonempty all left
        ends joint (by simp at enough ⊢; omega)⟩
    | cons c later =>
      have noBreak := starts_ c rfl
      have some_breaks : breaks ≠ [] := by
        rintro rfl
        have other := stops c rfl
        simp [noBreak] at other
      have laterSame : ∀ d ∈ c :: later, breaksLine d = isBreak d := fun d member =>
        same d (by simp only [List.mem_append]; exact .inr (.inr member))
      have noBreak_ : breaksLine c = false := by rw [laterSame c (by simp), noBreak]
      rw [lines_more inside_ all_ some_breaks ⟨c, rfl, noBreak_⟩] at here ⊢
      obtain ⟨b, breaks, rfl⟩ := List.exists_cons_of_ne_nil some_breaks
      have split : cursor.rest = line ++ b :: (breaks ++ (pad indent ++
          (lines indent false (c :: later) ++ feed (c :: later) ++ (pad column ++ next)))) := by
        simpa using here
      have lineStarts : ∀ d ∈ (lines indent false (c :: later) ++ feed (c :: later)
          ++ (pad column ++ next)).head?, isBreak d = false := by
        intro d head
        simp only [lines, noBreak_, Bool.false_eq_true, if_false, List.nil_append,
          List.cons_append, List.head?_cons, Option.mem_some_iff] at head
        exact head ▸ noBreak
      obtain ⟨indented, first⟩ := @blockLines_line _ _ _ fuel _ _ _ _ place split inside all
          lineStarts (Nat.le_refl indent) (fun less => absurd less (Nat.lt_irrefl _))
          (by simp at enough ⊢; omega) joint
      have place_ := @column_after_line _ line _ all cursor indent
      obtain ⟨body, tail, whole, ended, ⟨d, lastOf, notBreak⟩, following⟩ :=
        ih (c :: later).length (by simp [← h]; omega) laterSame ⟨c, rfl, noBreak⟩ place_
          (Cursor.past_rest (by simpa using split)) ⟨some b, breaks, indented⟩
          (show (c :: later).length < fuel by simp at enough ⊢; omega) rfl
      rw [Option.mem_def] at lastOf
      refine ⟨line ++ (b :: breaks ++ body), tail, by simp [whole], ended, ⟨d, ?_, notBreak⟩, ?_⟩
      · rw [Option.mem_def, ← List.append_assoc, List.getLast?_append, lastOf]
        rfl
      · rw [first, following]
        simp [Cursor.past_append]

/-- The text of a block, where its lines end with these breaks. -/
def Chomping.keeps (chomping : Chomping) (last : Option Char) (later : List Char) : List Char :=
  match chomping with
  | .strip => []
  | .clip => last.toList
  | .keep => last.toList ++ later

def hint (text : List Char) : List Char :=
  if text.head?.any (fun c => c = ' ' || breaksLine c) then ['2'] else []

def chompingOf (text : List Char) : Chomping :=
  match Written.chomping text with
  | ['-'] => .strip
  | ['+'] => .keep
  | _ => .clip

theorem chomping_cases (text : List Char) :
    Written.chomping text = ['-'] ∨ Written.chomping text = ['+'] ∨ Written.chomping text = [] := by
  unfold Written.chomping
  split
  · simp
  · split
    · simp
    · split <;> simp

theorem blockIndicators_eq (here : cursor.rest = hint text ++ (Written.chomping text ++ '\n' :: tail)) :
    blockIndicators cursor = ⟨chompingOf text, if hint text = [] then none else some 2,
      cursor.past (hint text ++ Written.chomping text)⟩ := by
  have two : increment? '2' = some 2 := by decide
  have hinted : hint text = [] ∨ hint text = ['2'] := by
    unfold hint
    split <;> simp
  have none_ : chomping? '2' = none ∧ chomping? '\n' = none ∧ increment? '\n' = none := by decide
  rcases hinted with h | h <;> rcases chomping_cases text with c | c | c <;>
    simp [blockIndicators, here, h, c, chompingOf, chomping?, two, none_, Cursor.pass, isBreak,
      Cursor.skip_skip]

theorem chomping_append (front : List Char) (last : Char) :
    Written.chomping (front ++ [last]) =
      if !breaksLine last then ['-'] else if front.getLast?.all breaksLine then ['+'] else [] := by
  simp [Written.chomping]

theorem keeps_chompingOf {body breaks : List Char} (all : ∀ c ∈ breaks, breaksLine c)
    (last : ∃ c ∈ body.getLast?, breaksLine c = false) :
    (chompingOf (body ++ breaks)).keeps (some (breaks.head?.getD '\n')) breaks.tail = breaks := by
  obtain ⟨c, ends, line⟩ := last
  rcases List.eq_nil_or_concat breaks with rfl | ⟨front, b, rfl⟩
  · obtain ⟨before, rfl⟩ := List.getLast?_eq_some_iff.1 ends
    simp [chompingOf, chomping_append, line, Chomping.keeps]
  · simp only [List.concat_eq_append] at all ⊢
    have break_ := all b (by simp)
    rw [Option.mem_def] at ends
    rw [chompingOf, ← List.append_assoc, chomping_append, List.getLast?_append, ends]
    cases front with
    | nil => simp [break_, line, Chomping.keeps]
    | cons d front =>
      have ended : breaksLine ((d :: front).getLast (by simp)) :=
        all _ (List.mem_append_left _ (List.getLast_mem _))
      simp [break_, List.getLast?_eq_some_getLast, ended, Chomping.keeps]

theorem keeps_breaks {breaks : List Char} (all : ∀ c ∈ breaks, breaksLine c)
    (nonempty : breaks ≠ []) : (chompingOf breaks).keeps none breaks = breaks := by
  rcases List.eq_nil_or_concat breaks with rfl | ⟨front, b, rfl⟩
  · exact absurd rfl nonempty
  · simp only [List.concat_eq_append] at all ⊢
    have break_ := all b (by simp)
    have ended : front.getLast?.all breaksLine := by
      cases h : front.getLast? with
      | none => rfl
      | some c => exact all c (List.mem_append_left _ (List.mem_of_getLast? h))
    simp [chompingOf, chomping_append, break_, ended, Chomping.keeps]

theorem blockBreaks_none {c : Char} (starts : cursor.column = 0)
    (here : cursor.rest = pad column ++ c :: tail) (noBlank : isBlank c = false)
    (noBreak : isBreak c = false) :
    blockBreaks none [] 0 cursor (fuel + 1) = some ⟨[], column, cursor.past (pad column)⟩ := by
  obtain ⟨noSpace, noTab⟩ := ne_of_notBlank noBlank
  have count : (cursor.takeWhile (· = ' ')).length = column := by
    rw [Cursor.takeWhile, here, pad, List.takeWhile_append_of_pos (by simp)]
    simp [noSpace]
  have after : (cursor.skip column).rest = c :: tail := by
    simpa using Cursor.past_rest here
  have place : (cursor.skip column).column = column := by simp [Cursor.skip, starts]
  rw [blockBreaks]
  simp [count, after, place, noTab, noBreak]

theorem endHeader_eq (here : cursor.rest = '\n' :: tail) :
    endHeader cursor = some (cursor.pass '\n') := by
  have skip : cursor.skip 0 = cursor := by simp [Cursor.skip]
  simp [endHeader, Cursor.skipWhile, here, isBlank, isBreak, skip, Cursor.pass]

theorem block_eq {head deep : Nat} {body : List Char} {found : BlockText} {place : Cursor}
    (here : cursor.rest = '|' :: (hint text ++ (Written.chomping text ++ '\n' :: body)))
    (opening : blockBreaks (if hint text = [] then none else some (head + 2)) [] 0
      (cursor.past ('|' :: (hint text ++ (Written.chomping text ++ ['\n'])))) fuel
        = some ⟨breaks, deep, place⟩)
    (depth : hint text = [] → deep = head + 2)
    (read : blockLines true (head + 2) ⟨none, breaks, false⟩ place fuel = some found) :
    block true (some head) cursor fuel
      = some (found.text ++ (chompingOf text).keeps found.last found.later, found.cursor) := by
  have bar : (cursor.skip 1).rest = hint text ++ (Written.chomping text ++ '\n' :: body) := by
    simp [Cursor.skip, here]
  have after := @Cursor.past_rest _ (hint text ++ Written.chomping text) _ (by simpa using bar)
  simp only [Cursor.past_cons, Cursor.past_append, Cursor.past_nil] at opening
  rw [show cursor.pass '|' = cursor.skip 1 from rfl, ← Cursor.past_append] at opening
  have indent : (if hint text = [] then none else some (head + 2)).getD
      (max (max deep (head + 1)) 1) = head + 2 := by
    split
    · next empty =>
      simp [depth empty]
    · rfl
  unfold block
  simp only [blockIndicators_eq bar, endHeader_eq after, Option.bind_eq_bind, Option.bind_some]
  have given : (if hint text = [] then none else some 2).map (fun increment =>
      (some head).getD 0 + increment) = if hint text = [] then none else some (head + 2) := by
    split <;> rfl
  simp only [given, opening, Option.bind_some, indent, read]
  cases chompingOf text <;> simp [Chomping.keeps]

theorem column_past_header (cursor : Cursor) (front : List Char) :
    (cursor.past (front ++ ['\n'])).column = 0 := by
  simp [Cursor.past_append, Cursor.pass, isBreak, Cursor.skipBreak]

theorem block_breaks {head : Nat} (all : ∀ c ∈ breaks, isBreak c) (nonempty : breaks ≠ [])
    (here : cursor.rest = '|' :: (hint breaks ++ (Written.chomping breaks ++ '\n' ::
      (breaks ++ (pad column ++ next)))))
    (left : column ≤ head) (ends : ∀ c ∈ next.head?, isBlank c = false ∧ isBreak c = false)
    (enough : breaks.length < fuel) :
    block true (some head) cursor fuel = some (breaks, cursor.past ('|' :: (hint breaks
      ++ (Written.chomping breaks ++ '\n' :: (breaks ++ pad column))))) := by
  have all_ : ∀ c ∈ breaks, breaksLine c := fun c member => by simp [breaksLine, all c member]
  have hinted : hint breaks ≠ [] := by
    obtain ⟨b, breaks, rfl⟩ := List.exists_cons_of_ne_nil nonempty
    simp [hint, all_ b]
  have start := column_past_header cursor ('|' :: (hint breaks ++ Written.chomping breaks))
  have rest : (cursor.past ('|' :: (hint breaks ++ Written.chomping breaks) ++ ['\n'])).rest
      = breaks ++ (pad column ++ next) := Cursor.past_rest (by simpa using here)
  obtain ⟨deep, opening⟩ := @blockBreaks_eq _ (head + 2) _ fuel _ _ all start rest
      (fun c member => (ends c member).2) (by omega) (fun _ c member => (ends c member).1) enough
      [] 0
  have away := Cursor.column_past_pad all start column
  have read := blockLines_end (show _ ≠ head + 2 by rw [away]; omega) ⟨none, breaks, false⟩ fuel
  have whole := block_eq here (by simpa [hinted] using opening) (fun h => absurd h hinted) read
  rw [whole]
  simp [keeps_breaks all_ nonempty, Cursor.past_append]

/-- The breaks in front of a line and its indent are read whether or not the header says it. -/
theorem block_opening {head : Nat} {c : Char} {rest : List Char} (all : ∀ c ∈ breaks, isBreak c)
    (noBreak : isBreak c = false) (noTab : c ≠ '\t') (starts : cursor.column = 0)
    (here : cursor.rest = breaks ++ (pad (head + 2) ++ c :: tail))
    (enough : breaks.length < fuel) :
    ∃ deep, blockBreaks (if hint (breaks ++ c :: rest) = [] then none else some (head + 2)) [] 0
        cursor fuel = some ⟨breaks, deep, cursor.past (breaks ++ pad (head + 2))⟩ ∧
      (hint (breaks ++ c :: rest) = [] → deep = head + 2) := by
  by_cases hinted : hint (breaks ++ c :: rest) = []
  · cases breaks with
    | nil =>
      have noSpace : c ≠ ' ' := by
        rintro rfl
        simp [hint] at hinted
      obtain ⟨fuel, rfl⟩ : ∃ n, fuel = n + 1 := ⟨fuel - 1, by omega⟩
      have read := @blockBreaks_none _ _ fuel _ _ starts here (by simp [isBlank, noSpace, noTab])
          noBreak
      refine ⟨head + 2, ?_, fun _ => rfl⟩
      rw [if_pos hinted, read, List.nil_append]
    | cons b breaks => simp [hint, breaksLine, all b] at hinted
  · obtain ⟨deep, read⟩ := blockBreaks_eq all starts here (by simpa using noBreak) (Nat.le_refl _)
        (fun less => absurd less (Nat.lt_irrefl _)) enough [] 0
    exact ⟨deep, by simpa [hinted] using read, fun h => absurd h hinted⟩

theorem block_lines {head : Nat} {c : Char} {rest : List Char} (all : ∀ c ∈ breaks, isBreak c)
    (same : ∀ d ∈ c :: rest, breaksLine d = isBreak d) (noBreak : isBreak c = false)
    (noTab : c ≠ '\t')
    (here : cursor.rest = '|' :: (hint (breaks ++ c :: rest)
      ++ (Written.chomping (breaks ++ c :: rest) ++ '\n' :: (breaks ++ (pad (head + 2)
      ++ (lines (head + 2) false (c :: rest) ++ feed (c :: rest) ++ (pad column ++ next)))))))
    (left : column ≤ head) (ends : ∀ c ∈ next.head?, isBlank c = false ∧ isBreak c = false)
    (enough : (breaks ++ c :: rest).length < fuel) :
    block true (some head) cursor fuel = some (breaks ++ c :: rest, cursor.past ('|' ::
      (hint (breaks ++ c :: rest) ++ (Written.chomping (breaks ++ c :: rest) ++ '\n' ::
      (breaks ++ (pad (head + 2) ++ (lines (head + 2) false (c :: rest) ++ feed (c :: rest)
      ++ pad column))))))) := by
  have noBreak_ : breaksLine c = false := by rw [same c (by simp), noBreak]
  have all_ : ∀ c ∈ breaks, breaksLine c := fun c member => by simp [breaksLine, all c member]
  have start := column_past_header cursor
    ('|' :: (hint (breaks ++ c :: rest) ++ Written.chomping (breaks ++ c :: rest)))
  have after : (cursor.past ('|' :: (hint (breaks ++ c :: rest)
      ++ Written.chomping (breaks ++ c :: rest)) ++ ['\n'])).rest = breaks ++ (pad (head + 2)
      ++ (lines (head + 2) false (c :: rest) ++ feed (c :: rest) ++ (pad column ++ next))) :=
    Cursor.past_rest (by simpa using here)
  obtain ⟨deep, opening, depth⟩ := @block_opening _ fuel _ _ _ _ rest all noBreak noTab start
      (by simpa [lines, noBreak_] using after) (by simp at enough; omega)
  obtain ⟨body, ended, whole, ends_, ⟨d, last, line⟩, read⟩ := blockLines_eq same ⟨c, rfl, noBreak⟩
    (Cursor.column_past_pad all start (head + 2)) (Cursor.past_rest (by simpa using after))
    (show column < head + 2 by omega) ends ⟨none, breaks, false⟩
    (show (c :: rest).length < fuel by simp at enough ⊢; omega)
  have block := block_eq here (by simpa using opening) depth read
  have keeps := @keeps_chompingOf (breaks ++ body) ended
      (fun d member => by simp [breaksLine, ends_ d member])
      ⟨d, by rw [Option.mem_def] at last ⊢; rw [List.getLast?_append, last]; rfl, by
      rw [same d (by rw [whole]; exact List.mem_append_left _ (List.mem_of_getLast? last)), line]⟩
  rw [List.append_assoc, ← whole] at keeps
  rw [block, keeps]
  simp [whole, Cursor.past_append]

/-- A text of several lines is read from the block that stands for it. -/
theorem block_literal {head : Nat} (shown : ∀ c ∈ text, Written.isShown c) (nonempty : text ≠ [])
    (here : cursor.rest = Written.literal (head + 2) text ++ feed text ++ (pad column ++ next))
    (left : column ≤ head) (ends : ∀ c ∈ next.head?, isBlank c = false ∧ isBreak c = false)
    (enough : cursor.rest.length ≤ fuel) :
    block true (some head) cursor fuel = some (text,
      cursor.past (Written.literal (head + 2) text ++ feed text ++ pad column)) := by
  have same : ∀ c ∈ text, breaksLine c = isBreak c := fun c member =>
    Written.breaksLine_eq (shown c member)
  obtain ⟨breaks, rest, rfl, all, starts⟩ := exists_run isBreak text
  have all_ : ∀ c ∈ breaks, breaksLine c := fun c member => by
    rw [same c (by simp [member]), all c member]
  have literal : Written.literal (head + 2) (breaks ++ rest) = '|' :: (hint (breaks ++ rest)
      ++ (Written.chomping (breaks ++ rest) ++ '\n' :: lines (head + 2) true (breaks ++ rest))) := by
    simp [Written.literal, hint]
  cases rest with
  | nil =>
    rw [List.append_nil] at *
    have written : lines (head + 2) true breaks = breaks := by
      have split := @Written.lines_breaks (head + 2) _ all_ true nonempty []
      simpa [lines] using split
    have noFeed : feed breaks = [] := by
      simp [feed, List.getLast?_eq_some_getLast nonempty, all_ _ (List.getLast_mem nonempty)]
    rw [literal, written, noFeed, List.append_nil] at here ⊢
    have read := @block_breaks _ _ fuel _ _ _ all nonempty (by simpa using here) left ends
        (by simp [here] at enough; omega)
    simpa using read
  | cons c rest =>
    have noBreak := starts c rfl
    have noBreak_ : breaksLine c = false := by rw [same c (by simp), noBreak]
    have written : lines (head + 2) true (breaks ++ c :: rest)
        = breaks ++ (pad (head + 2) ++ lines (head + 2) false (c :: rest)) := by
      rw [← Written.lines_fresh noBreak_]
      cases breaks with
      | nil => rfl
      | cons b breaks => rw [Written.lines_breaks all_ true (by simp)]
    have sameFeed : feed (breaks ++ c :: rest) = feed (c :: rest) := by
      simp [feed, List.getLast?_append, List.getLast?_cons]
    rw [literal, written, sameFeed] at here ⊢
    have read := @block_lines _ _ fuel _ _ _ _ _ all
        (fun d member => same d (by simp only [List.mem_append]; exact .inr member)) noBreak
        (Written.notTab_of_isShown (shown c (by simp))) (by simpa using here) left ends (by
        have long := Written.length_le_lines (head + 2) false (c :: rest)
        simp [here] at enough long ⊢
        omega)
    simpa using read

theorem lines_ends {b : Char} (break_ : breaksLine b) (front : List Char) (fresh : Bool) :
    ∃ written, lines indent fresh (front ++ [b]) = written ++ [b] := by
  induction front generalizing fresh with
  | nil => exact ⟨[], by simp [lines, break_]⟩
  | cons c front ih =>
    by_cases h : breaksLine c
    · obtain ⟨written, ends⟩ := ih true
      exact ⟨c :: written, by simp [lines, h, ends]⟩
    · obtain ⟨written, ends⟩ := ih false
      exact ⟨(if fresh then pad indent else []) ++ c :: written, by simp [lines, h, ends]⟩

/-- The line after a block starts at the first column. -/
theorem literal_ends (shown : ∀ c ∈ text, Written.isShown c) (indent : Nat) :
    ∃ front b, Written.literal indent text ++ feed text = front ++ [b] ∧ isBreak b := by
  by_cases h : text.getLast?.any breaksLine
  · cases last : text.getLast? with
    | none => simp [last] at h
    | some b =>
      obtain ⟨front, rfl⟩ := List.getLast?_eq_some_iff.1 last
      have break_ : breaksLine b := by simpa [last] using h
      obtain ⟨written, ends⟩ := @lines_ends indent _ break_ front true
      have same := Written.breaksLine_eq (shown b (by simp))
      exact ⟨'|' :: (hint (front ++ [b]) ++ (Written.chomping (front ++ [b]) ++ '\n' :: written)), b,
        by simp [Written.literal, hint, feed, break_, ends], by rw [← same, break_]⟩
  · exact ⟨Written.literal indent text, '\n', by simp [feed, h], by decide⟩

end ApiManifest.Yaml.Scalar
