import ApiManifest.Proofs.Yaml.BlockScalar
import ApiManifest.Proofs.Yaml.PlainScalar
import ApiManifest.Yaml.Token.Scan

/-!
What a scan does with the text in front of it, as a relation between places. A place is all that
later tokens depend on; the fuel, the positions in the text and the candidates for keys that are
no more than candidates are left out of it. The relation is transitive, so the tokens of a text are
found piece by piece.
-/

namespace ApiManifest.Yaml

open Scan (withKeys)

structure Place where
  rest : List Char
  column : Nat
  indents : List Nat
  keyAllowed : Bool
  output : List Token

structure Wrote (count : Nat) (tokens : List Token) (keys : List FoundKey) (output : List Token) :
    Prop where
  below : ∀ found ∈ keys, found.position < count
  written : ∀ laterKeys laterTokens, (∀ found ∈ laterKeys, count ≤ found.position) →
    withKeys 0 (keys.reverse ++ laterKeys) (tokens.reverse ++ laterTokens)
      = output ++ withKeys count laterKeys laterTokens

namespace Wrote

variable {count : Nat} {tokens output : List Token} {keys : List FoundKey}

theorem start : Wrote 0 [] [] [] where
  below := by simp
  written := by simp

theorem push (wrote : Wrote count tokens keys output) (token : Token) :
    Wrote (count + 1) (token :: tokens) keys (output ++ [token]) where
  below := fun found member => Nat.lt_succ_of_lt (wrote.below found member)
  written := by
    intro laterKeys laterTokens later
    have before := wrote.written laterKeys (token :: laterTokens)
      (fun found member => Nat.le_of_succ_le (later found member))
    have here : withKeys count laterKeys (token :: laterTokens)
        = token :: withKeys (count + 1) laterKeys laterTokens := by
      cases laterKeys with
      | nil => cases laterTokens <;> simp [withKeys]
      | cons found laterKeys =>
        have beyond := later found (by simp)
        simp [withKeys, show found.position ≠ count by omega]
    simpa [here] using before

theorem pushKey (wrote : Wrote count tokens keys output) (token : Token) (opens : Bool) :
    Wrote (count + 1) (token :: tokens) (⟨count, opens⟩ :: keys)
      (output ++ (FoundKey.marks ⟨count, opens⟩ ++ [token])) where
  below := by
    intro found member
    rcases List.mem_cons.1 member with rfl | before
    · exact Nat.lt_succ_self _
    · exact Nat.lt_succ_of_lt (wrote.below found before)
  written := by
    intro laterKeys laterTokens later
    have before := wrote.written (⟨count, opens⟩ :: laterKeys) (token :: laterTokens) (by
      intro found member
      rcases List.mem_cons.1 member with rfl | member
      · exact Nat.le_refl _
      · exact Nat.le_of_succ_le (later found member))
    simpa [withKeys] using before

theorem addKey_eq (wrote : Wrote count tokens keys output) (opens : Bool) :
    Scan.addKey ⟨count, opens⟩ keys = ⟨count, opens⟩ :: keys := by
  cases keys with
  | nil => rfl
  | cons found keys => simp [Scan.addKey, wrote.below found]

end Wrote

namespace Scan

/-- A candidate that is given up as soon as a token is read. -/
def isIdle (scan : Scan) : Prop :=
  scan.candidates = [none] ∨ ∃ candidate, scan.candidates = [some candidate] ∧
    candidate.required = false ∧ candidate.line < scan.cursor.line

structure Stands (scan : Scan) (place : Place) : Prop where
  rest : scan.cursor.rest = place.rest
  column : scan.cursor.column = place.column
  indents : scan.indents = place.indents
  keyAllowed : scan.keyAllowed = place.keyAllowed
  idle : scan.isIdle
  wrote : Wrote scan.count scan.tokens scan.keys place.output

/-- The rest of the run is the same from both states, given fuel for the text that remains. -/
def Reaches (first second : Scan) : Prop :=
  ∀ fuel, first.cursor.rest.length + 2 ≤ fuel →
    ∃ later, second.cursor.rest.length + 2 ≤ later ∧ first.run fuel = second.run later

theorem Reaches.trans {first second third : Scan} (before : Reaches first second)
    (after : Reaches second third) : Reaches first third := by
  intro fuel enough
  obtain ⟨middle, enough, same⟩ := before fuel enough
  obtain ⟨later, enough, again⟩ := after middle enough
  exact ⟨later, enough, same.trans again⟩

theorem Reaches.refl (scan : Scan) : Reaches scan scan :=
  fun fuel enough => ⟨fuel, enough, rfl⟩

theorem reaches_trans {first second third : Scan → Prop}
    (before : ∀ scan, first scan → ∃ after, Reaches scan after ∧ second after)
    (after : ∀ scan, second scan → ∃ last, Reaches scan last ∧ third last) :
    ∀ scan, first scan → ∃ last, Reaches scan last ∧ third last := by
  intro scan stands
  obtain ⟨middle, reached, stands⟩ := before scan stands
  obtain ⟨last, again, stands⟩ := after middle stands
  exact ⟨last, reached.trans again, stands⟩

end Scan

/-- From every scan that stands at the first place the run comes to one at the second. -/
def Leads (first second : Place) : Prop :=
  ∀ scan : Scan, scan.Stands first → ∃ after, scan.Reaches after ∧ after.Stands second

theorem Leads.refl (place : Place) : Leads place place :=
  fun scan stands => ⟨scan, .refl scan, stands⟩

theorem Leads.trans {first second third : Place} (before : Leads first second)
    (after : Leads second third) : Leads first third :=
  Scan.reaches_trans before after

namespace Scan

variable {scan : Scan} {rest : List Char}

def skipMark (cursor : Cursor) : Cursor :=
  if cursor.column = 0 && cursor.rest.head? = some '\ufeff' then cursor.skip 1 else cursor

def skipComment (cursor : Cursor) : Cursor :=
  if cursor.rest.head? = some '#' then cursor.skipToLineEnd else cursor

def overBlanks (scan : Scan) : Cursor :=
  skipComment ((skipMark scan.cursor).skipWhile (fun c =>
    c = ' ' || (c = '\t' && (scan.inFlow || !scan.keyAllowed))))

theorem toToken_succ (scan : Scan) (fuel : Nat) :
    scan.toToken (fuel + 1) = if scan.overBlanks.rest.head?.any isBreak then
      toToken { scan with
        cursor := scan.overBlanks.skipBreak
        keyAllowed := scan.keyAllowed || !scan.inFlow } fuel
    else scan.moveTo scan.overBlanks := rfl

theorem length_skip_le (cursor : Cursor) (count : Nat) :
    (cursor.skip count).rest.length ≤ cursor.rest.length := by
  simp [Cursor.skip]

theorem length_overBlanks_le (scan : Scan) :
    scan.overBlanks.rest.length ≤ scan.cursor.rest.length := by
  have skipped (cursor : Cursor) (test : Char → Bool) :
      (cursor.skipWhile test).rest.length ≤ cursor.rest.length := length_skip_le _ _
  have comment (cursor : Cursor) : (skipComment cursor).rest.length ≤ cursor.rest.length := by
    unfold skipComment
    split
    · exact skipped _ _
    · exact Nat.le_refl _
  have mark (cursor : Cursor) : (skipMark cursor).rest.length ≤ cursor.rest.length := by
    unfold skipMark
    split
    · exact length_skip_le _ _
    · exact Nat.le_refl _
  exact Nat.le_trans (comment _) (Nat.le_trans (skipped _ _) (mark _))

theorem skipWhile_cons {cursor : Cursor} {c : Char} {test : Char → Bool}
    (here : cursor.rest = c :: rest) (kind : test c) :
    cursor.skipWhile test = (cursor.skip 1).skipWhile test := by
  simp [Cursor.skipWhile, Cursor.skip_skip, here, kind, Nat.add_comm,
    show (cursor.skip 1).rest = rest by simp [Cursor.skip, here]]

theorem toToken_fuel {first second : Nat} (enough : scan.cursor.rest.length < first)
    (enough_ : scan.cursor.rest.length < second) :
    scan.toToken first = scan.toToken second := by
  induction first generalizing scan second with
  | zero => omega
  | succ first ih =>
    obtain ⟨second, rfl⟩ : ∃ n, second = n + 1 := ⟨second - 1, by omega⟩
    rw [toToken_succ, toToken_succ]
    split
    · next breaks =>
      have bound := length_overBlanks_le scan
      have more : scan.overBlanks.rest ≠ [] := by
        intro empty
        simp [empty] at breaks
      have positive := List.length_pos_iff.2 more
      apply ih
      · simp [Cursor.skipBreak]
        omega
      · simp [Cursor.skipBreak]
        omega
    · rfl

theorem reaches_of_toToken {first second : Scan}
    (shorter : second.cursor.rest.length ≤ first.cursor.rest.length)
    (same : ∀ fuel, first.cursor.rest.length + 1 ≤ fuel →
      first.toToken (fuel + 1) = second.toToken (fuel + 1)) : Reaches first second := by
  intro fuel enough
  obtain ⟨fuel, rfl⟩ : ∃ n, fuel = n + 1 := ⟨fuel - 1, by omega⟩
  refine ⟨fuel + 1, by omega, ?_⟩
  rw [run, run, same fuel (by omega)]

/-- One blank is passed over; a tab is one where no key could start. -/
theorem reaches_blank {c : Char} (here : scan.cursor.rest = c :: rest)
    (blank : c = ' ' ∨ (c = '\t' ∧ (scan.inFlow || !scan.keyAllowed))) :
    Reaches scan (scan.moveTo (scan.cursor.skip 1)) := by
  have kind : c = ' ' || (c = '\t' && (scan.inFlow || !scan.keyAllowed)) := by
    rcases blank with rfl | ⟨rfl, allowed⟩ <;> simp_all
  have noMark : c ≠ '\ufeff' := by
    rintro rfl
    simp at blank
  apply reaches_of_toToken (length_skip_le _ _)
  intro fuel enough
  have blanks : scan.overBlanks = (scan.moveTo (scan.cursor.skip 1)).overBlanks := by
    have mark : skipMark scan.cursor = scan.cursor := by simp [skipMark, here, noMark]
    have noMark : skipMark (scan.cursor.skip 1) = scan.cursor.skip 1 := by
      simp [skipMark, show (scan.cursor.skip 1).column ≠ 0 by simp [Cursor.skip]]
    unfold overBlanks
    rw [mark, skipWhile_cons here kind]
    conv => rhs; rw [show (scan.moveTo (scan.cursor.skip 1)).cursor = scan.cursor.skip 1 from rfl,
      noMark]
    rfl
  rw [toToken_succ, toToken_succ, blanks]
  rfl

theorem reaches_space (here : scan.cursor.rest = ' ' :: rest) :
    Reaches scan (scan.moveTo (scan.cursor.skip 1)) :=
  reaches_blank here (.inl rfl)

theorem reaches_newline (here : scan.cursor.rest = '\n' :: rest) :
    Reaches scan { scan with
      cursor := scan.cursor.skipBreak
      keyAllowed := scan.keyAllowed || !scan.inFlow } := by
  apply reaches_of_toToken
  · simp [Cursor.skipBreak]
  · intro fuel enough
    have stays : scan.overBlanks = scan.cursor := by
      simp [overBlanks, skipMark, skipComment, here, Cursor.skipWhile]
    have breaks : isBreak '\n' = true := by decide
    rw [toToken_succ, stays]
    simp only [here, List.head?_cons, Option.any_some, breaks, if_true]
    have fewer : scan.cursor.skipBreak.rest.length < fuel := by
      simp [Cursor.skipBreak, here] at enough ⊢
      omega
    exact toToken_fuel fewer (Nat.lt_succ_of_lt fewer)

theorem reaches_break (here : scan.cursor.rest = '\n' :: rest)
    (block : scan.inFlow = false) :
    Reaches scan { scan with cursor := scan.cursor.skipBreak, keyAllowed := true } := by
  have reached := reaches_newline here
  rwa [block, Bool.not_false, Bool.or_true] at reached

def startsToken (c : Char) : Bool :=
  c ≠ ' ' && c ≠ '\t' && c ≠ '#' && c ≠ '\ufeff' && !isBreak c

theorem toToken_start (starts : ∀ c ∈ scan.cursor.rest.head?, startsToken c) (fuel : Nat) :
    scan.toToken (fuel + 1) = scan := by
  have stays : scan.overBlanks = scan.cursor := by
    cases here : scan.cursor.rest with
    | nil => simp [overBlanks, skipMark, skipComment, here, Cursor.skipWhile]
    | cons c rest =>
      have kind := starts c (by simp [here])
      simp only [startsToken, Bool.and_eq_true, decide_eq_true_eq, Bool.not_eq_true'] at kind
      simp [overBlanks, skipMark, skipComment, here, Cursor.skipWhile, kind]
  have noBreak : scan.cursor.rest.head?.any isBreak = false := by
    cases here : scan.cursor.rest with
    | nil => rfl
    | cons c rest =>
      have kind := starts c (by simp [here])
      simp_all [startsToken]
  simp [toToken_succ, stays, noBreak, moveTo]

def settled (scan : Scan) : Scan :=
  { scan with candidates := [none] }

variable {place : Place}

theorem Stands.block (stands : scan.Stands place) : scan.inFlow = false := by
  rcases stands.idle with none | ⟨candidate, some, -⟩
  · simp [inFlow, none]
  · simp [inFlow, some]

theorem Stands.settled (stands : scan.Stands place) : scan.settled.Stands place :=
  { stands with idle := .inl rfl }

theorem Stands.dropStale (stands : scan.Stands place) : scan.dropStale = some scan.settled := by
  rcases stands.idle with none | ⟨candidate, some, optional, before⟩
  · simp [Scan.dropStale, none, dropStaleFrom, Scan.settled]
  · simp [Scan.dropStale, some, dropStaleFrom, isStale, optional, before, Scan.settled]

theorem unroll_fits {column : Nat} (fits : ∀ indent ∈ scan.indents.head?, indent ≤ column) :
    scan.unroll (some column) = scan := by
  have closed : scan.indents.takeWhile (fun indent => decide (column < indent)) = [] := by
    cases h : scan.indents with
    | nil => rfl
    | cons indent indents =>
      have within := fits indent (by simp [h])
      simp [show ¬ column < indent by omega]
  unfold unroll
  split
  · rfl
  · simp [closed]

def closed (scan : Scan) : Scan :=
  { scan.push .blockEnd with indents := scan.indents.tail }

theorem unroll_closed {column indent : Nat} {indents : List Nat}
    (open_ : scan.indents = indent :: indents) (beyond : column < indent)
    (block : scan.inFlow = false) : scan.unroll (some column) = scan.closed.unroll (some column) := by
  have block_ : scan.closed.inFlow = false := block
  unfold unroll
  rw [block, block_]
  simp [closed, push, open_, beyond, List.replicate_succ', Nat.add_assoc, Nat.add_comm 1]

theorem run_token {c : Char} (stands : scan.Stands place) (here : place.rest = c :: rest)
    (starts : startsToken c) (fits : ∀ indent ∈ place.indents.head?, indent ≤ place.column)
    (fuel : Nat) :
    scan.run (fuel + 1) = (scan.settled.token c rest (fuel + 1)).bind (fun after => after.run fuel) := by
  have found : scan.cursor.rest = c :: rest := stands.rest.trans here
  have blanks := @toToken_start scan (by simpa [found] using starts) fuel
  have inside : scan.settled.unroll (some scan.settled.cursor.column) = scan.settled := by
    apply unroll_fits
    simpa [Scan.settled, stands.indents, stands.column] using fits
  rw [run]
  simp only [blanks, stands.dropStale, Option.bind_eq_bind, Option.bind_some, inside]
  simp [Scan.settled, found]

end Scan

open Scan (startsToken)

/-- What one token does, seen from every scan that stands there without a candidate. -/
theorem leads_of_token {first second : Place} {c : Char} {rest : List Char}
    (here : first.rest = c :: rest) (starts : startsToken c)
    (fits : ∀ indent ∈ first.indents.head?, indent ≤ first.column)
    (token : ∀ scan : Scan, scan.Stands first → scan.candidates = [none] → ∃ after : Scan,
      (∀ fuel, scan.cursor.rest.length < fuel → scan.token c rest fuel = some after) ∧
      after.cursor.rest.length < scan.cursor.rest.length ∧
      ∃ last, after.Reaches last ∧ last.Stands second) : Leads first second := by
  intro scan stands
  obtain ⟨after, read, shorter, last, reached, ends⟩ := token scan.settled stands.settled rfl
  refine ⟨last, Scan.Reaches.trans ?_ reached, ends⟩
  intro fuel enough
  obtain ⟨fuel, rfl⟩ : ∃ n, fuel = n + 1 := ⟨fuel - 1, by omega⟩
  have same : scan.settled.cursor = scan.cursor := rfl
  rw [same] at read shorter
  refine ⟨fuel, by omega, ?_⟩
  rw [Scan.run_token stands here starts fits, read _ (by omega)]
  rfl

section

variable {rest : List Char} {column : Nat} {indents : List Nat} {keyAllowed : Bool}
  {output : List Token}

theorem leads_space :
    Leads ⟨' ' :: rest, column, indents, keyAllowed, output⟩
      ⟨rest, column + 1, indents, keyAllowed, output⟩ := by
  intro scan stands
  refine ⟨_, Scan.reaches_space stands.rest, ?_⟩
  exact { stands with
    rest := by simp [Scan.moveTo, Cursor.skip, stands.rest]
    column := by simp [Scan.moveTo, Cursor.skip, stands.column] }

theorem leads_pad (count : Nat) :
    Leads ⟨Written.pad count ++ rest, column, indents, keyAllowed, output⟩
      ⟨rest, column + count, indents, keyAllowed, output⟩ := by
  induction count generalizing column with
  | zero => exact .refl _
  | succ count ih =>
    have later := @ih (column + 1)
    rw [Nat.add_right_comm] at later
    exact leads_space.trans later

theorem leads_line (count : Nat) :
    Leads ⟨'\n' :: (Written.pad count ++ rest), column, indents, keyAllowed, output⟩
      ⟨rest, count, indents, true, output⟩ := by
  have broken : Leads ⟨'\n' :: (Written.pad count ++ rest), column, indents, keyAllowed, output⟩
      ⟨Written.pad count ++ rest, 0, indents, true, output⟩ := by
    intro scan stands
    refine ⟨_, Scan.reaches_break stands.rest stands.block, ?_⟩
    exact { stands with
      rest := by simp [Cursor.skipBreak, stands.rest]
      column := rfl
      keyAllowed := rfl
      idle := stands.idle.imp id (fun ⟨candidate, found, optional, before⟩ =>
        ⟨candidate, found, optional, Nat.lt_succ_of_lt before⟩) }
  have padded := @leads_pad rest 0 indents true output count
  rw [Nat.zero_add] at padded
  exact broken.trans padded

/-- A collection ends before a token that stands further left, or at the end of the text. -/
theorem leads_close {indent : Nat} (starts : ∀ c ∈ rest.head?, startsToken c)
    (beyond : column < indent) :
    Leads ⟨rest, column, indent :: indents, keyAllowed, output⟩
      ⟨rest, column, indents, keyAllowed, output ++ [.blockEnd]⟩ := by
  intro scan stands
  have closed : scan.settled.closed.Stands
      ⟨rest, column, indents, keyAllowed, output ++ [.blockEnd]⟩ :=
    { stands.settled with
      indents := by simp [Scan.closed, Scan.settled, stands.indents]
      wrote := stands.wrote.push .blockEnd }
  refine ⟨scan.settled.closed, ?_, closed⟩
  intro fuel enough
  refine ⟨fuel, enough, ?_⟩
  obtain ⟨fuel, rfl⟩ : ∃ n, fuel = n + 1 := ⟨fuel - 1, by omega⟩
  have first := @Scan.toToken_start scan (by simpa [stands.rest] using starts) fuel
  have second := @Scan.toToken_start scan.settled.closed (by simpa [closed.rest] using starts) fuel
  have unrolled := @Scan.unroll_closed scan.settled column _ _ stands.indents beyond
      stands.settled.block
  have before : scan.settled.cursor.column = column := stands.column
  have after : scan.settled.closed.cursor.column = column := stands.column
  rw [Scan.run, Scan.run]
  simp only [first, second, stands.dropStale, closed.dropStale, Option.bind_eq_bind,
    Option.bind_some, before]
  rw [show scan.settled.closed.settled = scan.settled.closed from rfl, after, unrolled]

def opened (indents : List Nat) (column : Nat) : List Nat :=
  if indents.head?.all (fun indent => indent < column) then column :: indents else indents

def opening (indents : List Nat) (column : Nat) (token : Token) : List Token :=
  if indents.head?.all (fun indent => indent < column) then [token] else []

theorem roll_eq {scan : Scan} (stands : scan.Stands ⟨rest, column, indents, keyAllowed, output⟩)
    (token : Token) : (scan.roll token).Stands
      ⟨rest, column, opened indents column, keyAllowed, output ++ opening indents column token⟩ ∧
      (scan.roll token).cursor = scan.cursor ∧ (scan.roll token).candidates = scan.candidates := by
  have opens : scan.opensAt scan.cursor.column
      = indents.head?.all (fun indent => indent < column) := by
    simp [Scan.opensAt, stands.block, stands.indents, stands.column]
  unfold Scan.roll opened opening
  rw [opens]
  split
  · refine ⟨{ stands with indents := ?_, wrote := stands.wrote.push token }, rfl, rfl⟩
    simp [stands.indents, stands.column]
  · exact ⟨by simpa using stands, rfl, rfl⟩

theorem noMark_of_endsWord {cursor : Cursor} {c : Char} (here : cursor.rest = c :: rest)
    (ends : endsWord rest) : cursor.atDocumentMark = false := by
  simp only [Cursor.atDocumentMark, here, Bool.and_eq_false_iff]
  right
  cases rest with
  | nil => simp
  | cons d rest =>
    have noDash : d ≠ '-' := by
      rintro rfl
      revert ends
      simp [endsWord, isBlank, isBreak]
    have noDot : d ≠ '.' := by
      rintro rfl
      revert ends
      simp [endsWord, isBlank, isBreak]
    simp [noDash, noDot]

theorem dropCandidate_eq {scan : Scan} (none_ : scan.candidates = [none]) :
    scan.dropCandidate = some scan := by
  simp [Scan.dropCandidate, none_]

theorem stands_single {scan : Scan} {c : Char}
    (stands : scan.Stands ⟨c :: rest, column, indents, keyAllowed, output⟩) (token : Token)
    (allowed : Bool) : ({ scan.single token with keyAllowed := allowed } : Scan).Stands
      ⟨rest, column + 1, indents, allowed, output ++ [token]⟩ where
  rest := by simp [Scan.single, Scan.moveTo, Cursor.skip, stands.rest]
  column := by simp [Scan.single, Scan.moveTo, Cursor.skip, stands.column]
  indents := stands.indents
  keyAllowed := rfl
  idle := stands.idle
  wrote := stands.wrote.push token

theorem shorter_single {scan : Scan} {c : Char} (here : scan.cursor.rest = c :: rest)
    (token : Token) : (scan.single token).cursor.rest.length < scan.cursor.rest.length := by
  simp [Scan.single, Scan.moveTo, Cursor.skip, here]

theorem leads_dash (ends : endsWord rest) (fits : ∀ indent ∈ indents.head?, indent ≤ column) :
    Leads ⟨'-' :: rest, column, indents, true, output⟩
      ⟨rest, column + 1, opened indents column, true,
        output ++ (opening indents column .blockSequenceStart ++ [.blockEntry])⟩ := by
  apply leads_of_token rfl (by decide) fits
  intro scan stands none_
  obtain ⟨rolled, cursor, candidates⟩ := roll_eq stands .blockSequenceStart
  have noMark := noMark_of_endsWord stands.rest ends
  have drop := dropCandidate_eq (candidates.trans none_)
  refine ⟨{ (scan.roll .blockSequenceStart).single .blockEntry with keyAllowed := true }, ?_, ?_,
    _, .refl _, ?_⟩
  · intro fuel enough
    simp [Scan.token, noMark, ends, Scan.blockEntry, stands.block, stands.keyAllowed, drop]
  · have shorter := shorter_single (rolled.rest) .blockEntry
    simpa [cursor] using shorter
  · have single := stands_single rolled .blockEntry true
    simpa using single

/-- The question mark in front of a key that does not stand on one line with its value. -/
theorem leads_question (ends : endsWord rest) (fits : ∀ indent ∈ indents.head?, indent ≤ column) :
    Leads ⟨'?' :: rest, column, indents, true, output⟩
      ⟨rest, column + 1, opened indents column, true,
        output ++ (opening indents column .blockMappingStart ++ [.key])⟩ := by
  apply leads_of_token rfl (by decide) fits
  intro scan stands none_
  obtain ⟨rolled, cursor, candidates⟩ := roll_eq stands .blockMappingStart
  have noMark := noMark_of_endsWord stands.rest ends
  have drop := dropCandidate_eq (candidates.trans none_)
  refine ⟨{ (scan.roll .blockMappingStart).single .key with keyAllowed := true }, ?_, ?_,
    _, .refl _, ?_⟩
  · intro fuel enough
    simp [Scan.token, noMark, ends, Scan.explicitKey, stands.block, stands.keyAllowed, drop,
      rolled.block]
  · have shorter := shorter_single (rolled.rest) .key
    simpa [cursor] using shorter
  · have single := stands_single rolled .key true
    simpa using single

theorem leads_colon (ends : endsWord rest) :
    Leads ⟨':' :: rest, column, column :: indents, true, output⟩
      ⟨rest, column + 1, column :: indents, true, output ++ [.value]⟩ := by
  apply leads_of_token rfl (by decide) (by simp)
  intro scan stands none_
  have noMark := noMark_of_endsWord stands.rest ends
  have stays : scan.roll .blockMappingStart = scan := by
    simp [Scan.roll, Scan.opensAt, stands.indents, stands.column]
  refine ⟨{ scan.single .value with keyAllowed := true }, ?_, shorter_single stands.rest .value,
    _, .refl _, stands_single stands .value true⟩
  intro fuel enough
  simp [Scan.token, noMark, ends, Scan.valueMark, none_, stands.block, stands.keyAllowed, stays]

end

end ApiManifest.Yaml
