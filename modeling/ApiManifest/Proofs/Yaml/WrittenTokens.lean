import ApiManifest.Proofs.Yaml.ScalarTokens
import ApiManifest.Wire.Yaml

/-!
The tokens of a value that is written as YAML. They are found by going through the value as its
writer does: what stands in front of it and the column of what is around it decide whether a list
begins a collection of its own.
-/

namespace ApiManifest.Yaml

open Scan (startsToken)

variable {rest : List Char} {column : Nat} {indents : List Nat} {keyAllowed : Bool}
  {output : List Token}

theorem endsWord_cases {c : Char} (ends : endsWord (c :: rest)) :
    c = ' ' ∨ c = '\t' ∨ c = '\n' ∨ c = '\u2028' ∨ c = '\u2029' := by
  simpa [endsWord, isBlank, isBreak, or_assoc] using ends

theorem tagText_end {cursor : Cursor} (ends : endsWord cursor.rest) (text : List Char) (fuel : Nat) :
    Scan.tagText false text cursor (fuel + 1) = some (text, cursor) := by
  rw [Scan.tagText]
  cases here : cursor.rest with
  | nil => rfl
  | cons c rest =>
    rw [here] at ends
    have other : c ≠ '%' ∧ Scan.isTagChar false c = false := by
      rcases endsWord_cases ends with rfl | rfl | rfl | rfl | rfl <;> decide
    simp [other]

theorem tagParts_eq {cursor : Cursor} {tag : List Char} (word : ∀ c ∈ tag, isWord c)
    (nonempty : tag ≠ []) (here : cursor.rest = '!' :: (tag ++ rest)) (ends : endsWord rest)
    (fuel : Nat) :
    Scan.tagParts cursor (fuel + 1) = some (['!'], tag, cursor.skip (tag.length + 1)) := by
  have noAngle : (tag ++ rest).head? ≠ some '<' := by
    obtain ⟨first, more, rfl⟩ := List.exists_cons_of_ne_nil nonempty
    have kind := word first (by simp)
    simp only [List.cons_append, List.head?_cons, ne_eq, Option.some.injEq]
    rintro rfl
    exact absurd kind (by decide)
  have stop : ∀ c ∈ rest.head?, isWord c = false ∧ c ≠ '!' := by
    intro c head
    obtain ⟨rest, rfl⟩ := List.head?_eq_some_iff.1 head
    rcases endsWord_cases ends with rfl | rfl | rfl | rfl | rfl <;> decide
  have name : (tag ++ rest).takeWhile isWord = tag :=
    takeWhile_run word (fun c head => (stop c head).1)
  have after : (cursor.skip (tag.length + 1)).rest = rest := by simp [Cursor.skip, here]
  have handle : Scan.handle cursor = ('!' :: tag, cursor.skip (tag.length + 1)) := by
    have first : (cursor.skip 1).rest = tag ++ rest := by simp [Cursor.skip, here]
    have open_ : rest.head? ≠ some '!' := fun head => (stop '!' head).2 rfl
    simp [Scan.handle, Cursor.takeWhile, first, name, Cursor.skip_skip, Nat.add_comm 1, after, open_]
  have last : tag.getLast? ≠ some '!' := by
    intro last
    exact absurd (word '!' (List.mem_of_getLast? last)) (by decide)
  have ends_ : ('!' :: tag).getLast? ≠ some '!' := by
    rw [List.getLast?_cons, List.getLast?_eq_some_getLast nonempty]
    rw [List.getLast?_eq_some_getLast nonempty] at last
    simpa using last
  rw [Scan.tagParts, here, List.drop_one, List.tail_cons, if_neg noAngle, handle]
  simp [ends_, tagText_end (after.symm ▸ ends), nonempty]

theorem leads_tag {tag : List Char} (word : ∀ c ∈ tag, isWord c) (nonempty : tag ≠ [])
    (ends : endsWord rest) (fits : ∀ indent ∈ indents.head?, indent ≤ column) :
    Leads ⟨'!' :: (tag ++ rest), column, indents, false, output⟩
      ⟨rest, column + (tag.length + 1), indents, false, output ++ [.tag ['!'] tag]⟩ := by
  apply leads_of_token rfl (by decide) fits
  intro scan stands none_
  have noMark : scan.cursor.atDocumentMark = false := by
    simp [Cursor.atDocumentMark, stands.rest]
  have after : (scan.cursor.skip (tag.length + 1)).rest = rest := by
    simp [Cursor.skip, stands.rest]
  have kept : scan.saveCandidate = some scan := by simp [Scan.saveCandidate, stands.keyAllowed]
  refine ⟨{ (scan.push (.tag ['!'] tag)).moveTo (scan.cursor.skip (tag.length + 1)) with
    keyAllowed := false }, ?_, ?_, _, .refl _, ?_⟩
  · intro fuel enough
    obtain ⟨fuel, rfl⟩ : ∃ n, fuel = n + 1 := ⟨fuel - 1, by omega⟩
    have parts := tagParts_eq word nonempty stands.rest ends fuel
    simp [Scan.token, noMark, Scan.tag, kept, parts, after, ends]
  · have shorter : (scan.cursor.skip (tag.length + 1)).rest.length < scan.cursor.rest.length := by
      rw [after, stands.rest]
      simp only [List.length_cons, List.length_append]
      omega
    exact shorter
  · exact ⟨after, congrArg (· + (tag.length + 1)) stands.column, stands.indents, rfl, stands.idle,
      stands.wrote.push _⟩

theorem reaches_flowEnd {scan : Scan} {mark : Char} {token : Token} {candidate : Option KeyCandidate}
    (here : scan.cursor.rest = mark :: rest) (starts : startsToken mark)
    (dispatch : ∀ fuel, scan.token mark rest fuel = scan.flowEnd token)
    (found : scan.candidates = [none, candidate])
    (near : ∀ other ∈ candidate, other.line = scan.cursor.line ∧
      scan.cursor.index ≤ other.index + 1024) :
    scan.Reaches { scan.single token with candidates := [candidate], keyAllowed := false } := by
  have stays : Scan.dropStaleFrom scan.cursor scan.candidates = some scan.candidates := by
    rw [found]
    cases candidate with
    | none => simp [Scan.dropStaleFrom]
    | some other =>
      obtain ⟨line, index⟩ := near other rfl
      have fresh : Scan.isStale scan.cursor other = false := by
        simp [Scan.isStale, line]
        omega
      simp [Scan.dropStaleFrom, fresh]
  have kept : scan.dropStale = some scan := by simp [Scan.dropStale, stays]
  have flow : scan.inFlow = true := by simp [Scan.inFlow, found]
  have open_ : scan.unroll (some scan.cursor.column) = scan := by simp [Scan.unroll, flow]
  intro fuel enough
  obtain ⟨fuel, rfl⟩ : ∃ n, fuel = n + 1 := ⟨fuel - 1, by omega⟩
  refine ⟨fuel, ?_, ?_⟩
  · simp [Scan.single, Scan.moveTo, Cursor.skip, here] at enough ⊢
    omega
  · rw [run_stays here starts kept open_, dispatch]
    simp [Scan.flowEnd, Scan.dropCandidate, found, flow]

inductive EmptyMarks : Char → Char → Token → Token → Prop
  | list : EmptyMarks '[' ']' .flowSequenceStart .flowSequenceEnd
  | record : EmptyMarks '\x7b' '\x7d' .flowMappingStart .flowMappingEnd

theorem leads_empty {first last : Char} {start stop : Token} {count : Nat}
    (marks : EmptyMarks first last start stop) (deeper : ∀ indent ∈ indents.head?, indent < column) :
    Leads ⟨first :: last :: '\n' :: (Written.pad count ++ rest), column, indents, keyAllowed, output⟩
      ⟨rest, count, indents, true, output ++ [start, stop]⟩ := by
  apply leads_of_token rfl (by cases marks <;> decide)
    (fun indent head => Nat.le_of_lt (deeper indent head))
  intro scan stands none_
  have noMark : scan.cursor.atDocumentMark = false := by
    cases marks <;> simp [Cursor.atDocumentMark, stands.rest]
  have inner : (scan.cursor.skip 1).rest = last :: '\n' :: (Written.pad count ++ rest) := by
    simp [Cursor.skip, stands.rest]
  refine ⟨{ ({ scan with candidates := [scan.candidate?] } : Scan).single start with
    candidates := [none, scan.candidate?], keyAllowed := true }, ?_, ?_, ?_⟩
  · intro fuel enough
    cases marks <;>
      simp [Scan.token, noMark, Scan.flowStart, saveCandidate_eq none_, Scan.single, Scan.moveTo,
        Scan.push]
  · exact shorter_single stands.rest start
  · have near : ∀ other ∈ scan.candidate?, other.line = (scan.cursor.skip 1).line ∧
        (scan.cursor.skip 1).index ≤ other.index + 1024 := by
      intro other found
      simp only [Scan.candidate?, Option.mem_def, Option.ite_none_right_eq_some] at found
      obtain ⟨-, found⟩ := found
      obtain rfl := Option.some.inj found
      exact ⟨rfl, by simp [Cursor.skip]⟩
    have closed := @reaches_flowEnd _
        { ({ scan with candidates := [scan.candidate?] } : Scan).single start with
          candidates := [none, scan.candidate?], keyAllowed := true }
        _ stop _ inner (by cases marks <;> decide) (by
        intro fuel
        have column_ : (scan.cursor.skip 1).column ≠ 0 := by simp [Cursor.skip]
        cases marks <;>
          simp [Scan.token, Scan.single, Scan.moveTo, Cursor.atDocumentMark, column_]) rfl near
    have wrote := (stands.wrote.push start).push stop
    rw [List.append_assoc] at wrote
    have after : ((scan.cursor.skip 1).skip 1).rest = '\n' :: (Written.pad count ++ rest) := by
      simp [Cursor.skip, stands.rest]
    obtain ⟨end_, reached, place⟩ := @reaches_line _ _ _
        { ({ ({ scan with candidates := [scan.candidate?] } : Scan).single start with
            candidates := [none, scan.candidate?], keyAllowed := true } : Scan).single stop with
          candidates := [scan.candidate?], keyAllowed := false }
        scan _ after (Nat.le_refl _) stands.indents (by simpa [stands.column] using deeper)
        stands.indents rfl wrote
    exact ⟨end_, closed.trans reached, place⟩

end ApiManifest.Yaml

namespace ApiManifest.Wire

open Yaml (Leads Token endsWord opened opening)
open Yaml.Scan (startsToken)
open Yaml.Written (pad)

mutual

/-- The tokens of a value. A list in the place of a value that is `tagged`, after a key on the same
line, begins no collection of its own. -/
def tokens (tagged : Bool) : Wire → List Token
  | .bool value => [.scalar .plain (if value then "true" else "false").toList]
  | .int value => [.scalar .plain (toString value).toList]
  | .string text => [.scalar (Yaml.Written.style text.toList) text.toList]
  | .list [] => [.flowSequenceStart, .flowSequenceEnd]
  | .list (item :: rest) =>
    let items := .blockEntry :: (tokens false item ++ itemTokens rest)
    if tagged then items else .blockSequenceStart :: (items ++ [.blockEnd])
  | .record [] => [.flowMappingStart, .flowMappingEnd]
  | .record ((key, value) :: rest) =>
    .blockMappingStart :: .key :: .scalar (Yaml.Written.style key.toList) key.toList :: .value ::
      (tokens (Yaml.Written.isSimpleKey key.toList) value ++ entryTokens rest ++ [.blockEnd])
  | .variant tag payload => .tag ['!'] tag.toList :: tokens tagged payload

def itemTokens : List Wire → List Token
  | [] => []
  | item :: rest => .blockEntry :: (tokens false item ++ itemTokens rest)

def entryTokens : List (String × Wire) → List Token
  | [] => []
  | (key, value) :: rest =>
    .key :: .scalar (Yaml.Written.style key.toList) key.toList :: .value ::
      (tokens (Yaml.Written.isSimpleKey key.toList) value ++ entryTokens rest)

end

def isPayload : Wire → Bool
  | .string _ => true
  | .record _ => true
  | _ => false

def names : Wire → List String
  | .record fields => fields.map Prod.fst
  | _ => []

mutual

/-- Values as codecs write them: the keys of a record are distinct, and a variant, under a tag of
word characters that is no key of what it carries, stands only after a key on the same line. -/
def Sound (tagged : Bool) : Wire → Prop
  | .list items => ItemsSound items
  | .record fields => (fields.map Prod.fst).Nodup ∧ EntriesSound fields
  | .variant tag payload => tagged = true ∧ tag.toList ≠ [] ∧
      (∀ c ∈ tag.toList, Yaml.isWord c) ∧ payload.isPayload = true ∧ tag ∉ payload.names ∧
      Sound true payload
  | _ => True

def ItemsSound : List Wire → Prop
  | [] => True
  | item :: rest => Sound false item ∧ ItemsSound rest

def EntriesSound : List (String × Wire) → Prop
  | [] => True
  | (key, value) :: rest => Sound (Yaml.Written.isSimpleKey key.toList) value ∧ EntriesSound rest

end

/-- Where a value stands in a text: after a key on the same line, or after a dash or a colon that
stands at the column of what is around it. -/
structure Spot.Fits (spot : Spot) (around column : Nat) (tagged : Bool) : Prop where
  lead : spot.lead = [' ']
  inline : spot.inline = !tagged
  record : spot.recordColumn = around + 2
  list : spot.listColumn = if tagged then around else around + 2
  taggedList : tagged → spot.taggedListColumn = around
  scalar : spot.scalarColumn = around + 2
  deeper : around < column
  column : tagged = false → column = around + 1

theorem fits_afterKey {around column : Nat} (deeper : around < column) :
    (Spot.afterKey around).Fits around column true :=
  ⟨rfl, rfl, rfl, rfl, fun _ => rfl, rfl, deeper, by simp⟩

theorem fits_afterDash (around : Nat) : (Spot.afterDash around).Fits around (around + 1) false :=
  ⟨rfl, rfl, rfl, rfl, by simp, rfl, Nat.lt_succ_self _, fun _ => rfl⟩

theorem fits_afterColon (around : Nat) : (Spot.afterColon around).Fits around (around + 1) false :=
  ⟨rfl, rfl, rfl, rfl, by simp, rfl, Nat.lt_succ_self _, fun _ => rfl⟩

variable {spot : Spot} {around column count : Nat} {tagged : Bool} {rest : List Char}
  {indents : List Nat} {output : List Token}

theorem leads_opening (fits : spot.Fits around column tagged) {first : Nat}
    (inline : tagged = false → first = around + 2) :
    Leads ⟨spot.opening first ++ rest, column, indents, !tagged, output⟩
      ⟨rest, first, indents, true, output⟩ := by
  cases tagged with
  | false =>
    have place : first = column + 1 := by rw [inline rfl, fits.column rfl]
    simpa [Spot.opening, fits.inline, fits.lead, place] using Yaml.leads_space
  | true => simpa [Spot.opening, fits.inline] using Yaml.leads_line first

theorem opened_same (outer : List Nat) : opened (column :: outer) column = column :: outer := by
  simp [opened]

theorem opening_same (outer : List Nat) (token : Token) :
    opening (column :: outer) column token = [] := by
  simp [opening]

theorem opened_deeper (outer : List Nat) (deeper : around < column) :
    opened (around :: outer) column = column :: around :: outer := by
  simp [opened, deeper]

theorem opening_deeper (outer : List Nat) (deeper : around < column) (token : Token) :
    opening (around :: outer) column token = [token] := by
  simp [opening, deeper]

theorem endsWord_opening (fits : spot.Fits around column tagged) (first : Nat) :
    endsWord (spot.opening first ++ rest) := by
  cases tagged with
  | false =>
    simp only [Spot.opening, fits.inline, fits.lead]
    rfl
  | true =>
    simp only [Spot.opening, fits.inline]
    rfl

/-- What is in front of a value is followed by a blank or the end of its line. -/
theorem endsWord_value (fits : spot.Fits around column tagged) (value : Wire) :
    endsWord (yamlValue spot value ++ rest) := by
  rcases value with value | value | text | ⟨_ | ⟨item, items⟩⟩ | ⟨_ | ⟨⟨key, value⟩, fields⟩⟩ |
    ⟨tag, payload⟩
  all_goals simp only [yamlValue, List.append_assoc]
  case list.cons => exact endsWord_opening fits _
  case record.cons => exact endsWord_opening fits _
  all_goals
    rw [fits.lead]
    rfl

def entryText (column : Nat) (key : String) (value : Wire) : List Char :=
  (yamlKey column key.toList).1 ++ yamlValue (yamlKey column key.toList).2 value

def itemText (column : Nat) (item : Wire) : List Char :=
  '-' :: yamlValue (.afterDash column) item

theorem entryText_starts (column : Nat) (key : String) (value : Wire) (rest : List Char) :
    ∀ c ∈ (entryText column key value ++ rest).head?, startsToken c := by
  unfold entryText yamlKey
  split
  · next simple =>
    obtain ⟨c, written, spelled, starts⟩ := Yaml.simpleKey_starts simple
    simpa [spelled] using starts
  · simp
    decide

/-- Where the next entry stands, and the text from there on; `next` stands at `count` where there
is no entry. -/
def nextEntry (column count : Nat) (next : List Char) : List (String × Wire) → Nat × List Char
  | [] => (count, next)
  | (key, value) :: rest =>
    (column, entryText column key value ++ (yamlEntries column rest ++ (pad count ++ next)))

def nextItem (column count : Nat) (next : List Char) : List Wire → Nat × List Char
  | [] => (count, next)
  | item :: rest => (column, itemText column item ++ (yamlItems column rest ++ (pad count ++ next)))

variable {next : List Char}

theorem yamlEntries_next (fields : List (String × Wire)) :
    yamlEntries column fields ++ (pad count ++ next)
      = pad (nextEntry column count next fields).1 ++ (nextEntry column count next fields).2 := by
  rcases fields with _ | ⟨⟨key, value⟩, rest⟩
  · rfl
  · simp [yamlEntries, nextEntry, entryText]

theorem yamlItems_next (items : List Wire) :
    yamlItems column items ++ (pad count ++ next)
      = pad (nextItem column count next items).1 ++ (nextItem column count next items).2 := by
  cases items with
  | nil => rfl
  | cons item rest => simp [yamlItems, nextItem, itemText]

theorem nextEntry_left (fields : List (String × Wire)) (left : count ≤ column) :
    (nextEntry column count next fields).1 ≤ column := by
  rcases fields with _ | ⟨⟨key, value⟩, rest⟩
  · exact left
  · exact Nat.le_refl _

theorem nextItem_left (items : List Wire) (left : count ≤ column) :
    (nextItem column count next items).1 ≤ column := by
  cases items with
  | nil => exact left
  | cons item rest => exact Nat.le_refl _

theorem nextEntry_starts (fields : List (String × Wire)) (starts : ∀ c ∈ next.head?, startsToken c) :
    ∀ c ∈ (nextEntry column count next fields).2.head?, startsToken c := by
  rcases fields with _ | ⟨⟨key, value⟩, rest⟩
  · exact starts
  · exact entryText_starts column key value _

theorem nextItem_starts (items : List Wire) (starts : ∀ c ∈ next.head?, startsToken c) :
    ∀ c ∈ (nextItem column count next items).2.head?, startsToken c := by
  cases items with
  | nil => exact starts
  | cons item rest =>
    simp only [nextItem, itemText, List.cons_append, List.head?_cons, Option.mem_some_iff,
      forall_eq']
    decide

/-- A value's tokens are what is read from its text, up to the next token to its left. -/
def Leading (tagged : Bool) (value : Wire) : Prop :=
  ∀ (spot : Spot) (around column count : Nat) (next : List Char) (outer : List Nat)
    (output : List Token), spot.Fits around column tagged → count ≤ around →
    (∀ c ∈ next.head?, startsToken c) →
    Leads ⟨yamlValue spot value ++ (pad count ++ next), column, around :: outer, !tagged, output⟩
      ⟨next, count, around :: outer, true, output ++ tokens tagged value⟩

theorem exists_opened {indents : List Nat} (fits : ∀ indent ∈ indents.head?, indent ≤ column) :
    ∃ outer, opened indents column = column :: outer := by
  cases indents with
  | nil => exact ⟨[], rfl⟩
  | cons indent outer =>
    rcases Nat.lt_or_eq_of_le (fits indent rfl) with less | rfl
    · exact ⟨_, opened_deeper outer less⟩
    · exact ⟨_, opened_same outer⟩

theorem leads_entry {key : String} {value : Wire}
    (leading : Leading (Yaml.Written.isSimpleKey key.toList) value)
    (fits : ∀ indent ∈ indents.head?, indent ≤ column) (left : count ≤ column)
    (starts : ∀ c ∈ next.head?, startsToken c) :
    Leads ⟨entryText column key value ++ (pad count ++ next), column, indents, true, output⟩
      ⟨next, count, opened indents column, true, output ++ (opening indents column .blockMappingStart
        ++ ([.key, .scalar (Yaml.Written.style key.toList) key.toList, .value]
        ++ tokens (Yaml.Written.isSimpleKey key.toList) value))⟩ := by
  obtain ⟨outer, collection⟩ := exists_opened fits
  rw [collection]
  by_cases simple : Yaml.Written.isSimpleKey key.toList
  · rw [simple] at leading ⊢
    have deeper : column < column + (Yaml.Written.simpleKey key.toList).length + 1 := by omega
    have fits_ := fits_afterKey deeper
    have found := @Yaml.leads_simpleKey _ _ _ output _ simple
        (@endsWord_value _ _ _ _ (pad count ++ next) fits_ value) fits
    rw [collection] at found
    have read := found.trans (leading _ _ _ _ _ outer _ fits_ left starts)
    simpa [entryText, yamlKey, simple] using read
  · rw [Bool.not_eq_true] at simple
    rw [simple] at leading ⊢
    have question := @Yaml.leads_question
        (' ' :: (Yaml.Written.scalar (column + 2) key.toList
          ++ (pad column ++ ':' :: (yamlValue (.afterColon column) value ++ (pad count ++ next)))))
        _ _ output rfl fits
    rw [collection] at question
    have keyRead := @Yaml.leads_scalar
        (':' :: (yamlValue (.afterColon column) value ++ (pad count ++ next))) (column + 2) outer
        true (output ++ (opening indents column .blockMappingStart ++ [.key])) column column
        key.toList (by omega) (Nat.le_refl _)
        (by simp only [List.head?_cons, Option.mem_some_iff, forall_eq']; decide)
    have colon := @Yaml.leads_colon _ column outer
        (output ++ (opening indents column .blockMappingStart ++ [.key])
          ++ [.scalar (Yaml.Written.style key.toList) key.toList])
        (@endsWord_value _ _ _ _ (pad count ++ next) (fits_afterColon column) value)
    have read := question.trans (Yaml.leads_space.trans (keyRead.trans (colon.trans
      (leading _ _ _ _ _ outer _ (fits_afterColon column) left starts))))
    simpa [entryText, yamlKey, simple] using read

theorem leads_item {item : Wire} (leading : Leading false item)
    (fits : ∀ indent ∈ indents.head?, indent ≤ column) (left : count ≤ column)
    (starts : ∀ c ∈ next.head?, startsToken c) :
    Leads ⟨itemText column item ++ (pad count ++ next), column, indents, true, output⟩
      ⟨next, count, opened indents column, true, output
        ++ (opening indents column .blockSequenceStart ++ (.blockEntry :: tokens false item))⟩ := by
  obtain ⟨outer, collection⟩ := exists_opened fits
  have dash := @Yaml.leads_dash _ _ _ output
      (@endsWord_value _ _ _ _ (pad count ++ next) (fits_afterDash column) item) fits
  rw [collection] at dash ⊢
  have read := dash.trans (leading _ _ _ _ _ outer _ (fits_afterDash column) left starts)
  simpa [itemText] using read

def ItemsLeading (items : List Wire) : Prop :=
  ∀ (column count : Nat) (next : List Char) (outer : List Nat) (output : List Token),
    count ≤ column → (∀ c ∈ next.head?, startsToken c) →
    Leads ⟨(nextItem column count next items).2, (nextItem column count next items).1,
        column :: outer, true, output⟩
      ⟨next, count, column :: outer, true, output ++ itemTokens items⟩

def EntriesLeading (fields : List (String × Wire)) : Prop :=
  ∀ (column count : Nat) (next : List Char) (outer : List Nat) (output : List Token),
    count ≤ column → (∀ c ∈ next.head?, startsToken c) →
    Leads ⟨(nextEntry column count next fields).2, (nextEntry column count next fields).1,
        column :: outer, true, output⟩
      ⟨next, count, column :: outer, true, output ++ entryTokens fields⟩

/-- The items of a list, the first of which may begin a collection. -/
theorem leads_items {item : Wire} {items : List Wire} (first : Leading false item)
    (others : ItemsLeading items) (fits : ∀ indent ∈ indents.head?, indent ≤ column)
    (left : count ≤ column) (starts : ∀ c ∈ next.head?, startsToken c) :
    Leads ⟨(nextItem column count next (item :: items)).2, column, indents, true, output⟩
      ⟨next, count, opened indents column, true, output
        ++ (opening indents column .blockSequenceStart ++ itemTokens (item :: items))⟩ := by
  have here := @leads_item _ _ _ output _ _ first fits (@nextItem_left _ _ next items left)
      (@nextItem_starts column count _ items starts)
  obtain ⟨outer, collection⟩ := exists_opened fits
  rw [collection] at here ⊢
  rw [← yamlItems_next] at here
  have read := here.trans (others column count next outer _ left starts)
  simpa [nextItem, itemTokens] using read

theorem leads_entries {key : String} {value : Wire} {fields : List (String × Wire)}
    (first : Leading (Yaml.Written.isSimpleKey key.toList) value) (others : EntriesLeading fields)
    (fits : ∀ indent ∈ indents.head?, indent ≤ column) (left : count ≤ column)
    (starts : ∀ c ∈ next.head?, startsToken c) :
    Leads ⟨(nextEntry column count next ((key, value) :: fields)).2, column, indents, true, output⟩
      ⟨next, count, opened indents column, true, output
        ++ (opening indents column .blockMappingStart ++ entryTokens ((key, value) :: fields))⟩ := by
  have here := @leads_entry _ _ _ output _ _ _ first fits
      (@nextEntry_left _ _ next fields left)
      (@nextEntry_starts column count _ fields starts)
  obtain ⟨outer, collection⟩ := exists_opened fits
  rw [collection] at here ⊢
  rw [← yamlEntries_next] at here
  have read := here.trans (others column count next outer _ left starts)
  simpa [nextEntry, entryTokens] using read

/-- A list that is no list under a key begins a collection, and ends it. -/
theorem leading_list {item : Wire} {items : List Wire} (first : Leading false item)
    (others : ItemsLeading items) : Leading tagged (.list (item :: items)) := by
  intro spot around column count next outer output fits left starts
  cases tagged with
  | true =>
    have open_ := @leads_opening _ _ _ _ ((nextItem around count next (item :: items)).2)
        (around :: outer) output fits around (by simp)
    have listed := @leads_items around _ (around :: outer) output _ _ _ first others (by simp) left
        starts
    rw [opened_same, opening_same] at listed
    simpa [yamlValue, nextItem, itemText, fits.list, tokens, itemTokens] using open_.trans listed
  | false =>
    have open_ := @leads_opening _ _ _ _ ((nextItem (around + 2) count next (item :: items)).2)
        (around :: outer) output fits _ (fun _ => rfl)
    have listed := @leads_items (around + 2) _ (around :: outer) output _ _ _ first others
        (by simp) (show count ≤ around + 2 by omega) starts
    rw [opened_deeper outer (by omega), opening_deeper outer (by omega)] at listed
    have close := @Yaml.leads_close _ count (around :: outer) true
        (output ++ ([.blockSequenceStart] ++ itemTokens (item :: items))) (around + 2) starts
        (by omega)
    have read := open_.trans (listed.trans close)
    simpa [yamlValue, nextItem, itemText, fits.list, tokens, itemTokens] using read

theorem leading_record {key : String} {value : Wire} {fields : List (String × Wire)}
    (first : Leading (Yaml.Written.isSimpleKey key.toList) value) (others : EntriesLeading fields) :
    Leading tagged (.record ((key, value) :: fields)) := by
  intro spot around column count next outer output fits left starts
  have open_ := @leads_opening _ _ _ _
      ((nextEntry (around + 2) count next ((key, value) :: fields)).2) (around :: outer) output
      fits _ (fun _ => rfl)
  have entries := @leads_entries (around + 2) _ (around :: outer) output _ _ _ _ first others
      (by simp) (show count ≤ around + 2 by omega) starts
  rw [opened_deeper outer (by omega), opening_deeper outer (by omega)] at entries
  have close := @Yaml.leads_close _ count (around :: outer) true
      (output ++ ([.blockMappingStart] ++ entryTokens ((key, value) :: fields))) (around + 2)
      starts (by omega)
  have read := open_.trans (entries.trans close)
  simpa [yamlValue, nextEntry, entryText, fits.record, tokens, entryTokens] using read

def isTame (c : Char) : Bool :=
  0x2D ≤ c.toNat && c.toNat ≤ 0x39

theorem isTame_of_isDigit {c : Char} (digit : c.isDigit) : isTame c := by
  have range : 48 ≤ c.toNat ∧ c.toNat ≤ 57 := by
    simpa [Char.isDigit, UInt32.le_iff_toNat_le] using digit
  simp [isTame]
  omega

theorem ne_of_isTame {c d : Char} (tame : isTame c) (wild : isTame d = false) : c ≠ d := by
  rintro rfl
  rw [tame] at wild
  cases wild

theorem tame_text {text : List Char} (tame : ∀ c ∈ text, isTame c) :
    Yaml.Written.needsEscapes text = false ∧ text.any Yaml.Written.breaksLine = false ∧
      text.getLast? ≠ some ' ' ∧ ∀ before, Yaml.Written.holdsMark before text = false := by
  have shown : ∀ c ∈ text, Yaml.Written.isShown c := by
    intro c member
    have kind := tame c member
    simp [isTame] at kind
    simp [Yaml.Written.isShown]
    omega
  refine ⟨?_, ?_, ?_, ?_⟩
  · have apart : Yaml.Written.adjacent (· = ' ') Yaml.Written.breaksLine text = false := by
      clear shown
      induction text with
      | nil => rfl
      | cons c text ih =>
        have space := ne_of_isTame (tame c (by simp)) (d := ' ') (by decide)
        simp [Yaml.Written.adjacent, space, ih (fun d member => tame d (by simp [member]))]
    simp only [Yaml.Written.needsEscapes, apart, Bool.or_false, List.any_eq_false]
    intro c member
    simp [shown c member]
  · rw [List.any_eq_false]
    intro c member
    have kind := tame c member
    rw [Yaml.Written.breaksLine_eq (shown c member), Bool.not_eq_true]
    simp only [Yaml.isBreak, Bool.or_eq_false_iff, decide_eq_false_iff_not]
    exact ⟨⟨ne_of_isTame kind (by decide), ne_of_isTame kind (by decide)⟩,
      ne_of_isTame kind (by decide)⟩
  · intro last
    exact ne_of_isTame (tame _ (List.mem_of_getLast? last)) (by decide) rfl
  · clear shown
    induction text with
    | nil => exact fun _ => rfl
    | cons c text ih =>
      intro before
      have colon := ne_of_isTame (tame c (by simp)) (d := ':') (by decide)
      have hash := ne_of_isTame (tame c (by simp)) (d := '#') (by decide)
      simp [Yaml.Written.holdsMark, colon, hash, ih (fun d member => tame d (by simp [member]))]

theorem standsPlain_digits {c : Char} {text : List Char} (digits : ∀ d ∈ text, d.isDigit)
    (first : c.isDigit ∨ c = '-' ∧ text ≠ []) : Yaml.Written.standsPlain (c :: text) := by
  have tame : ∀ d ∈ c :: text, isTame d := by
    intro d member
    rcases List.mem_cons.1 member with rfl | later
    · rcases first with digit | ⟨rfl, -⟩
      · exact isTame_of_isDigit digit
      · decide
    · exact isTame_of_isDigit (digits d later)
  obtain ⟨calm, line, last, marks⟩ := tame_text tame
  have unmarked := marks ' '
  simp only [Yaml.Written.holdsMark, Bool.or_eq_false_iff] at unmarked
  have space : c ≠ ' ' := ne_of_isTame (tame c (by simp)) (by decide)
  have mark : Yaml.Written.startsLikeMark (c :: text) = false := by
    rcases text with _ | ⟨d, text⟩
    · simp [Yaml.Written.startsLikeMark]
    · have digit := digits d (by simp)
      have dash : d ≠ '-' := by
        rintro rfl
        cases digit
      have dot : d ≠ '.' := by
        rintro rfl
        cases digit
      simp [Yaml.Written.startsLikeMark, dash, dot]
  have other : Yaml.Written.startsOther c text = false := by
    have listed : ("#,[]\x7b\x7d&*!|>'\"%@\x60".toList.contains c) = false := by
      rw [List.contains_eq_any_beq, List.any_eq_false]
      have wild : ∀ d ∈ "#,[]\x7b\x7d&*!|>'\"%@\x60".toList, !isTame d :=
        List.all_eq_true.1 (by decide)
      intro d member same
      exact ne_of_isTame (tame c (by simp)) (by simpa using wild d member) (eq_of_beq same)
    have question : c ≠ '?' := ne_of_isTame (tame c (by simp)) (by decide)
    have colon : c ≠ ':' := ne_of_isTame (tame c (by simp)) (by decide)
    have word : c = '-' → Yaml.endsWord text = false := by
      intro dash
      rcases first with digit | ⟨-, more⟩
      · subst dash
        cases digit
      · obtain ⟨d, text, rfl⟩ := List.exists_cons_of_ne_nil more
        rw [← Bool.not_eq_true]
        intro ends
        rcases Yaml.endsWord_cases ends with wild | wild | wild | wild | wild <;>
          exact ne_of_isTame (tame d (by simp)) (by decide) wild
    rw [Yaml.Written.startsOther, listed]
    simp [question, colon]
    exact word
  simp [Yaml.Written.standsPlain, calm, line, last, space, mark, other, unmarked.2]

theorem standsPlain_int (value : Int) : Yaml.Written.standsPlain (toString value).toList := by
  obtain ⟨n, ⟨-, written⟩ | ⟨-, written⟩⟩ := int_cases value
  · obtain ⟨c, digits, spelled⟩ := List.exists_cons_of_ne_nil (Nat.toDigits_ne_nil (b := 10) (n := n))
    have all : ∀ d ∈ c :: digits, d.isDigit := fun d member =>
      Nat.isDigit_of_mem_toDigits (b := 10) (n := n) (by decide) (by decide) (spelled ▸ member)
    rw [written, spelled]
    exact standsPlain_digits (fun d member => all d (by simp [member])) (.inl (all c (by simp)))
  · rw [written]
    exact standsPlain_digits (fun d member => Nat.isDigit_of_mem_toDigits (by decide) (by decide)
      member) (.inr ⟨rfl, Nat.toDigits_ne_nil⟩)

theorem isTame_of_mem_int (value : Int) : ∀ c ∈ (toString value).toList, isTame c := by
  obtain ⟨n, ⟨-, written⟩ | ⟨-, written⟩⟩ := int_cases value
  · intro c member
    exact isTame_of_isDigit (Nat.isDigit_of_mem_toDigits (by decide) (by decide) (written ▸ member))
  · intro c member
    rw [written] at member
    rcases List.mem_cons.1 member with rfl | digit
    · decide
    · exact isTame_of_isDigit (Nat.isDigit_of_mem_toDigits (by decide) (by decide) digit)

theorem int_ne_nil (value : Int) : (toString value).toList ≠ [] := by
  obtain ⟨n, ⟨-, written⟩ | ⟨-, written⟩⟩ := int_cases value
  · exact written ▸ Nat.toDigits_ne_nil
  · rw [written]
    simp

theorem leading_plain {value : Wire} {text : List Char}
    (written : ∀ spot, yamlValue spot value = spot.lead ++ text ++ ['\n'])
    (plain : Yaml.Written.standsPlain text) (nonempty : text ≠ [])
    (read : tokens tagged value = [.scalar .plain text]) : Leading tagged value := by
  intro spot around column count next outer output fits left starts
  have deeper := fits.deeper
  have word : next.head?.all (fun c => !Yaml.isBlank c && !Yaml.isBreak c) := by
    cases next with
    | nil => rfl
    | cons c next =>
      have kind := starts c rfl
      simp_all [startsToken, Yaml.isBlank]
  have scalar := @Yaml.leads_plain next (column + 1) outer (!tagged) output _ _ _ plain nonempty
      (show around < column + 1 by omega) left word
  rw [written, fits.lead, read]
  simpa using Yaml.leads_space.trans scalar

theorem leading_text (text : String) : Leading tagged (.string text) := by
  intro spot around column count next outer output fits left starts
  have deeper := fits.deeper
  have scalar := @Yaml.leads_scalar next (column + 1) outer (!tagged) output _ _ text.toList
      (show around < column + 1 by omega) left starts
  simp only [yamlValue, fits.lead, fits.scalar, tokens]
  simpa using Yaml.leads_space.trans scalar

theorem leading_empty {value : Wire} {first last : Char} {start stop : Token}
    (marks : Yaml.EmptyMarks first last start stop)
    (written : ∀ spot, yamlValue spot value = spot.lead ++ [first, last, '\n'])
    (read : tokens tagged value = [start, stop]) : Leading tagged value := by
  intro spot around column count next outer output fits left starts
  have deeper := fits.deeper
  have empty := @Yaml.leads_empty next (column + 1) (around :: outer) (!tagged) output _ _ _ _
      count marks (by simpa using Nat.lt_succ_of_lt deeper)
  rw [written, fits.lead, read]
  simpa using Yaml.leads_space.trans empty

theorem leading_variant {tag : String} {payload : Wire} (nonempty : tag.toList ≠ [])
    (word : ∀ c ∈ tag.toList, Yaml.isWord c) (carried : Leading true payload) :
    Leading true (.variant tag payload) := by
  intro spot around column count next outer output fits left starts
  have deeper := fits.deeper
  have after : spot.afterTag.Fits around (column + 1 + (tag.toList.length + 1)) true :=
    { fits with
      lead := rfl
      inline := rfl
      list := fits.taggedList rfl
      deeper := by omega
      column := by simp }
  have tagged := @Yaml.leads_tag _ (column + 1) (around :: outer) output _ word nonempty
      (@endsWord_value _ _ _ _ (pad count ++ next) after payload)
      (by simp only [List.head?_cons, Option.mem_some_iff, forall_eq']; omega)
  have read := Yaml.leads_space.trans (tagged.trans (carried _ _ _ _ _ outer _ after left starts))
  simpa [yamlValue, fits.lead, tokens] using read

mutual

theorem leading_of_sound {tagged : Bool} (value : Wire) (sound : Sound tagged value) :
    Leading tagged value := by
  rcases value with value | value | text | ⟨_ | ⟨item, items⟩⟩ | ⟨_ | ⟨⟨key, value⟩, fields⟩⟩ |
    ⟨tag, payload⟩
  · exact leading_plain (fun spot => rfl) (by cases value <;> decide) (by cases value <;> decide) rfl
  · exact leading_plain (fun spot => rfl) (standsPlain_int value) (int_ne_nil value) rfl
  · exact leading_text text
  · exact leading_empty .list (fun spot => rfl) rfl
  · exact leading_list (leading_of_sound item sound.1) (items_leading items sound.2)
  · exact leading_empty .record (fun spot => rfl) rfl
  · exact leading_record (leading_of_sound value sound.2.1) (entries_leading fields sound.2.2)
  · obtain ⟨rfl, nonempty, word, -, -, carried⟩ := sound
    exact leading_variant nonempty word (leading_of_sound payload carried)

theorem items_leading (items : List Wire) (sound : ItemsSound items) : ItemsLeading items := by
  intro column count next outer output left starts
  cases items with
  | nil => simpa [nextItem, itemTokens] using Leads.refl _
  | cons item rest =>
    have read := @leads_items column _ (column :: outer) output _ _ _
        (leading_of_sound item sound.1) (items_leading rest sound.2) (by simp) left starts
    rw [opened_same, opening_same] at read
    exact read

theorem entries_leading (fields : List (String × Wire)) (sound : EntriesSound fields) :
    EntriesLeading fields := by
  intro column count next outer output left starts
  rcases fields with _ | ⟨⟨key, value⟩, rest⟩
  · simpa [nextEntry, entryTokens] using Leads.refl _
  · have read := @leads_entries column _ (column :: outer) output _ _ _ _
        (leading_of_sound value sound.1) (entries_leading rest sound.2) (by simp) left starts
    rw [opened_same, opening_same] at read
    exact read

end

end ApiManifest.Wire
