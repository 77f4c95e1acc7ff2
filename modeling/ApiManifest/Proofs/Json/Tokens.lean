import ApiManifest.Proofs.Json.Lines

/-!
The tokens of a JSON text where it is scanned as YAML. All of it is one flow collection, and every
key of it is found as long as its colon comes on the same line and soon enough.
-/

namespace ApiManifest.JsonSyntax

open Yaml (FlowPlace LeadsIn isAllowed)

def Key.tokens (key : Key) : List Yaml.Token :=
  [.key, .scalar .doubleQuoted (key.pieces.map Piece.image), .value]

mutual

def Value.tokens : Value → List Yaml.Token
  | .null => [.scalar .plain "null".toList]
  | .bool value => [.scalar .plain (flagChars value)]
  | .number numeral => [.scalar .plain numeral.chars]
  | .string pieces => [.scalar .doubleQuoted (pieces.map Piece.image)]
  | .emptyArray _ => [.flowSequenceStart, .flowSequenceEnd]
  | .array _ items => .flowSequenceStart :: items.tokens
  | .emptyObject _ => [.flowMappingStart, .flowMappingEnd]
  | .object _ members => .flowMappingStart :: members.tokens

def Items.tokens : Items → List Yaml.Token
  | .last value _ => value.tokens ++ [.flowSequenceEnd]
  | .more value _ _ rest => value.tokens ++ .flowEntry :: rest.tokens

def Members.tokens : Members → List Yaml.Token
  | .last key value _ => key.tokens ++ (value.tokens ++ [.flowMappingEnd])
  | .more key value _ _ rest => key.tokens ++ (value.tokens ++ .flowEntry :: rest.tokens)

end

section Scanning

variable {depth : Nat} {keyAllowed : Option Bool} {output : List Yaml.Token} {rest : List Char}

theorem Key.leadsIn {key : Key} (read : key.IsRead) :
    LeadsIn ⟨key.spelled Space.uniform ++ rest, depth + 1, some true, output⟩
      ⟨rest, depth + 1, some false, output ++ key.tokens⟩ := by
  obtain ⟨stays, blank⟩ := Space.uniform_line read.line
  have short := read.short
  have named := @Yaml.leadsIn_key (key.beyond.uniform ++ rest) depth output _ _
    key.after.uniform (Piece.quoted_images key.pieces read.pieces) (Piece.line_quoted read.pieces)
    blank (by rw [stays]; simp [Piece.quoted] at short ⊢; omega)
  have beyond := @Yaml.leadsIn_white rest depth (some false) (output ++ key.tokens) _
    key.beyond.uniform_cases
  have whole := named.trans beyond
  simpa [Key.spelled, Piece.quoted] using whole

theorem leadsIn_word {word : List Char} (plain : ∀ c ∈ word, isPlain c)
    (starts : Yaml.startsBare word) (after : Space) {c : Char} (closing : Yaml.Scalar.closes c) :
    LeadsIn ⟨word ++ (after.uniform ++ c :: rest), depth + 1, keyAllowed, output⟩
      ⟨c :: rest, depth + 1, none, output ++ [.scalar .plain word]⟩ := by
  apply Yaml.leadsIn_bare (fun d member => (plain d member).1) starts _ closing
  intro d member
  rcases after.uniform_cases d member with rfl | rfl | rfl
  · exact .inl (by decide)
  · exact .inl (by decide)
  · exact .inr (by decide)

/-- A collection is read from its first mark to its last one; `inner` reads what comes between. -/
theorem leadsIn_collection {before : Space} {mark : Char} {token : Yaml.Token}
    {inside tokens : List Yaml.Token} {body : List Char}
    (opens : (mark = '[' ∧ token = .flowSequenceStart) ∨
      (mark = '\x7b' ∧ token = .flowMappingStart))
    (inner : LeadsIn ⟨body ++ rest, depth + 1, some true, output ++ [token]⟩
      ⟨rest, depth, some false, output ++ [token] ++ inside⟩) (whole : tokens = token :: inside) :
    LeadsIn ⟨mark :: (before.uniform ++ body) ++ rest, depth, keyAllowed, output⟩
      ⟨rest, depth, some false, output ++ tokens⟩ := by
  have first := @Yaml.leadsIn_start (before.uniform ++ (body ++ rest)) depth keyAllowed output _ _
    opens
  have white := @Yaml.leadsIn_white (body ++ rest) depth (some true) (output ++ [token]) _
    before.uniform_cases
  simpa [whole] using (first.trans white).trans inner

end Scanning

mutual

/-- A value inside a collection is read up to the mark after it. -/
theorem Value.leadsIn (value : Value) (read : value.All Value.IsRead) (after : Space) {c : Char}
    {rest : List Char} {depth : Nat} {keyAllowed : Option Bool} {output : List Yaml.Token}
    (closing : Yaml.Scalar.closes c) :
    LeadsIn ⟨value.spelled Space.uniform ++ (after.uniform ++ c :: rest), depth + 1, keyAllowed,
        output⟩
      ⟨c :: rest, depth + 1, none, output ++ value.tokens⟩ := by
  have white {known : Option Bool} {tokens : List Yaml.Token} :
      LeadsIn ⟨after.uniform ++ c :: rest, depth + 1, known, output ++ tokens⟩
        ⟨c :: rest, depth + 1, none, output ++ tokens⟩ :=
    (Yaml.leadsIn_white after.uniform_cases).trans Yaml.leadsIn_forget
  match value with
  | .null => exact leadsIn_word isPlain_null (by decide) after closing
  | .bool true => exact leadsIn_word (isPlain_flag true) (by decide) after closing
  | .bool false => exact leadsIn_word (isPlain_flag false) (by decide) after closing
  | .number numeral => exact leadsIn_word numeral.isPlain_of_mem numeral.startsBare after closing
  | .string pieces =>
    have quoted := @Yaml.leadsIn_quoted (after.uniform ++ c :: rest) (depth + 1) keyAllowed output
      _ _ (Piece.quoted_images pieces read)
    simpa [Value.spelled, Piece.quoted, Value.tokens] using quoted.trans white
  | .emptyArray inside =>
    exact (leadsIn_collection (.inl ⟨rfl, rfl⟩) (Yaml.leadsIn_end (.inl ⟨rfl, rfl⟩)) rfl).trans
      white
  | .array before items =>
    exact (leadsIn_collection (.inl ⟨rfl, rfl⟩) (items.leadsIn read.2) rfl).trans white
  | .emptyObject inside =>
    exact (leadsIn_collection (.inr ⟨rfl, rfl⟩) (Yaml.leadsIn_end (.inr ⟨rfl, rfl⟩)) rfl).trans
      white
  | .object before members =>
    exact (leadsIn_collection (.inr ⟨rfl, rfl⟩) (members.leadsIn read.1 read.2) rfl).trans white

theorem Items.leadsIn (items : Items) (read : items.All Value.IsRead) {rest : List Char}
    {depth : Nat} {keyAllowed : Option Bool} {output : List Yaml.Token} :
    LeadsIn ⟨items.spelled Space.uniform ++ rest, depth + 1, keyAllowed, output⟩
      ⟨rest, depth, some false, output ++ items.tokens⟩ := by
  match items with
  | .last value after =>
    have first := @value.leadsIn read after ']' rest depth keyAllowed output (by decide)
    have ends := @Yaml.leadsIn_end rest depth none (output ++ value.tokens) _ _ (.inl ⟨rfl, rfl⟩)
    simpa [Items.spelled, Items.tokens] using first.trans ends
  | .more value after beyond others =>
    have first := @value.leadsIn read.1 after ','
      (beyond.uniform ++ (others.spelled Space.uniform ++ rest)) depth keyAllowed output (by decide)
    have comma := first.trans Yaml.leadsIn_comma
    have white := comma.trans (Yaml.leadsIn_white beyond.uniform_cases)
    simpa [Items.spelled, Items.tokens] using white.trans (others.leadsIn read.2)

theorem Members.leadsIn (members : Members) (keys : ∀ member ∈ members.toList, member.1.IsRead)
    (read : members.All Value.IsRead) {rest : List Char} {depth : Nat}
    {output : List Yaml.Token} :
    LeadsIn ⟨members.spelled Space.uniform ++ rest, depth + 1, some true, output⟩
      ⟨rest, depth, some false, output ++ members.tokens⟩ := by
  match members with
  | .last key value after =>
    have named := keys (key, value) (by simp [Members.toList])
    have first := @value.leadsIn read after '\x7d' rest depth (some false) (output ++ key.tokens)
      (by decide)
    have ends := first.trans (Yaml.leadsIn_end (.inr ⟨rfl, rfl⟩))
    simpa [Members.spelled, Members.tokens] using (Key.leadsIn named).trans ends
  | .more key value after beyond others =>
    have named := keys (key, value) (by simp [Members.toList])
    have later (member : Key × Value) (inside : member ∈ others.toList) : member.1.IsRead :=
      keys member (by simp [Members.toList, inside])
    have first := @value.leadsIn read.1 after ','
      (beyond.uniform ++ (others.spelled Space.uniform ++ rest)) depth (some false)
      (output ++ key.tokens) (by decide)
    have comma := first.trans Yaml.leadsIn_comma
    have white := comma.trans (Yaml.leadsIn_white beyond.uniform_cases)
    have ends := white.trans (others.leadsIn later read.2)
    simpa [Members.spelled, Members.tokens] using (Key.leadsIn named).trans ends

end

section Outside

variable {keyAllowed : Option Bool} {output : List Yaml.Token} {rest : List Char}

theorem leadsIn_lines {white : List Char} (kind : ∀ c ∈ white, c = ' ' ∨ c = '\n') :
    LeadsIn ⟨white ++ rest, 0, keyAllowed, output⟩
      ⟨rest, 0, if '\n' ∈ white then some true else keyAllowed, output⟩ := by
  induction white generalizing keyAllowed with
  | nil => exact .refl _
  | cons c white ih =>
    have later (known : Option Bool) := @ih known fun d member => kind d (by simp [member])
    rcases kind c (by simp) with rfl | rfl
    · simpa using (Yaml.leadsIn_blank (.inl rfl)).trans (later keyAllowed)
    · simpa using Yaml.leadsIn_line.trans (later (some true))

theorem leadsIn_blanks {white : List Char} (kind : ∀ c ∈ white, c = ' ' ∨ c = '\t') :
    LeadsIn ⟨white ++ rest, 0, some false, output⟩ ⟨rest, 0, some false, output⟩ := by
  induction white with
  | nil => exact .refl _
  | cons c white ih =>
    have later := ih fun d member => kind d (by simp [member])
    apply LeadsIn.trans (Yaml.leadsIn_blank _) later
    exact (kind c (by simp)).imp id (fun tab => ⟨tab, .inr rfl⟩)

end Outside

/-- No tab begins a line outside the value, and no string or key of the value is too much for the
scan. -/
structure Text.IsRead (text : Text) : Prop where
  lead : '\t' ∉ text.lead.chars
  trail : '\t' ∉ text.trail.chars.dropWhile Yaml.isBlank
  root : text.root.All Value.IsRead

instance : DecidablePred Text.IsRead := fun _ =>
  decidable_of_iff (_ ∧ _ ∧ _)
    ⟨fun ⟨lead, trail, root⟩ => ⟨lead, trail, root⟩, fun ⟨lead, trail, root⟩ => ⟨lead, trail, root⟩⟩

namespace Text

variable {text : Text}

theorem lead_cases (read : text.IsRead) : ∀ c ∈ text.lead.uniform, c = ' ' ∨ c = '\n' := by
  intro c member
  rcases text.lead.uniform_cases c member with space | tab | line
  · exact .inl space
  · rcases mem_uniformBreaks member with feed | ⟨inside, -⟩
    · exact .inr feed
    · exact absurd (tab ▸ inside) read.lead
  · exact .inr line

/-- Blanks, and then lines without tabs. -/
theorem trail_split (read : text.IsRead) : ∃ blanks lines,
    text.trail.uniform = blanks ++ lines ∧ (∀ c ∈ blanks, c = ' ' ∨ c = '\t') ∧
      ∀ c ∈ lines, c = ' ' ∨ c = '\n' := by
  have blank : ∀ c ∈ text.trail.chars.takeWhile Yaml.isBlank, c = ' ' ∨ c = '\t' := by
    intro c member
    simpa [Yaml.isBlank] using List.mem_takeWhile_imp member
  have settled : ∀ c ∈ text.trail.chars.takeWhile Yaml.isBlank, isSettled c := by
    intro c member
    rcases blank c member with rfl | rfl <;> exact ⟨by decide, by decide, by decide⟩
  have allowed : ∀ c ∈ text.trail.chars.dropWhile Yaml.isBlank, isAllowed c := by
    intro c member
    rcases text.trail.white_cases c ((List.dropWhile_sublist _).subset member) with
      rfl | rfl | rfl | rfl <;> decide
  have split := (IsUniform.token settled ⟨allowed, rfl⟩).same
  rw [List.takeWhile_append_dropWhile] at split
  refine ⟨_, _, split, blank, ?_⟩
  intro c member
  rcases mem_uniformBreaks member with feed | ⟨inside, other⟩
  · exact .inr feed
  · rcases text.trail.white_cases c ((List.dropWhile_sublist _).subset inside) with
      space | tab | feed | carriage
    · exact .inl space
    · exact absurd (tab ▸ inside) read.trail
    · exact .inr feed
    · exact absurd carriage other

theorem isUniform (read : text.IsRead) :
    IsUniform (text.spelled Space.chars) (text.spelled Space.uniform) := by
  have trail := text.trail.isUniform .nil (by simp)
  rw [List.append_nil, List.append_nil] at trail
  exact text.lead.isUniform (text.root.isUniform read.root trail) (text.root.spelled_starts _ _)

theorem root_leadsIn {value : Value} (read : value.All Value.IsRead)
    (object : value.members?.isSome) {rest : List Char} :
    LeadsIn ⟨value.spelled Space.uniform ++ rest, 0, some true, []⟩
      ⟨rest, 0, some false, value.tokens⟩ := by
  cases value with
  | emptyObject inside =>
    exact leadsIn_collection (.inr ⟨rfl, rfl⟩) (Yaml.leadsIn_end (.inr ⟨rfl, rfl⟩)) rfl
  | object before members =>
    exact leadsIn_collection (.inr ⟨rfl, rfl⟩) (members.leadsIn read.1 read.2) rfl
  | _ => simp [Value.members?] at object

/-- The tokens of a text that is an object. -/
theorem tokens?_spelled (read : text.IsRead) (object : text.root.members?.isSome) :
    Yaml.tokens? (text.spelled Space.chars) = some text.root.tokens := by
  obtain ⟨blanks, lines, split, blank, line⟩ := trail_split read
  have uniform := isUniform read
  have lead := @leadsIn_lines (some true) []
    (text.root.spelled Space.uniform ++ text.trail.uniform) _ (lead_cases read)
  rw [ite_self] at lead
  have root := lead.trans (root_leadsIn read.root object)
  have first := @leadsIn_blanks text.root.tokens lines _ blank
  have last := @leadsIn_lines (some false) text.root.tokens [] _ line
  rw [← split] at first
  rw [List.append_nil] at last
  exact Yaml.tokens?_of_leadsIn uniform.allowed uniform.same (root.trans (first.trans last))

end Text

end ApiManifest.JsonSyntax
