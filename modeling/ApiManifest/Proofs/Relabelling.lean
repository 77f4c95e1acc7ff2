import ApiManifest.Proofs.LoneDashes
import ApiManifest.Proofs.OptionOrder

/-!
Command lines with other gateway labels. Where each label stands after its option and an equals
sign, the labels can be exchanged for any others that are well formed, and all else is read as
before.
-/

namespace ApiManifest.CommandLine

def labelName : String := "gateway-label"

def labelOption : OptionSpec :=
  .severalOf labelName (fun text => unreadable (CommandLine.label? text))

def labelArgument (text : String) : String :=
  "--" ++ labelName ++ "=" ++ text

/-- An argument of a command line: one that gives a label, or any other. -/
inductive Word where
  | label (text : String)
  | other (text : String)

namespace Word

def labelText? : Word → Option String
  | label text => some text
  | other _ => none

def argument (exchange : String → String) : Word → String
  | label text => labelArgument (exchange text)
  | other text => text

end Word

def labelTexts (words : List Word) : List String :=
  words.filterMap Word.labelText?

/-- No other argument names the option of the labels. -/
def Marked (words : List Word) : Prop :=
  ∀ text, Word.other text ∈ words →
    text ≠ "--" ++ labelName ∧ ∀ value, text ≠ labelArgument value

/-! ### Exchanging labels -/

def Part.exchange (exchange : String → String) : Part → Part
  | .option name value words =>
    if name = labelName then .option name (exchange value) [labelArgument (exchange value)]
    else .option name value words
  | .operand text => .operand text

def Segment.exchange (exchange : String → String) (segment : Segment) : Segment :=
  { segment with parts := segment.parts.map (Part.exchange exchange) }

def exchangeEntry (exchange : String → String) (entry : String × String) : String × String :=
  if entry.1 = labelName then (entry.1, exchange entry.2) else entry

section Exchange

variable (exchange : String → String)

theorem Part.entries_exchange (part : Part) :
    (part.exchange exchange).entries = part.entries.map (exchangeEntry exchange) := by
  cases part with
  | operand => rfl
  | option name value words =>
    unfold Part.exchange exchangeEntry
    by_cases label : name = labelName <;> simp [label, Part.entries]

theorem Part.operands_exchange (part : Part) :
    (part.exchange exchange).operands = part.operands := by
  cases part with
  | operand => rfl
  | option name value words =>
    unfold Part.exchange
    by_cases label : name = labelName <;> simp [label, Part.operands]

theorem Segment.entries_exchange (segment : Segment) :
    (segment.exchange exchange).entries = segment.entries.map (exchangeEntry exchange) := by
  unfold Segment.entries Segment.exchange
  simp only [List.flatMap_map, Part.entries_exchange, List.map_flatMap]

theorem Segment.operands_exchange (segment : Segment) :
    (segment.exchange exchange).operands = segment.operands := by
  unfold Segment.operands Segment.exchange
  simp only [List.flatMap_map, Part.operands_exchange]

theorem fst_exchangeEntry (entry : String × String) :
    (exchangeEntry exchange entry).1 = entry.1 := by
  unfold exchangeEntry
  split <;> rfl

theorem valuesOf_map_exchangeEntry (entries : List (String × String)) (name : String) :
    valuesOf (entries.map (exchangeEntry exchange)) name =
      (entries.filter (fun entry => entry.1 = name)).map
        (fun entry => (exchangeEntry exchange entry).2) := by
  unfold valuesOf
  rw [List.filter_map, List.map_map]
  simp only [Function.comp_def, fst_exchangeEntry]

theorem valuesOf_label (entries : List (String × String)) :
    valuesOf (entries.map (exchangeEntry exchange)) labelName =
      (valuesOf entries labelName).map exchange := by
  rw [valuesOf_map_exchangeEntry, valuesOf, List.map_map]
  refine List.map_congr_left fun entry member => ?_
  have named : entry.1 = labelName := by simpa using (List.mem_filter.1 member).2
  rw [exchangeEntry, if_pos named]
  rfl

theorem valuesOf_other (entries : List (String × String)) {name : String}
    (other : name ≠ labelName) :
    valuesOf (entries.map (exchangeEntry exchange)) name = valuesOf entries name := by
  rw [valuesOf_map_exchangeEntry, valuesOf]
  refine List.map_congr_left fun entry member => ?_
  have named : entry.1 = name := by simpa using (List.mem_filter.1 member).2
  rw [exchangeEntry, if_neg (named ▸ other)]

end Exchange

def Labelled (command : Command) : Prop :=
  ∀ option ∈ command.options, option.name = labelName → option = labelOption

/-! ### Arguments that give labels -/

theorem toList_labelArgument (value : String) :
    (labelArgument value).toList = '-' :: '-' :: (labelName.toList ++ '=' :: value.toList) := by
  simp [labelArgument]

theorem eq_of_equals {name other : String} (plain : '=' ∉ name.toList)
    (otherPlain : '=' ∉ other.toList) {rest others : List Char}
    (same : name.toList ++ '=' :: rest = other.toList ++ '=' :: others) :
    name = other ∧ rest = others := by
  have names := congrArg (List.takeWhile (· ≠ '=')) same
  rw [takeWhile_until plain, takeWhile_until otherPlain] at names
  rw [names] at same
  exact ⟨String.toList_inj.1 names, List.tail_eq_of_cons_eq (List.append_cancel_left same)⟩

theorem not_standsApart_label (value : String) : ¬ StandsApart (labelArgument value) :=
  fun stands => by cases stands _ (toList_labelArgument value)

section Parts

variable {command : Command} (legible : Legible command)

include legible

theorem call_ne_labelArgument {option : OptionSpec} (member : option ∈ command.options)
    {call : String} (calls : Calls option call) (value : String) :
    call ≠ labelArgument value := by
  rintro rfl
  have shape := toList_labelArgument value
  generalize labelArgument value = text at calls shape
  cases calls with
  | name =>
    refine (legible.plain option member).2.2 ?_
    have named : option.name.toList = labelName.toList ++ '=' :: value.toList := by
      simpa using shape
    rw [named]
    exact List.mem_append_right _ List.mem_cons_self
  | @letter letter short =>
    simp [Char.toString] at shape

/-- The argument that gives a label is a whole part, which gives that label. -/
theorem part_of_labelArgument {part : Part} (fits : Fits command part) {value : String}
    (inside : labelArgument value ∈ part.words) :
    part = .option labelName value [labelArgument value] := by
  cases fits with
  | operand _ stands =>
    rw [← List.mem_singleton.1 inside] at stands
    exact absurd stands (not_standsApart_label value)
  | @option option name given words member named spelled =>
    cases spelled with
    | flag bare calls =>
      exact absurd (List.mem_singleton.1 inside).symm
        (call_ne_labelArgument legible member calls value)
    | @attached call _ takes calls =>
      have shape := toList_labelArgument value
      rw [List.mem_singleton.1 inside] at shape
      cases calls with
      | name =>
        have same : option.name.toList ++ '=' :: given.toList =
            labelName.toList ++ '=' :: value.toList := by simpa using shape
        obtain ⟨label, values⟩ := eq_of_equals (legible.plain option member).2.2 (by decide) same
        rw [← named, label, String.toList_inj.1 values]
        rfl
      | @letter letter short =>
        refine absurd ?_ (legible.letters option member letter short).1
        simp [Char.toString] at shape
        exact shape.1
    | @joined letter first rest takes short plain =>
      have shape := toList_labelArgument value
      rw [List.mem_singleton.1 inside] at shape
      refine absurd ?_ (legible.letters option member letter short).1
      simp [Char.toString] at shape
      exact shape.1
    | apart takes calls stands =>
      rcases List.mem_cons.1 inside with here | there
      · exact absurd here.symm (call_ne_labelArgument legible member calls value)
      · rw [← List.mem_singleton.1 there] at stands
        exact absurd stands (not_standsApart_label value)

end Parts

theorem exchange_of_marked {command : Command} (labelled : Labelled command) {part : Part}
    (fits : Fits command part)
    (unnamed : ∀ text ∈ part.words, text ≠ "--" ++ labelName ∧ ∀ value, text ≠ labelArgument value)
    (exchange : String → String) : part.exchange exchange = part ∧
      valuesOf part.entries labelName = [] := by
  cases fits with
  | operand => exact ⟨rfl, rfl⟩
  | @option option name value words member named spelled =>
    have other : name ≠ labelName := by
      rintro rfl
      cases labelled option member named
      cases spelled with
      | flag bare => cases bare
      | attached takes calls =>
        cases calls with
        | name => exact (unnamed _ (List.mem_singleton_self _)).2 value rfl
        | letter short => cases short
      | joined _ short => cases short
      | apart takes calls =>
        cases calls with
        | name => exact (unnamed _ List.mem_cons_self).1 rfl
        | letter short => cases short
    refine ⟨if_neg other, ?_⟩
    exact (valuesOf_single name value labelName).trans (if_neg other)

/-! ### Lines with labels left open -/

theorem Marked.left {front back : List Word} (marked : Marked (front ++ back)) : Marked front :=
  fun text member => marked text (List.mem_append_left _ member)

theorem Marked.right {front back : List Word} (marked : Marked (front ++ back)) : Marked back :=
  fun text member => marked text (List.mem_append_right _ member)

theorem labelTexts_append (front back : List Word) :
    labelTexts (front ++ back) = labelTexts front ++ labelTexts back :=
  List.filterMap_append

theorem arguments_of_unlabelled {words : List Word} (none : ∀ text, Word.label text ∉ words)
    (exchange other : String → String) :
    words.map (Word.argument other) = words.map (Word.argument exchange) ∧
      labelTexts words = [] := by
  constructor
  · refine List.map_congr_left fun word member => ?_
    cases word with
    | label text => exact absurd member (none text)
    | other text => rfl
  · refine List.filterMap_eq_nil_iff.2 fun word member => ?_
    cases word with
    | label text => exact absurd member (none text)
    | other text => rfl

/-- The parts have the labels of the arguments, and with any other labels they are written in these
arguments with those labels instead. With one exchange they are the given parts. -/
structure Template (exchange : String → String) (words : List Word) (given template : List Part) :
    Prop where
  given : template.map (Part.exchange exchange) = given
  written : ∀ other, (template.map (Part.exchange other)).flatMap Part.words =
    words.map (Word.argument other)
  labels : valuesOf (template.flatMap Part.entries) labelName = labelTexts words

theorem Template.append {exchange : String → String} {front back : List Word}
    {first second template later : List Part} (here : Template exchange front first template)
    (there : Template exchange back second later) :
    Template exchange (front ++ back) (first ++ second) (template ++ later) where
  given := by rw [List.map_append, here.given, there.given]
  written other := by
    rw [List.map_append, List.flatMap_append, here.written, there.written, List.map_append]
  labels := by
    rw [List.flatMap_append, valuesOf_append, here.labels, there.labels, labelTexts_append]

section Templates

variable {command : Command} {exchange : String → String} {words : List Word}

theorem exists_template_part (legible : Legible command) (labelled : Labelled command) {part : Part}
    (fits : Fits command part) (marked : Marked words)
    (written : part.words = words.map (Word.argument exchange)) :
    ∃ template, Template exchange words [part] [template] := by
  by_cases labels : ∃ text, Word.label text ∈ words
  · obtain ⟨text, member⟩ := labels
    have inside : labelArgument (exchange text) ∈ part.words :=
      written ▸ List.mem_map_of_mem member
    cases part_of_labelArgument legible fits inside
    obtain ⟨word, rfl, -⟩ := List.map_eq_singleton_iff.1 written.symm
    cases List.mem_singleton.1 member
    refine ⟨.option labelName text [labelArgument text], ?_, fun other => ?_, ?_⟩
    · simp [Part.exchange]
    · simp [Part.exchange, Part.words, Word.argument]
    · simp [Part.entries, valuesOf_single, labelTexts, Word.labelText?]
  · have none : ∀ text, Word.label text ∉ words := fun text member => labels ⟨text, member⟩
    have unnamed : ∀ text ∈ part.words,
        text ≠ "--" ++ labelName ∧ ∀ value, text ≠ labelArgument value := by
      intro text inside
      rw [written] at inside
      obtain ⟨word, member, rfl⟩ := List.mem_map.1 inside
      cases word with
      | label text => exact absurd member (none text)
      | other text => exact marked text member
    have stays := exchange_of_marked labelled fits unnamed
    refine ⟨part, ?_, fun other => ?_, ?_⟩
    · rw [List.map_singleton, (stays exchange).1]
    · rw [List.map_singleton, (stays other).1, List.flatMap_singleton, written]
      exact (arguments_of_unlabelled none other exchange).1
    · rw [List.flatMap_singleton, (stays exchange).2]
      exact (arguments_of_unlabelled none exchange exchange).2.symm

theorem exists_template (legible : Legible command) (labelled : Labelled command)
    {parts : List Part} (fits : ∀ part ∈ parts, Fits command part) (marked : Marked words)
    (written : parts.flatMap Part.words = words.map (Word.argument exchange)) :
    ∃ template, Template exchange words parts template := by
  induction parts generalizing words with
  | nil =>
    cases List.map_eq_nil_iff.1 written.symm
    exact ⟨[], rfl, fun _ => rfl, rfl⟩
  | cons part parts ih =>
    obtain ⟨here, later⟩ := List.forall_mem_cons.1 fits
    rw [List.flatMap_cons] at written
    obtain ⟨front, back, rfl, first, second⟩ := List.map_eq_append_iff.1 written.symm
    obtain ⟨template, one⟩ := exists_template_part legible labelled here marked.left first.symm
    obtain ⟨others, rest⟩ := ih later marked.right second.symm
    exact ⟨template :: others, one.append rest⟩

end Templates

structure LineTemplate (exchange : String → String) (words : List Word)
    (line template : List Segment) : Prop where
  line : template.map (Segment.exchange exchange) = line
  written : ∀ other, layoutWords (template.map (Segment.exchange other)) =
    words.map (Word.argument other)
  labels : valuesOf (layoutEntries template) labelName = labelTexts words

section Lines

variable {command : Command} {exchange other : String → String} {words : List Word}

theorem eq_other_of_argument {word : Word} {text : String}
    (undashed : text.toList.head? ≠ some '-') (same : word.argument exchange = text) :
    word = .other text := by
  cases word with
  | other text => rw [← same]; rfl
  | label text =>
    refine absurd ?_ undashed
    rw [← same, Word.argument, toList_labelArgument]
    rfl

/-- A line can be laid out with its labels left open. -/
theorem exists_lineTemplate (legible : Throughout Legible command)
    (labelled : Throughout Labelled command) {line : List Segment} (lays : Lays command line)
    (marked : Marked words) (written : layoutWords line = words.map (Word.argument exchange)) :
    ∃ template, LineTemplate exchange words line template := by
  induction lays generalizing words with
  | @last command segment none suits fills =>
    obtain ⟨legible, -⟩ := legible
    obtain ⟨labelled, -⟩ := labelled
    have written : segment.words = words.map (Word.argument exchange) := by
      rw [← written]
      exact (List.append_nil _).symm
    obtain ⟨template, made⟩ := exists_template legible labelled suits.fits marked written
    refine ⟨[⟨segment.name, template⟩], ?_, fun other => ?_, ?_⟩
    · rw [List.map_singleton, Segment.exchange, made.given]
    · rw [← made.written]
      exact List.append_nil _
    · rw [← made.labels]
      exact congrArg (valuesOf · labelName) (List.append_nil _)
  | @onward command subcommand segment inner member suits rest ih =>
    obtain ⟨legible, below⟩ := legible
    obtain ⟨labelled, labelledBelow⟩ := labelled
    obtain ⟨first, others, rfl, named⟩ := rest.exists_head
    rw [layoutWords_onward] at written
    obtain ⟨front, back, rfl, here, there⟩ := List.map_eq_append_iff.1 written.symm
    obtain ⟨word, back, rfl, name, later⟩ := List.map_eq_cons_iff.1 there
    obtain ⟨template, made⟩ :=
      exists_template legible labelled suits.fits marked.left here.symm
    cases eq_other_of_argument (named ▸ legible.undashed subcommand member) name
    have markedBack : Marked back := fun text inside =>
      marked.right text (List.mem_cons_of_mem _ inside)
    obtain ⟨templates, laid⟩ :=
      ih (below subcommand member) (labelledBelow subcommand member) markedBack later.symm
    obtain ⟨head, tail, rfl, rfl, more⟩ := List.map_eq_cons_iff.1 laid.line
    refine ⟨⟨segment.name, template⟩ :: head :: tail, ?_, fun other => ?_, ?_⟩
    · rw [List.map_cons, laid.line, Segment.exchange, made.given]
    · have inner := laid.written other
      rw [List.map_cons] at inner
      rw [List.map_cons, List.map_cons, layoutWords_onward, inner, List.map_append, List.map_cons,
        ← made.written]
      rfl
    · have whole : layoutEntries (⟨segment.name, template⟩ :: head :: tail) =
          template.flatMap Part.entries ++ layoutEntries (head :: tail) := List.flatMap_cons
      rw [whole, valuesOf_append, made.labels, laid.labels, labelTexts_append]
      rfl

theorem fits_exchange (labelled : Labelled command) {part : Part}
    (fits : Fits command (part.exchange exchange)) (other : String → String) :
    Fits command (part.exchange other) := by
  cases part with
  | operand text => exact fits
  | option name value words =>
    unfold Part.exchange at fits ⊢
    dsimp only at fits ⊢
    by_cases label : name = labelName
    · rw [if_pos label] at fits ⊢
      cases fits with
      | option member named spelled =>
        have same := labelled _ member (named.trans label)
        exact .option member named (.attached (same ▸ rfl) (label ▸ named ▸ .name))
    · rw [if_neg label] at fits ⊢
      exact fits

theorem allowed_exchange (labelled : Labelled command) {entries : List (String × String)}
    (allowed : Allowed command (entries.map (exchangeEntry exchange)))
    (valid : ∀ text ∈ valuesOf entries labelName, label? (other text) ≠ none) :
    Allowed command (entries.map (exchangeEntry other)) where
  known entry member := by
    obtain ⟨before, inside, rfl⟩ := List.mem_map.1 member
    rw [fst_exchangeEntry, ← fst_exchangeEntry exchange]
    exact allowed.known _ (List.mem_map_of_mem inside)
  faultless option member value given := by
    by_cases label : option.name = labelName
    · rw [label, valuesOf_label] at given
      obtain ⟨text, inside, rfl⟩ := List.mem_map.1 given
      rw [labelled option member label]
      exact if_pos (Option.isSome_iff_ne_none.2 (valid text inside))
    · rw [valuesOf_other other entries label, ← valuesOf_other exchange entries label] at given
      exact allowed.faultless option member value given
  single option member once := by
    have unlabelled : option.name ≠ labelName := by
      intro label
      rw [labelled option member label] at once
      cases once
    rw [valuesOf_other other entries unlabelled, ← valuesOf_other exchange entries unlabelled]
    exact allowed.single option member once

theorem suits_exchange (labelled : Labelled command) {segment : Segment}
    (suits : Suits command (segment.exchange exchange))
    (valid : ∀ text ∈ valuesOf segment.entries labelName, label? (other text) ≠ none) :
    Suits command (segment.exchange other) where
  name := suits.name
  fits part member := by
    obtain ⟨before, inside, rfl⟩ := List.mem_map.1 member
    exact fits_exchange labelled (suits.fits _ (List.mem_map_of_mem inside)) other
  allowed := by
    have allowed := suits.allowed
    rw [Segment.entries_exchange] at allowed ⊢
    exact allowed_exchange labelled allowed valid
  single := by
    have single := suits.single
    rw [Segment.operands_exchange] at single ⊢
    exact single

theorem fills_exchange {segment : Segment} (fills : Fills command (segment.exchange exchange)) :
    Fills command (segment.exchange other) where
  needed option member needed := by
    have given := fills.needed option member needed
    rw [Segment.entries_exchange] at given ⊢
    by_cases label : option.name = labelName
    · rw [label, valuesOf_label, ne_eq, List.map_eq_nil_iff] at given ⊢
      exact given
    · rw [valuesOf_other _ _ label] at given ⊢
      exact given
  operand takes := by
    have given := fills.operand takes
    rw [Segment.operands_exchange] at given ⊢
    exact given

/-- A line stays one with other labels that are well formed. -/
theorem lays_exchange (labelled : Throughout Labelled command) {template : List Segment}
    (lays : Lays command (template.map (Segment.exchange exchange)))
    (valid : ∀ text ∈ valuesOf (layoutEntries template) labelName, label? (other text) ≠ none) :
    Lays command (template.map (Segment.exchange other)) := by
  generalize laid : template.map (Segment.exchange exchange) = line at lays
  induction lays generalizing template with
  | last none suits fills =>
    obtain ⟨labelled, -⟩ := labelled
    obtain ⟨segment, rfl, rfl⟩ := List.map_eq_singleton_iff.1 laid
    have here : ∀ text ∈ valuesOf segment.entries labelName, label? (other text) ≠ .none :=
      fun text given => valid text (valuesOf_mem_layout (List.mem_singleton_self _) given)
    exact .last none (suits_exchange labelled suits here) (fills_exchange fills)
  | @onward _ subcommand _ _ member suits rest ih =>
    obtain ⟨labelled, below⟩ := labelled
    obtain ⟨segment, inner, rfl, rfl, innerLaid⟩ := List.map_eq_cons_iff.1 laid
    have here : ∀ text ∈ valuesOf segment.entries labelName, label? (other text) ≠ .none :=
      fun text given => valid text (valuesOf_mem_layout List.mem_cons_self given)
    have later : ∀ text ∈ valuesOf (layoutEntries inner) labelName,
        label? (other text) ≠ .none := by
      intro text given
      obtain ⟨segment, member, entry⟩ := List.mem_flatMap.1 (mem_valuesOf.1 given)
      exact valid text (valuesOf_mem_layout (List.mem_cons_of_mem _ member) (mem_valuesOf.2 entry))
    exact .onward member (suits_exchange labelled suits here)
      (ih (below subcommand member) later innerLaid)

end Lines

theorem layoutEntries_exchange (exchange : String → String) (line : List Segment) :
    layoutEntries (line.map (Segment.exchange exchange)) =
      (layoutEntries line).map (exchangeEntry exchange) := by
  unfold layoutEntries
  simp only [List.flatMap_map, Segment.entries_exchange, List.map_flatMap]

theorem label?_of_lays {command : Command} (labelled : Throughout Labelled command)
    {line : List Segment} (lays : Lays command line) {value : String}
    (given : value ∈ valuesOf (layoutEntries line) labelName) : label? value ≠ none := by
  have valid : ∀ {command : Command} {segment : Segment}, Labelled command →
      Suits command segment → (labelName, value) ∈ segment.entries → label? value ≠ none := by
    intro command segment labelled suits entry
    obtain ⟨option, member, named⟩ := suits.allowed.known _ entry
    have fault := suits.allowed.faultless option member value (mem_valuesOf.2 (named ▸ entry))
    rw [labelled option member named] at fault
    intro none
    have fault : unreadable (label? value) = .none := fault
    rw [none] at fault
    cases fault
  obtain ⟨segment, member, entry⟩ := List.mem_flatMap.1 (mem_valuesOf.1 given)
  clear given
  induction lays with
  | last _ suits _ =>
    obtain ⟨labelled, -⟩ := labelled
    rw [List.mem_singleton.1 member] at entry
    exact valid labelled suits entry
  | @onward _ subcommand _ _ inside suits _ ih =>
    obtain ⟨labelled, below⟩ := labelled
    rcases List.mem_cons.1 member with rfl | later
    · exact valid labelled suits entry
    · exact ih (below subcommand inside) later

/-! ### Lines of the program -/

theorem policy_labelled : Labelled (leaf "authorizationpolicy" (sourceOptions ++
    [.required "public-host", labelOption])) := by
  have others : ∀ option ∈ sourceOptions ++ [.required "public-host"] ++ logOptions,
      option.name ≠ labelName := by decide
  intro option member named
  rcases List.mem_append.1 member with own | log
  · rcases List.mem_append.1 own with source | extra
    · exact absurd named (others option (List.mem_append_left _ (List.mem_append_left _ source)))
    · rcases List.mem_cons.1 extra with rfl | label
      · exact absurd named (by decide)
      · exact List.mem_singleton.1 label
  · exact absurd named (others option (List.mem_append_right _ log))

theorem program_labelled : Throughout Labelled program := by
  refine throughout_of_all program ?_
  simp only [program, leaf, group, Command.all, Command.allOf, List.append_nil,
    List.forall_mem_append, List.forall_mem_cons, List.not_mem_nil, false_imp_iff, implies_true,
    and_true, and_assoc]
  have plain : ∀ {command : Command}, (∀ option ∈ command.options, option.name ≠ labelName) →
      Labelled command := fun names option member named => absurd named (names option member)
  exact ⟨plain (by decide), plain (by decide), plain (by decide), plain (by decide),
    plain (by decide), plain (by decide), plain (by decide), plain (by decide), plain (by decide),
    plain (by decide), policy_labelled, plain (by decide), plain (by decide)⟩

theorem argument_eq_dashes_iff (exchange : String → String) (word : Word) :
    word.argument exchange = "--" ↔ word = .other "--" := by
  cases word with
  | other text => simp [Word.argument]
  | label text =>
    refine iff_of_false (fun same => ?_) (fun same => nomatch same)
    have shape := toList_labelArgument (exchange text)
    rw [show labelArgument (exchange text) = "--" from same] at shape
    cases shape

def DashedLast (words : List Word) : Prop :=
  ∃ front ending, words = front ++ ending ∧ Word.other "--" ∉ front ∧
    (ending = [] ∨ ending = [.other "--"])

section Reads

variable {preset : Bool} {exchange : String → String} {words : List Word}
  {inputs : List CommandInput}

theorem dashedLast_of_read
    (accepted : read program preset (words.map (Word.argument exchange)) = .ok inputs)
    (bare : ∀ input, inputs.getLast? = some input → input.operand = none) : DashedLast words := by
  obtain ⟨_, _, split, undashed, ends⟩ := exists_ending accepted bare
  obtain ⟨front, ending, rfl, rfl, rfl⟩ := List.map_eq_append_iff.1 split
  refine ⟨front, ending, rfl, fun inside => undashed ?_, ?_⟩
  · exact List.mem_map.2 ⟨_, inside, rfl⟩
  · rcases ends with none | dashes
    · exact .inl (List.map_eq_nil_iff.1 none)
    · obtain ⟨word, rfl, same⟩ := List.map_eq_singleton_iff.1 dashes
      rw [(argument_eq_dashes_iff exchange word).1 same]
      exact .inr rfl

/-- The line is laid out with its labels left open: with any that are well formed it is read, and
all but the labels as before. -/
structure Relabels (exchange : String → String) (words : List Word) (inputs : List CommandInput)
    (template : List Segment) : Prop where
  inputs : (template.map (Segment.exchange exchange)).map Segment.input = inputs
  labels : valuesOf (layoutEntries template) labelName = labelTexts words
  lays : Lays program (template.map (Segment.exchange exchange))
  read : ∀ preset other, (∀ text ∈ labelTexts words, label? (other text) ≠ none) →
    read program preset (words.map (Word.argument other)) =
      .ok ((template.map (Segment.exchange other)).map Segment.input)

theorem exists_relabels (marked : Marked words) (dashed : DashedLast words)
    (accepted : read program preset (words.map (Word.argument exchange)) = .ok inputs) :
    ∃ template, Relabels exchange words inputs template := by
  obtain ⟨front, ending, rfl, undashed, ends⟩ := dashed
  have none : ∀ change : String → String, "--" ∉ front.map (Word.argument change) := by
    intro change inside
    obtain ⟨word, member, same⟩ := List.mem_map.1 inside
    exact undashed ((argument_eq_dashes_iff change word).1 same ▸ member)
  have last : ∀ change : String → String, ending.map (Word.argument change) = [] ∨
      ending.map (Word.argument change) = ["--"] := by
    intro change
    rcases ends with rfl | rfl
    · exact .inl rfl
    · exact .inr rfl
  have labels : labelTexts (front ++ ending) = labelTexts front := by
    rcases ends with rfl | rfl <;> exact (labelTexts_append _ _).trans (List.append_nil _)
  rw [List.map_append] at accepted
  obtain ⟨line, lays, written, given⟩ :=
    (read_eq_ok_iff_of_ending (none exchange) (last exchange)).1 accepted
  obtain ⟨template, made⟩ :=
    exists_lineTemplate program_legible program_labelled lays marked.left written
  obtain rfl := made.line
  refine ⟨template, given, made.labels.trans labels.symm, lays, fun preset other valid => ?_⟩
  rw [labels, ← made.labels] at valid
  rw [List.map_append]
  exact (read_eq_ok_iff_of_ending (none other) (last other)).2
    ⟨_, lays_exchange program_labelled lays valid, made.written other, rfl⟩

end Reads

end ApiManifest.CommandLine
