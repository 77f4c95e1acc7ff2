import ApiManifest.Proofs.WrittenArguments

/-!
Whole command lines. Without two lone dashes, a command line is accepted exactly if it can be laid
out as what each of its commands is given, and what is read from it is just that.
-/

namespace ApiManifest.CommandLine

open Resolution (bind_eq_ok)

/-! ### Parts that are read -/

section Parts

variable {command : Command} {given : Given}

structure Ready (command : Command) (given : Given) : Prop where
  idle : given.awaitsValue = false
  known : ∀ pending, given.pending = some pending → pending.option ∈ command.options

theorem ready_settled (options : List (String × String)) (operand : Option String) :
    Ready command ⟨options, operand, none⟩ :=
  ⟨rfl, fun _ there => nomatch there⟩

theorem admits_of_allowed {before after : List (String × String)} {option : OptionSpec}
    {value : String} (allowed : Allowed command (before ++ (option.name, value) :: after))
    (member : option ∈ command.options) : Admits before option value := by
  have here : valuesOf (before ++ (option.name, value) :: after) option.name =
      valuesOf before option.name ++ value :: valuesOf after option.name := by
    rw [← List.singleton_append, valuesOf_append, valuesOf_append, valuesOf_single, if_pos rfl]
    rfl
  constructor
  · intro once
    have few := allowed.single option member once
    rw [here, List.length_append, List.length_cons] at few
    exact List.length_eq_zero_iff.1 (by omega)
  · refine allowed.faultless option member value ?_
    rw [here]
    exact List.mem_append_right _ List.mem_cons_self

theorem settle_of_ready (ready : Ready command given) {after : List (String × String)}
    (allowed : Allowed command (given.entries ++ after)) :
    given.settle = .ok ⟨given.entries, given.operand, none⟩ := by
  refine settle_eq_ok_iff.2 ⟨ready.idle, fun option value waiting => ?_, rfl⟩
  have inside := ready.known _ waiting
  have whole : given.entries = given.options ++ [(option.name, value)] := by
    unfold Given.entries
    rw [waiting]
  rw [whole, List.append_assoc] at allowed
  exact admits_of_allowed allowed inside

theorem readOption_attached {option : OptionSpec} {value : String}
    (settled : given.settle = .ok ⟨given.entries, given.operand, none⟩)
    (takes : option.takesValue = true) (admits : Admits given.entries option value) :
    readOption given option (some value) =
      .ok ⟨given.entries ++ [(option.name, value)], given.operand, none⟩ := by
  unfold readOption
  rw [takes, settled]
  exact take_eq_ok_iff.2 ⟨admits, rfl⟩

theorem readOption_flag {option : OptionSpec}
    (settled : given.settle = .ok ⟨given.entries, given.operand, none⟩)
    (bare : option.takesValue = false) (admits : Admits given.entries option "") :
    readOption given option none =
      .ok ⟨given.entries ++ [(option.name, "")], given.operand, none⟩ := by
  unfold readOption
  rw [bare, settled]
  exact take_eq_ok_iff.2 ⟨admits, rfl⟩

theorem readOption_begun {option : OptionSpec}
    (settled : given.settle = .ok ⟨given.entries, given.operand, none⟩)
    (takes : option.takesValue = true) :
    readOption given option none = .ok ⟨given.entries, given.operand, some ⟨option, none⟩⟩ := by
  unfold readOption Given.await
  rw [takes, settled]
  rfl

theorem move_value {option : OptionSpec} {text : String}
    (waits : given.pending = some ⟨option, none⟩) (stands : StandsApart text) :
    move command given text =
      .ok (.on ⟨given.options, given.operand, some ⟨option, some text⟩⟩) := by
  obtain ⟨options, operand, pending⟩ := given
  cases waits
  unfold move
  simp only [Given.awaitsValue, Option.any_some, Option.isNone_none, if_true, Bool.not_true,
    Bool.false_and, Bool.false_eq_true, if_false]
  split
  next two => exact absurd (stands _ two) (by simp)
  next long => exact absurd (stands _ long) (by simp)
  next short => exact absurd (stands _ short) (by simp)
  next => rfl

theorem move_operand (legible : Legible command) {text : String}
    (idle : given.awaitsValue = false) (takes : command.operand = true)
    (stands : StandsApart text) :
    move command given text = do return .on (← readOperand command given false text) := by
  have none := legible.operand takes
  unfold move Command.subcommand?
  simp only [idle, none, List.find?_nil, ite_self, List.isEmpty_nil, Bool.not_true, Bool.and_false,
    Bool.false_eq_true, if_false]
  split
  next two => exact absurd (stands _ two) (by simp)
  next long => exact absurd (stands _ long) (by simp)
  next short => exact absurd (stands _ short) (by simp)
  next => rfl

structure Took (command : Command) (given : Given) (entries : List (String × String))
    (operands words : List String) (next : Given) : Prop where
  ready : Ready command next
  entries : next.entries = given.entries ++ entries
  operand : next.operand.toList = given.operand.toList ++ operands
  rest : ∀ rest, readArguments command given false (words ++ rest) =
    readArguments command next false rest

theorem readArguments_move {next : Given} {text : String}
    (moved : move command given text = .ok (.on next)) (rest : List String) :
    readArguments command given false (text :: rest) = readArguments command next false rest := by
  rw [readArguments_cons, moved]
  rfl

theorem append_no_attachment (call : String) :
    call.toList = call.toList ++ attachment none :=
  (List.append_nil _).symm

theorem took_whole {option : OptionSpec} {value text : String}
    (moved : move command given text =
      .ok (.on ⟨given.entries ++ [(option.name, value)], given.operand, none⟩)) :
    Took command given [(option.name, value)] [] [text]
      ⟨given.entries ++ [(option.name, value)], given.operand, none⟩ where
  ready := ready_settled _ _
  entries := List.append_nil _
  operand := (List.append_nil _).symm
  rest := readArguments_move moved

theorem exists_took_option (legible : Legible command) (ready : Ready command given)
    {option : OptionSpec} (member : option ∈ command.options) {value : String}
    {words : List String} (spelled : Spells option value words)
    (allowed : Allowed command (given.entries ++ [(option.name, value)])) :
    ∃ next, Took command given [(option.name, value)] [] words next := by
  have settled := settle_of_ready ready allowed
  have admits := admits_of_allowed allowed member
  cases spelled with
  | @flag call bare calls =>
    have moved : move command given call =
        .ok (.on ⟨given.entries ++ [(option.name, "")], given.operand, none⟩) := by
      rw [move_call legible member calls (append_no_attachment call),
        readOption_flag settled bare admits]
      rfl
    exact ⟨_, took_whole moved⟩
  | @attached call _ takes calls =>
    have shape : (call ++ "=" ++ value).toList = call.toList ++ attachment (some value) := by
      simp [attachment]
    have moved : move command given (call ++ "=" ++ value) =
        .ok (.on ⟨given.entries ++ [(option.name, value)], given.operand, none⟩) := by
      rw [move_call legible member calls shape, readOption_attached settled takes admits]
      rfl
    exact ⟨_, took_whole moved⟩
  | @joined letter first chars takes short plain =>
    have shape : ("-" ++ letter.toString ++ String.ofList (first :: chars)).toList =
        '-' :: letter :: first :: chars := by
      simp [Char.toString]
    have moved : move command given ("-" ++ letter.toString ++ String.ofList (first :: chars)) =
        .ok (.on ⟨given.entries ++ [(option.name, String.ofList (first :: chars))],
          given.operand, none⟩) := by
      rw [move_joined legible member short plain shape, readOption_attached settled takes admits]
      rfl
    exact ⟨_, took_whole moved⟩
  | @apart call _ takes calls stands =>
    have begun : move command given call =
        .ok (.on ⟨given.entries, given.operand, some ⟨option, none⟩⟩) := by
      rw [move_call legible member calls (append_no_attachment call),
        readOption_begun settled takes]
      rfl
    have moved : move command ⟨given.entries, given.operand, some ⟨option, none⟩⟩ value =
        .ok (.on ⟨given.entries, given.operand, some ⟨option, some value⟩⟩) :=
      move_value rfl stands
    refine ⟨⟨given.entries, given.operand, some ⟨option, some value⟩⟩,
      ⟨rfl, fun pending there => ?_⟩, rfl, (List.append_nil _).symm, fun rest => ?_⟩
    · cases there
      exact member
    · exact (readArguments_move begun _).trans (readArguments_move moved rest)

theorem exists_took (legible : Legible command) (ready : Ready command given) {part : Part}
    (fits : Fits command part) (allowed : Allowed command (given.entries ++ part.entries))
    (single : (given.operand.toList ++ part.operands).length ≤ 1) :
    ∃ next, Took command given part.entries part.operands part.words next := by
  cases fits with
  | option member named spelled =>
    subst named
    exact exists_took_option legible ready member spelled allowed
  | @operand text takes stands =>
    have settled := settle_of_ready ready allowed
    have free : given.operand = none := by
      cases operand : given.operand with
      | none => rfl
      | some other =>
        rw [operand] at single
        simp [Part.operands] at single
    have moved : move command given text = .ok (.on ⟨given.entries, some text, none⟩) := by
      rw [move_operand legible ready.idle takes stands]
      unfold readOperand
      rw [takes, free, settled]
      rfl
    refine ⟨_, ready_settled _ _, rfl, ?_, readArguments_move moved⟩
    rw [free]
    rfl

theorem allowed_of_append {before after : List (String × String)}
    (allowed : Allowed command (before ++ after)) : Allowed command before where
  known entry member := allowed.known entry (List.mem_append_left _ member)
  faultless option member value given := by
    refine allowed.faultless option member value ?_
    rw [valuesOf_append]
    exact List.mem_append_left _ given
  single option member once := by
    have few := allowed.single option member once
    rw [valuesOf_append, List.length_append] at few
    omega

theorem exists_took_all (legible : Legible command) {parts : List Part}
    (ready : Ready command given) (fits : ∀ part ∈ parts, Fits command part)
    (allowed : Allowed command (given.entries ++ parts.flatMap Part.entries))
    (single : (given.operand.toList ++ parts.flatMap Part.operands).length ≤ 1) :
    ∃ next, Took command given (parts.flatMap Part.entries) (parts.flatMap Part.operands)
      (parts.flatMap Part.words) next := by
  induction parts generalizing given with
  | nil => exact ⟨given, ready, (List.append_nil _).symm, (List.append_nil _).symm, fun _ => rfl⟩
  | cons part parts ih =>
    rw [List.flatMap_cons, ← List.append_assoc] at allowed single
    obtain ⟨between, first⟩ := exists_took legible ready (fits part List.mem_cons_self)
      (allowed_of_append allowed) (by rw [List.length_append] at single; omega)
    rw [← first.entries] at allowed
    rw [← first.operand] at single
    obtain ⟨next, later⟩ := ih first.ready
      (fun other member => fits other (List.mem_cons_of_mem _ member)) allowed single
    refine ⟨next, later.ready, ?_, ?_, fun rest => ?_⟩
    · rw [later.entries, first.entries, List.flatMap_cons, List.append_assoc]
    · rw [later.operand, first.operand, List.flatMap_cons, List.append_assoc]
    · rw [List.flatMap_cons, List.append_assoc, first.rest, later.rest]

end Parts

/-! ### Parts that were read -/

def Stop.words : Stop → List String
  | done => []
  | subcommand command rest => command.name :: rest
  | help rest => helpName :: rest

section Reading

variable {command : Command} {given next : Given} {stop : Stop}

structure Composed (command : Command) (entries : List (String × String))
    (operand : Option String) (arguments : List String) (next : Given) (stop : Stop)
    (parts : List Part) : Prop where
  fits : ∀ part ∈ parts, Fits command part
  words : arguments = parts.flatMap Part.words ++ stop.words
  entries : next.entries = entries ++ parts.flatMap Part.entries
  operand : next.operand.toList = operand.toList ++ parts.flatMap Part.operands

theorem Composed.cons {part : Part} {parts : List Part} {entries : List (String × String)}
    {operand before : Option String} {rest arguments : List String} (fits : Fits command part)
    (composed : Composed command (entries ++ part.entries) operand rest next stop parts)
    (first : operand.toList = before.toList ++ part.operands)
    (words : arguments = part.words ++ rest) :
    Composed command entries before arguments next stop (part :: parts) where
  fits := List.forall_mem_cons.2 ⟨fits, composed.fits⟩
  words := by rw [words, composed.words, List.flatMap_cons, List.append_assoc]
  entries := by rw [composed.entries, List.flatMap_cons, List.append_assoc]
  operand := by rw [composed.operand, first, List.flatMap_cons, List.append_assoc]

/-- What the arguments are made of, after what was given: parts from there on, or first the value
that is still to come. -/
structure Remains (command : Command) (given : Given) (arguments : List String) (next : Given)
    (stop : Stop) : Prop where
  idle : given.awaitsValue = false →
    ∃ parts, Composed command given.entries given.operand arguments next stop parts
  waits : ∀ option, given.pending = some ⟨option, none⟩ →
    ∃ value rest parts, arguments = value :: rest ∧ StandsApart value ∧
      Composed command (given.options ++ [(option.name, value)]) given.operand rest next stop parts

theorem remains_at_stop (idle : given.awaitsValue = false) {arguments : List String}
    (words : arguments = stop.words) : Remains command given arguments given stop where
  idle _ := ⟨[], {
    fits := fun _ member => nomatch member
    words := words
    entries := (List.append_nil _).symm
    operand := (List.append_nil _).symm }⟩
  waits option waiting := by
    unfold Given.awaitsValue at idle
    rw [waiting] at idle
    cases idle

theorem remains_of_advances {between : Given} {text : String} {rest : List String}
    (advances : Advances command given text between)
    (remains : Remains command between rest next stop) :
    Remains command given (text :: rest) next stop := by
  have refused : given.awaitsValue = false → ∀ option, given.pending ≠ some ⟨option, none⟩ := by
    intro idle option waiting
    unfold Given.awaitsValue at idle
    rw [waiting] at idle
    cases idle
  cases advances with
  | @value option waits stands =>
    refine ⟨fun idle => absurd waits (refused idle option), fun other waiting => ?_⟩
    cases waits.symm.trans waiting
    obtain ⟨parts, composed⟩ := remains.idle rfl
    exact ⟨text, rest, parts, rfl, stands, composed⟩
  | whole idle member spelled =>
    refine ⟨fun _ => ?_, fun other waiting => absurd waiting (refused idle other)⟩
    obtain ⟨parts, composed⟩ := remains.idle rfl
    rw [show Given.entries ⟨_, _, none⟩ = _ from List.append_nil _] at composed
    exact ⟨_, composed.cons (.option member rfl spelled) (List.append_nil _).symm rfl⟩
  | begun idle member takes calls =>
    refine ⟨fun _ => ?_, fun other waiting => absurd waiting (refused idle other)⟩
    obtain ⟨value, later, parts, rfl, stands, composed⟩ := remains.waits _ rfl
    exact ⟨_, composed.cons (.option member rfl (.apart takes calls stands))
      (List.append_nil _).symm rfl⟩
  | operand idle takes free stands =>
    refine ⟨fun _ => ?_, fun other waiting => absurd waiting (refused idle other)⟩
    obtain ⟨parts, composed⟩ := remains.idle rfl
    rw [show Given.entries ⟨_, _, none⟩ = _ from List.append_nil _,
      ← List.append_nil given.entries] at composed
    exact ⟨_, composed.cons (.operand takes stands) (by rw [free]; rfl) rfl⟩

/-- What is read before the end of a command's arguments are parts that fit it. -/
theorem remains_of_read (legible : Legible command) {arguments : List String}
    (undashed : "--" ∉ arguments) (idle : next.awaitsValue = false)
    (done : readArguments command given false arguments = .ok (next, stop)) :
    Remains command given arguments next stop := by
  induction arguments generalizing given with
  | nil =>
    cases done
    exact remains_at_stop idle rfl
  | cons text rest ih =>
    rw [List.mem_cons, not_or] at undashed
    rw [readArguments_cons] at done
    obtain ⟨made, moved, follows⟩ := bind_eq_ok done
    cases moves_of_move legible moved with
    | on advances => exact remains_of_advances advances (ih undashed.2 follows)
    | dashes two => exact absurd two.symm undashed.1
    | subcommand _ _ named =>
      cases follows
      exact remains_at_stop idle (by rw [← named]; rfl)
    | help _ named =>
      cases follows
      exact remains_at_stop idle (by rw [named]; rfl)

end Reading

/-! ### Whole command lines -/

/-- What one command is given on a command line. -/
structure Segment where
  name : String
  parts : List Part

namespace Segment

def words (segment : Segment) : List String :=
  segment.parts.flatMap Part.words

def entries (segment : Segment) : List (String × String) :=
  segment.parts.flatMap Part.entries

def operands (segment : Segment) : List String :=
  segment.parts.flatMap Part.operands

def input (segment : Segment) : CommandInput :=
  ⟨segment.name, segment.entries, segment.operands.head?⟩

end Segment

/-- The arguments of a command line: the name of the outermost command is not among them. -/
def layoutWords : List Segment → List String
  | [] => []
  | outermost :: inner =>
    outermost.words ++ inner.flatMap (fun segment => segment.name :: segment.words)

structure Suits (command : Command) (segment : Segment) : Prop where
  name : segment.name = command.name
  fits : ∀ part ∈ segment.parts, Fits command part
  allowed : Allowed command segment.entries
  single : segment.operands.length ≤ 1

structure Fills (command : Command) (segment : Segment) : Prop where
  needed : ∀ option ∈ command.options, option.needed = true →
    valuesOf segment.entries option.name ≠ []
  operand : command.operand = true → segment.operands ≠ []

/-- The segments are a command line of the command: what it and its subcommands are given, from the
outermost to the innermost, which needs nothing more. -/
inductive Lays : Command → List Segment → Prop
  | last {command : Command} {segment : Segment} (none : command.subcommands = [])
      (suits : Suits command segment) (fills : Fills command segment) : Lays command [segment]
  | onward {command subcommand : Command} {segment : Segment} {inner : List Segment}
      (member : subcommand ∈ command.subcommands) (suits : Suits command segment)
      (rest : Lays subcommand inner) : Lays command (segment :: inner)

section Lines

variable {command : Command} {layout : List Segment} {preset : Bool} {fuel : Nat}

theorem Lays.exists_head (lays : Lays command layout) :
    ∃ segment inner, layout = segment :: inner ∧ segment.name = command.name := by
  cases lays with
  | last _ suits _ => exact ⟨_, _, rfl, suits.name⟩
  | onward _ suits _ => exact ⟨_, _, rfl, suits.name⟩

theorem layoutWords_onward (outermost segment : Segment) (inner : List Segment) :
    layoutWords (outermost :: segment :: inner) =
      outermost.words ++ segment.name :: layoutWords (segment :: inner) := by
  simp [layoutWords]

theorem exists_took_segment (legible : Legible command) {segment : Segment}
    (suits : Suits command segment) :
    ∃ next, Took command .nothing segment.entries segment.operands segment.words next ∧
      next.settle = .ok ⟨segment.entries, segment.operands.head?, none⟩ := by
  obtain ⟨next, took⟩ := exists_took_all legible (ready_settled [] none) suits.fits suits.allowed
    suits.single
  refine ⟨next, took, ?_⟩
  have entries : next.entries = segment.entries := took.entries
  have operand : next.operand = segment.operands.head? := by
    have listed : next.operand.toList = segment.operands := took.operand
    rw [← listed, Option.head?_toList]
  have allowed : Allowed command (next.entries ++ []) := by
    rw [List.append_nil, entries]
    exact suits.allowed
  rw [← entries, ← operand]
  exact settle_of_ready took.ready allowed

theorem check_of_fills {segment : Segment} (none : command.subcommands = [])
    (fills : Fills command segment) (preset : Bool) :
    checkComplete command ⟨segment.entries, segment.operands.head?, .none⟩ preset = .ok () := by
  have options : command.options.any (fun option => option.needed &&
      !Given.has ⟨segment.entries, segment.operands.head?, .none⟩ option.name) = false := by
    rw [List.any_eq_false]
    intro option member missing
    rw [Bool.and_eq_true, Bool.not_eq_true'] at missing
    exact fills.needed option member missing.1 ((has_eq_false_iff _ _).1 missing.2)
  have operand : (command.operand && segment.operands.head?.isNone) = false := by
    cases takes : command.operand with
    | false => rfl
    | true =>
      obtain ⟨text, rest, given⟩ := List.exists_cons_of_ne_nil (fills.operand takes)
      rw [given]
      rfl
  unfold checkComplete
  rw [none, options, operand]
  rfl

theorem readArguments_subcommand (legible : Legible command) {given : Given}
    (idle : given.awaitsValue = false) {subcommand : Command}
    (member : subcommand ∈ command.subcommands) (rest : List String) :
    readArguments command given false (subcommand.name :: rest) =
      .ok (given, .subcommand subcommand rest) := by
  have found : command.subcommand? subcommand.name = some subcommand :=
    find?_of_unique member rfl fun _ inside named =>
      List.inj_on_of_nodup_map legible.subcommands inside member named
  have moved : move command given subcommand.name = .ok (.subcommand subcommand) := by
    unfold move
    simp only [idle, Bool.false_eq_true, if_false, found]
  rw [readArguments_cons, moved]
  rfl

/-- A command line that is laid out is read. -/
theorem readCommand_of_lays (legible : Throughout Legible command) (lays : Lays command layout)
    (enough : layout.length ≤ fuel) :
    readCommand command preset (layoutWords layout) fuel = .ok (layout.map Segment.input) := by
  induction lays generalizing fuel with
  | @last command segment none suits fills =>
    obtain ⟨legible, -⟩ := legible
    obtain ⟨fuel, rfl⟩ := Nat.exists_eq_succ_of_ne_zero (Nat.ne_zero_of_lt enough)
    obtain ⟨next, took, settled⟩ := exists_took_segment legible suits
    have read : readArguments command .nothing false (layoutWords [segment]) = .ok (next, .done) :=
      took.rest []
    unfold readCommand
    rw [read]
    simp only [bind, Except.bind, settled, check_of_fills none fills]
    rw [← suits.name]
    rfl
  | @onward command subcommand segment inner member suits rest ih =>
    obtain ⟨legible, below⟩ := legible
    obtain ⟨fuel, rfl⟩ := Nat.exists_eq_succ_of_ne_zero (Nat.ne_zero_of_lt enough)
    obtain ⟨next, took, settled⟩ := exists_took_segment legible suits
    obtain ⟨first, others, rfl, named⟩ := rest.exists_head
    have read : readArguments command .nothing false (layoutWords (segment :: first :: others)) =
        .ok (next, .subcommand subcommand (layoutWords (first :: others))) := by
      rw [layoutWords_onward, took.rest, named]
      exact readArguments_subcommand legible took.ready.idle member _
    have inner := ih (below subcommand member) (Nat.le_of_succ_le_succ enough)
    unfold readCommand
    rw [read]
    simp only [bind, Except.bind, settled, inner]
    rw [← suits.name]
    rfl

theorem suits_of_composed {next settled : Given} {stop : Stop} {arguments : List String}
    {parts : List Part} (composed : Composed command [] none arguments next stop parts)
    (settles : next.settle = .ok settled) (sound : Sound command settled) :
    Suits command ⟨command.name, parts⟩ ∧
      Segment.input ⟨command.name, parts⟩ = ⟨command.name, settled.options, settled.operand⟩ := by
  obtain ⟨-, -, rfl⟩ := settle_eq_ok_iff.1 settles
  have entries : next.entries = Segment.entries ⟨command.name, parts⟩ := composed.entries
  have operand : next.operand.toList = Segment.operands ⟨command.name, parts⟩ := composed.operand
  refine ⟨⟨rfl, composed.fits, ?_, ?_⟩, ?_⟩
  · rw [← entries]
    exact sound.allowed
  · rw [← operand]
    cases next.operand <;> simp
  · unfold Segment.input
    rw [← entries, ← operand, Option.head?_toList]

theorem exists_suits (legible : Legible command) {arguments : List String}
    (undashed : "--" ∉ arguments) {next settled : Given} {stop : Stop}
    (reads : readArguments command .nothing false arguments = .ok (next, stop))
    (settles : next.settle = .ok settled) :
    ∃ segment, Suits command segment ∧ arguments = segment.words ++ stop.words ∧
      segment.input = ⟨command.name, settled.options, settled.operand⟩ ∧
      Sound command settled := by
  obtain ⟨sound, -⟩ := readArguments_sound legible.names (sound_nothing command) reads
  have settledSound := settle_keeps legible.names next settled sound settles
  obtain ⟨idle, -, -⟩ := settle_eq_ok_iff.1 settles
  obtain ⟨parts, composed⟩ := (remains_of_read legible undashed idle reads).idle rfl
  obtain ⟨suits, input⟩ := suits_of_composed composed settles settledSound
  exact ⟨_, suits, composed.words, input, settledSound⟩

theorem fills_of_complete {segment : Segment} (complete : Complete command segment.input) :
    Fills command segment := by
  refine ⟨complete.needed, fun takes empty => ?_⟩
  have operand := complete.operand
  rw [takes] at operand
  unfold Segment.input at operand
  rw [empty] at operand
  cases operand

/-- A command line that is read is laid out, unless two lone dashes are among its arguments. -/
theorem exists_lays (legible : Throughout Legible command) {arguments : List String}
    (undashed : "--" ∉ arguments) {inputs : List CommandInput}
    (accepted : readCommand command preset arguments fuel = .ok inputs) :
    ∃ layout, Lays command layout ∧ layoutWords layout = arguments ∧
      layout.map Segment.input = inputs := by
  induction fuel generalizing command arguments inputs with
  | zero => cases accepted
  | succ fuel ih =>
    obtain ⟨legible, below⟩ := legible
    obtain ⟨⟨next, stop⟩, reads, accepted⟩ := bind_eq_ok accepted
    cases stop with
    | help names => cases accepted
    | subcommand subcommand rest =>
      obtain ⟨inner, innerRead, accepted⟩ := bind_eq_ok accepted
      obtain ⟨settled, settles, accepted⟩ := bind_eq_ok accepted
      cases accepted
      obtain ⟨segment, suits, split, given, -⟩ := exists_suits legible undashed reads settles
      obtain ⟨-, within⟩ := readArguments_sound legible.names (sound_nothing command) reads
      have member := within subcommand rest rfl
      have undashed : "--" ∉ rest := by
        rw [split] at undashed
        exact fun inside => undashed (List.mem_append_right _ (List.mem_cons_of_mem _ inside))
      obtain ⟨layout, lays, words, inputs⟩ := ih (below subcommand member) undashed innerRead
      obtain ⟨first, others, rfl, named⟩ := lays.exists_head
      refine ⟨segment :: first :: others, .onward member suits lays, ?_, ?_⟩
      · rw [layoutWords_onward, words, named, split]
        rfl
      · rw [List.map_cons, given, inputs]
    | done =>
      obtain ⟨settled, settles, accepted⟩ := bind_eq_ok accepted
      obtain ⟨_, checked, accepted⟩ := bind_eq_ok accepted
      cases accepted
      obtain ⟨segment, suits, split, given, sound⟩ := exists_suits legible undashed reads settles
      obtain ⟨none, complete⟩ := complete_of_check sound checked
      rw [← given] at complete
      refine ⟨[segment], .last none suits (fills_of_complete complete), split.symm, ?_⟩
      rw [← given]
      rfl

end Lines

theorem length_le_layoutWords (layout : List Segment) :
    layout.length ≤ (layoutWords layout).length + 1 := by
  cases layout with
  | nil => exact Nat.zero_le _
  | cons outermost inner =>
    have names : inner.length ≤
        (inner.flatMap (fun segment => segment.name :: segment.words)).length := by
      induction inner with
      | nil => exact Nat.zero_le _
      | cons segment inner ih =>
        rw [List.flatMap_cons, List.length_append, List.length_cons, List.length_cons]
        omega
    rw [layoutWords, List.length_cons, List.length_append]
    omega

theorem read_eq_ok_iff {preset : Bool} {arguments : List String} (undashed : "--" ∉ arguments)
    {inputs : List CommandInput} :
    read program preset arguments = .ok inputs ↔
      ∃ layout, Lays program layout ∧ layoutWords layout = arguments ∧
        layout.map Segment.input = inputs := by
  constructor
  · exact exists_lays program_legible undashed
  · rintro ⟨layout, lays, rfl, rfl⟩
    exact readCommand_of_lays program_legible lays (length_le_layoutWords layout)

end ApiManifest.CommandLine
