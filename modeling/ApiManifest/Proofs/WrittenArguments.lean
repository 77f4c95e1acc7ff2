import ApiManifest.Proofs.ArgumentReading

/-!
What stands on a command line for one command. An option is written by its name or by its letter,
with its value in the same argument or in the next, and an operand is an argument of its own. Read
one after the other, these give just what they say, and nothing else is read.
-/

namespace ApiManifest.CommandLine

open Resolution (bind_eq_ok)

/-- The text is no option when it is an argument of its own: it begins with no dash, or is just
one. -/
def StandsApart (text : String) : Prop :=
  ∀ rest, text.toList = '-' :: rest → rest = []

inductive Calls (option : OptionSpec) : String → Prop
  | name : Calls option ("--" ++ option.name)
  | letter {letter : Char} (short : option.short = some letter) :
      Calls option ("-" ++ letter.toString)

inductive Spells (option : OptionSpec) : String → List String → Prop
  | flag {call : String} (bare : option.takesValue = false) (calls : Calls option call) :
      Spells option "" [call]
  | attached {call value : String} (takes : option.takesValue = true)
      (calls : Calls option call) : Spells option value [call ++ "=" ++ value]
  | joined {letter first : Char} {rest : List Char} (takes : option.takesValue = true)
      (short : option.short = some letter) (plain : first ≠ '=') :
      Spells option (String.ofList (first :: rest))
        ["-" ++ letter.toString ++ String.ofList (first :: rest)]
  | apart {call value : String} (takes : option.takesValue = true) (calls : Calls option call)
      (stands : StandsApart value) : Spells option value [call, value]

/-- One thing that is given to a command: an option with its value and with the arguments that it is
written in, or an operand. -/
inductive Part where
  | option (name value : String) (words : List String)
  | operand (text : String)
  deriving DecidableEq

namespace Part

def words : Part → List String
  | option _ _ words => words
  | operand text => [text]

def entries : Part → List (String × String)
  | option name value _ => [(name, value)]
  | operand _ => []

def operands : Part → List String
  | option .. => []
  | operand text => [text]

end Part

inductive Fits (command : Command) : Part → Prop
  | option {option : OptionSpec} {name value : String} {words : List String}
      (member : option ∈ command.options) (named : option.name = name)
      (spelled : Spells option value words) : Fits command (.option name value words)
  | operand {text : String} (takes : command.operand = true) (stands : StandsApart text) :
      Fits command (.operand text)

/-! ### What one argument does -/

namespace Given

/-- The options with their values, the pending one included if its value has come. -/
def entries (given : Given) : List (String × String) :=
  given.options ++ (match given.pending with
    | some ⟨option, some value⟩ => [(option.name, value)]
    | _ => [])

end Given

def Admits (options : List (String × String)) (option : OptionSpec) (value : String) : Prop :=
  (option.many = false → valuesOf options option.name = []) ∧ option.fault value = none

theorem take_eq_ok_iff {given next : Given} {option : OptionSpec} {value : String} :
    given.take option value = .ok next ↔ Admits given.options option value ∧
      next = { given with options := given.options ++ [(option.name, value)] } := by
  unfold Given.take Admits
  rw [← has_eq_false_iff]
  cases option.many <;> cases given.has option.name <;> cases option.fault value <;>
    simp [eq_comm]

theorem settle_eq_ok_iff {given settled : Given} :
    given.settle = .ok settled ↔ given.awaitsValue = false ∧
      (∀ option value, given.pending = some ⟨option, some value⟩ →
        Admits given.options option value) ∧
      settled = ⟨given.entries, given.operand, none⟩ := by
  obtain ⟨options, operand, pending⟩ := given
  unfold Given.settle Given.awaitsValue Given.entries
  match pending with
  | none => simp [eq_comm]
  | some ⟨option, none⟩ => simp
  | some ⟨option, some value⟩ =>
    simp only [take_eq_ok_iff]
    simp

/-! ### Arguments that begin with a dash -/

section Dashes

variable {command : Command} {given next : Given} {text : String}

inductive OptionRead (given : Given) (option : OptionSpec) : Option String → Given → Prop
  | attached {value : String} (takes : option.takesValue = true) :
      OptionRead given option (some value)
        ⟨given.entries ++ [(option.name, value)], given.operand, none⟩
  | begun (takes : option.takesValue = true) :
      OptionRead given option none ⟨given.entries, given.operand, some ⟨option, none⟩⟩
  | flag (bare : option.takesValue = false) :
      OptionRead given option none ⟨given.entries ++ [(option.name, "")], given.operand, none⟩

theorem optionRead_of_ok {option : OptionSpec} {attached : Option String}
    (done : readOption given option attached = .ok next) :
    given.awaitsValue = false ∧ OptionRead given option attached next := by
  unfold readOption at done
  split at done
  next takes =>
    obtain ⟨settled, finished, taken⟩ := bind_eq_ok done
    obtain ⟨idle, -, rfl⟩ := settle_eq_ok_iff.1 finished
    obtain ⟨-, rfl⟩ := take_eq_ok_iff.1 taken
    exact ⟨idle, .attached takes⟩
  next takes =>
    obtain ⟨settled, finished, made⟩ := bind_eq_ok done
    obtain ⟨idle, -, rfl⟩ := settle_eq_ok_iff.1 finished
    cases made
    exact ⟨idle, .begun takes⟩
  next => cases done
  next bare =>
    obtain ⟨settled, finished, taken⟩ := bind_eq_ok done
    obtain ⟨idle, -, rfl⟩ := settle_eq_ok_iff.1 finished
    obtain ⟨-, rfl⟩ := take_eq_ok_iff.1 taken
    exact ⟨idle, .flag bare⟩

def attachment : Option String → List Char
  | some value => '=' :: value.toList
  | none => []

theorem readLong_cases {long : List Char} (done : readLong command given long = .ok next) :
    ∃ option ∈ command.options, ∃ attached, given.awaitsValue = false ∧
      OptionRead given option attached next ∧ long = option.name.toList ++ attachment attached := by
  unfold readLong at done
  extract_lets name attached at done
  have whole : long = name.toList ++ attachment attached := by
    have parts := (List.takeWhile_append_dropWhile (p := (· ≠ '=')) (l := long)).symm
    have mark := List.head?_dropWhile_not (· ≠ '=') long
    unfold name attached
    rw [String.toList_ofList]
    split
    next first value rest =>
      rw [rest] at parts mark
      have equals : first = '=' := by simpa using mark
      rw [equals] at parts
      rw [attachment, String.toList_ofList]
      exact parts
    next rest =>
      rw [rest] at parts
      exact parts
  clear_value name attached
  split at done
  next =>
    split at done
    · cases done
    next =>
      obtain ⟨_, _, impossible⟩ := bind_eq_ok done
      cases impossible
  next =>
    split at done
    next option found =>
      obtain ⟨idle, read⟩ := optionRead_of_ok done
      have named : option.name = name := by simpa using List.find?_some found
      rw [← named] at whole
      exact ⟨option, List.mem_of_find?_eq_some found, attached, idle, read, whole⟩
    next => cases done

/-- What the letters of an argument give: an option by its letter, and what follows is its value. -/
inductive Lettered (option : OptionSpec) : List Char → Option String → Prop
  | alone {letter : Char} (short : option.short = some letter) : Lettered option [letter] none
  | attached {letter : Char} (short : option.short = some letter) (value : List Char) :
      Lettered option (letter :: '=' :: value) (some (String.ofList value))
  | joined {letter first : Char} (short : option.short = some letter) (plain : first ≠ '=')
      (rest : List Char) :
      Lettered option (letter :: first :: rest) (some (String.ofList (first :: rest)))

theorem readShort_cases (legible : Legible command) {letter : Char} {letters : List Char}
    (done : readShort command given (letter :: letters) = .ok next) :
    ∃ option ∈ command.options, ∃ attached, given.awaitsValue = false ∧
      OptionRead given option attached next ∧ Lettered option (letter :: letters) attached := by
  unfold readShort at done
  split at done
  next =>
    obtain ⟨_, _, impossible⟩ := bind_eq_ok done
    cases impossible
  next =>
    split at done
    next => cases done
    next option found =>
      have member := List.mem_of_find?_eq_some found
      have short : option.short = some letter := by simpa using List.find?_some found
      have takes : option.takesValue = true := (legible.letters option member letter short).2.2
      rw [if_pos takes] at done
      split at done
      next =>
        obtain ⟨idle, read⟩ := optionRead_of_ok done
        exact ⟨option, member, _, idle, read, .alone short⟩
      next value =>
        obtain ⟨idle, read⟩ := optionRead_of_ok done
        exact ⟨option, member, _, idle, read, .attached short value⟩
      next notEmpty notEquals =>
        obtain ⟨idle, read⟩ := optionRead_of_ok done
        cases letters with
        | nil => exact absurd rfl notEmpty
        | cons first rest =>
          have plain : first ≠ '=' := by
            rintro rfl
            exact notEquals rest rfl
          exact ⟨option, member, _, idle, read, .joined short plain rest⟩

inductive Advances (command : Command) (given : Given) (text : String) : Given → Prop
  | value {option : OptionSpec} (waits : given.pending = some ⟨option, none⟩)
      (stands : StandsApart text) :
      Advances command given text ⟨given.options, given.operand, some ⟨option, some text⟩⟩
  | whole {option : OptionSpec} {value : String} (idle : given.awaitsValue = false)
      (member : option ∈ command.options) (spelled : Spells option value [text]) :
      Advances command given text
        ⟨given.entries ++ [(option.name, value)], given.operand, none⟩
  | begun {option : OptionSpec} (idle : given.awaitsValue = false)
      (member : option ∈ command.options) (takes : option.takesValue = true)
      (calls : Calls option text) :
      Advances command given text ⟨given.entries, given.operand, some ⟨option, none⟩⟩
  | operand (idle : given.awaitsValue = false) (takes : command.operand = true)
      (free : given.operand = none) (stands : StandsApart text) :
      Advances command given text ⟨given.entries, some text, none⟩

theorem advances_of_call {option : OptionSpec} {attached : Option String} {call : String}
    (idle : given.awaitsValue = false) (member : option ∈ command.options)
    (calls : Calls option call) (read : OptionRead given option attached next)
    (whole : text.toList = call.toList ++ attachment attached) :
    Advances command given text next := by
  cases read with
  | @attached value takes =>
    have written : text = call ++ "=" ++ value := by
      rw [← String.toList_inj, whole]
      simp [attachment]
    rw [written]
    exact .whole idle member (.attached takes calls)
  | begun takes =>
    have written : text = call := by
      rw [← String.toList_inj, whole, attachment, List.append_nil]
    rw [written]
    exact .begun idle member takes calls
  | flag bare =>
    have written : text = call := by
      rw [← String.toList_inj, whole, attachment, List.append_nil]
    rw [written]
    exact .whole idle member (.flag bare calls)

theorem advances_of_letters (legible : Legible command) {option : OptionSpec}
    {attached : Option String} {letters : List Char} (idle : given.awaitsValue = false)
    (member : option ∈ command.options) (lettered : Lettered option letters attached)
    (read : OptionRead given option attached next) (whole : text.toList = '-' :: letters) :
    Advances command given text next := by
  cases lettered with
  | @alone letter short =>
    refine advances_of_call idle member (.letter short) read ?_
    rw [whole]
    simp [attachment, Char.toString]
  | @attached letter short value =>
    refine advances_of_call idle member (.letter short) read ?_
    rw [whole]
    simp [attachment, Char.toString]
  | @joined letter first short plain rest =>
    have takes : option.takesValue = true := (legible.letters option member letter short).2.2
    have written : text = "-" ++ letter.toString ++ String.ofList (first :: rest) := by
      rw [← String.toList_inj, whole]
      simp [Char.toString]
    cases read with
    | attached =>
      rw [written]
      exact .whole idle member (.joined takes short plain)

inductive Moves (command : Command) (given : Given) (text : String) : Move → Prop
  | on {next : Given} (advances : Advances command given text next) :
      Moves command given text (.on next)
  | dashes (two : text = "--") : Moves command given text .dashes
  | subcommand {subcommand : Command} (idle : given.awaitsValue = false)
      (member : subcommand ∈ command.subcommands) (named : subcommand.name = text) :
      Moves command given text (.subcommand subcommand)
  | help (idle : given.awaitsValue = false) (named : text = helpName) :
      Moves command given text .help

theorem advances_of_value (waits : given.awaitsValue = true) (stands : StandsApart text) :
    Advances command given text (given.giveValue text) := by
  obtain ⟨options, operand, pending⟩ := given
  match pending with
  | none => cases waits
  | some ⟨option, none⟩ => exact .value rfl stands
  | some ⟨option, some value⟩ => cases waits

theorem advances_of_operand (stands : StandsApart text)
    (done : readOperand command given false text = .ok next) :
    Advances command given text next := by
  unfold readOperand at done
  split at done
  next free =>
    obtain ⟨settled, finished, made⟩ := bind_eq_ok done
    obtain ⟨idle, -, rfl⟩ := settle_eq_ok_iff.1 finished
    cases made
    obtain ⟨takes, free⟩ := Bool.and_eq_true_iff.1 free
    exact .operand idle takes (Option.isNone_iff_eq_none.1 free) stands
  next =>
    split at done
    · cases done
    · split at done <;> cases done

/-- Every move is made by one of these arguments. -/
theorem moves_of_move (legible : Legible command) {made : Move}
    (moved : move command given text = .ok made) : Moves command given text made := by
  unfold move at moved
  split at moved
  next subcommand found =>
    cases moved
    split at found
    · cases found
    next idle =>
      have named : subcommand.name = text := by simpa using List.find?_some found
      exact .subcommand (by simpa using idle) (List.mem_of_find?_eq_some found) named
  split at moved
  next help =>
    cases moved
    simp only [Bool.and_eq_true, Bool.not_eq_true', decide_eq_true_eq] at help
    exact .help help.1.1 help.1.2
  split at moved
  next two =>
    cases moved
    exact .dashes (String.toList_inj.1 two)
  next long _ shape =>
    obtain ⟨_, done, same⟩ := bind_eq_ok moved
    cases same
    obtain ⟨option, member, attached, idle, read, whole⟩ := readLong_cases done
    refine .on (advances_of_call idle member .name read ?_)
    rw [shape, whole]
    simp
  next letter letters _ _ shape =>
    obtain ⟨_, done, same⟩ := bind_eq_ok moved
    cases same
    obtain ⟨option, member, attached, idle, read, lettered⟩ := readShort_cases legible done
    exact .on (advances_of_letters legible idle member lettered read shape)
  next notShort =>
    have stands : StandsApart text := by
      intro rest shape
      cases rest with
      | nil => rfl
      | cons letter letters => exact absurd shape (notShort letter letters)
    split at moved
    next waits =>
      cases moved
      exact .on (advances_of_value waits stands)
    next =>
      obtain ⟨_, done, same⟩ := bind_eq_ok moved
      cases same
      exact .on (advances_of_operand stands done)

theorem subcommand?_of_dash (legible : Legible command) (dash : text.toList.head? = some '-') :
    command.subcommand? text = none := by
  refine List.find?_eq_none.2 fun subcommand member named => ?_
  have same : subcommand.name = text := by simpa using named
  exact legible.undashed subcommand member (same ▸ dash)

theorem not_help_of_dash (dash : text.toList.head? = some '-') : text ≠ helpName := by
  rintro rfl
  revert dash
  decide

theorem move_long (legible : Legible command) {long : List Char} (filled : long ≠ [])
    (shape : text.toList = '-' :: '-' :: long) :
    move command given text = do return .on (← readLong command given long) := by
  have dash : text.toList.head? = some '-' := by rw [shape]; rfl
  unfold move
  simp only [subcommand?_of_dash legible dash, ite_self, not_help_of_dash dash, decide_false,
    Bool.and_false, Bool.false_and, Bool.false_eq_true, if_false, shape]

theorem move_short (legible : Legible command) {letter : Char} {letters : List Char}
    (other : letter ≠ '-') (shape : text.toList = '-' :: letter :: letters) :
    move command given text = do return .on (← readShort command given (letter :: letters)) := by
  have dash : text.toList.head? = some '-' := by rw [shape]; rfl
  unfold move
  simp only [subcommand?_of_dash legible dash, ite_self, not_help_of_dash dash, decide_false,
    Bool.and_false, Bool.false_and, Bool.false_eq_true, if_false, shape]
  split
  next two =>
    cases two
    exact absurd rfl other
  next two =>
    cases two
    exact absurd rfl other
  next same =>
    cases same
    rfl
  next notShort => exact absurd rfl (notShort letter letters)

section Calls

variable {option : OptionSpec} (legible : Legible command) (member : option ∈ command.options)

include legible member

theorem find?_name :
    command.options.find? (fun other => other.name = option.name) = some option :=
  find?_of_unique member rfl fun _ inside named =>
    List.inj_on_of_nodup_map legible.names inside member named

theorem find?_letter {letter : Char} (short : option.short = some letter) :
    command.options.find? (fun other => other.short = some letter) = some option := by
  refine find?_of_unique member short fun other inside same => ?_
  have named : other.name = option.name := by
    refine legible.distinct other inside option member (same.trans short.symm) ?_
    rw [same]
    exact Option.some_ne_none letter
  exact List.inj_on_of_nodup_map legible.names inside member named

theorem readLong_name (attached : Option String) :
    readLong command given (option.name.toList ++ attachment attached) =
      readOption given option attached := by
  obtain ⟨_, notHelp, unmarked⟩ := legible.plain option member
  have stays : ∀ c ∈ option.name.toList, decide (c ≠ '=') = true :=
    fun c inside => decide_eq_true fun same => unmarked (same ▸ inside)
  have taken : (option.name.toList ++ attachment attached).takeWhile (· ≠ '=') =
      option.name.toList := by
    cases attached with
    | some value => exact takeWhile_until unmarked value.toList
    | none => rw [attachment, List.append_nil, List.takeWhile_eq_self_iff.2 stays]
  have dropped : (option.name.toList ++ attachment attached).dropWhile (· ≠ '=') =
      attachment attached := by
    cases attached with
    | some value => exact dropWhile_until unmarked value.toList
    | none => rw [attachment, List.append_nil, List.dropWhile_eq_nil_iff.2 stays]
  unfold readLong
  simp only [taken, dropped, String.ofList_toList, if_neg notHelp, find?_name legible member]
  cases attached with
  | some value => simp only [attachment, String.ofList_toList]
  | none => rfl

theorem move_call {call : String} (calls : Calls option call) {attached : Option String}
    (shape : text.toList = call.toList ++ attachment attached) :
    move command given text = do return .on (← readOption given option attached) := by
  cases calls with
  | name =>
    have long : text.toList = '-' :: '-' :: (option.name.toList ++ attachment attached) := by
      rw [shape]
      simp
    have filled : option.name.toList ++ attachment attached ≠ [] := by
      simp [(legible.plain option member).1]
    rw [move_long legible filled long, readLong_name legible member]
  | @letter letter short =>
    obtain ⟨notDash, notHelp, valued⟩ := legible.letters option member letter short
    have lettered : text.toList = '-' :: letter :: attachment attached := by
      rw [shape]
      simp [Char.toString]
    rw [move_short legible notDash lettered]
    unfold readShort
    rw [if_neg notHelp, find?_letter legible member short]
    simp only [if_pos valued]
    cases attached with
    | some value => simp only [attachment, String.ofList_toList]
    | none => rfl

theorem move_joined {letter first : Char} {rest : List Char} (short : option.short = some letter)
    (plain : first ≠ '=') (shape : text.toList = '-' :: letter :: first :: rest) :
    move command given text =
      do return .on (← readOption given option (some (String.ofList (first :: rest)))) := by
  obtain ⟨notDash, notHelp, valued⟩ := legible.letters option member letter short
  rw [move_short legible notDash shape]
  unfold readShort
  rw [if_neg notHelp, find?_letter legible member short]
  simp only [if_pos valued]
  split
  next none => cases none
  next equals =>
    cases equals
    exact absurd rfl plain
  next => rfl

end Calls

end Dashes

end ApiManifest.CommandLine
