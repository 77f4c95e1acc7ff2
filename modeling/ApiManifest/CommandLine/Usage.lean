/-!
The grammar of command lines. Commands have options and either subcommands or at most one operand.
The value of an option may follow in the next argument, and is looked at only when that argument
is done with, so an unknown option after it is noticed first.
-/

namespace ApiManifest.CommandLine

/-- Why a command line is not carried out. Asking for help is no mistake. -/
inductive UsageError where
  | help
  | missingSubcommandHelp
  | missingSubcommand
  | invalidSubcommand
  | unknownArgument
  | missingRequiredArgument
  | invalidValue
  | argumentConflict
  | valueValidation
  | tooManyValues
  deriving DecidableEq

def UsageError.isMistake (error : UsageError) : Bool :=
  error ≠ .help

structure OptionSpec where
  name : String
  short : Option Char
  takesValue : Bool
  /-- Whether it may be given more than once. -/
  many : Bool
  needed : Bool
  /-- What is wrong with a value, if anything is. -/
  fault : String → Option UsageError

/-- A command and its subcommands. -/
inductive Command where
  | mk (name : String) (options : List OptionSpec) (operand : Bool) (subcommands : List Command)

namespace Command

def name : Command → String
  | .mk name .. => name

def options : Command → List OptionSpec
  | .mk _ options .. => options

/-- Whether the command takes an operand, which then is required. -/
def operand : Command → Bool
  | .mk _ _ operand _ => operand

def subcommands : Command → List Command
  | .mk _ _ _ subcommands => subcommands

def subcommand? (command : Command) (name : String) : Option Command :=
  command.subcommands.find? (fun subcommand => subcommand.name = name)

end Command

def helpName : String := "help"

/-- An option whose value may still come. -/
structure Pending where
  option : OptionSpec
  value : Option String

/-- What has been read of the arguments of one command. -/
structure Given where
  /-- Options and their values in the order given; flags have an empty value. -/
  options : List (String × String)
  operand : Option String
  pending : Option Pending

namespace Given

def nothing : Given :=
  ⟨[], none, none⟩

def has (given : Given) (name : String) : Bool :=
  given.options.any (fun entry => entry.1 = name)

/-- Takes an option with its value. -/
def take (given : Given) (option : OptionSpec) (value : String) : Except UsageError Given :=
  if !option.many && given.has option.name then .error .argumentConflict
  else match option.fault value with
    | some error => .error error
    | none => .ok { given with options := given.options ++ [(option.name, value)] }

/-- Is done with the pending option. -/
def settle (given : Given) : Except UsageError Given :=
  match given.pending with
  | none => .ok given
  | some ⟨_, none⟩ => .error .invalidValue
  | some ⟨option, some value⟩ => { given with pending := none }.take option value

/-- Whether the next argument may be the value of the pending option. -/
def awaitsValue (given : Given) : Bool :=
  given.pending.any (fun pending => pending.value.isNone)

def await (given : Given) (option : OptionSpec) : Except UsageError Given := do
  return { ← given.settle with pending := some ⟨option, none⟩ }

def giveValue (given : Given) (value : String) : Given :=
  { given with pending := given.pending.map (fun pending => { pending with value := some value }) }

end Given

/-- Reads an option that was found, with the value attached to it if there is one. -/
def readOption (given : Given) (option : OptionSpec) (attached : Option String) :
    Except UsageError Given :=
  match option.takesValue, attached with
  | true, some value => do (← given.settle).take option value
  | true, none => given.await option
  | false, some _ => .error .tooManyValues
  | false, none => do (← given.settle).take option ""

/-- Asks for help, once the pending option is done with. -/
def readHelp (given : Given) : Except UsageError Given := do
  let _ ← given.settle
  .error .help

/-- An argument after two dashes: the name, and the value after an equals sign. -/
def readLong (command : Command) (given : Given) (text : List Char) : Except UsageError Given :=
  let name := String.ofList (text.takeWhile (· ≠ '='))
  let attached := match text.dropWhile (· ≠ '=') with
    | _ :: value => some (String.ofList value)
    | [] => none
  if name = helpName then
    match attached with
    | some _ => .error .tooManyValues
    | none => readHelp given
  else match command.options.find? (fun option => option.name = name) with
    | some option => readOption given option attached
    | none => .error .unknownArgument

/-- The letters after one dash. What follows an option that takes a value is its value. -/
def readShort (command : Command) (given : Given) : List Char → Except UsageError Given
  | [] => .ok given
  | letter :: rest =>
    if letter = 'h' then readHelp given
    else match command.options.find? (fun option => option.short = some letter) with
      | none => .error .unknownArgument
      | some option =>
        if option.takesValue then
          match rest with
          | [] => readOption given option none
          | '=' :: value => readOption given option (some (String.ofList value))
          | value => readOption given option (some (String.ofList value))
        else do
          let given ← readOption given option none
          readShort command given rest

/-- What ends the arguments of a command: nothing more, or a subcommand. -/
inductive Stop where
  | done
  | subcommand (command : Command) (rest : List String)
  | help (rest : List String)

/-- An argument that is no option. -/
def readOperand (command : Command) (given : Given) (afterDashes : Bool) (text : String) :
    Except UsageError Given :=
  if command.operand && given.operand.isNone then do
    return { ← given.settle with operand := some text }
  else if command.subcommands.isEmpty then .error .unknownArgument
  else if afterDashes && ((command.subcommand? text).isSome || text = helpName) then
    .error .unknownArgument
  else .error .invalidSubcommand

/-- What one argument does to the reading of a command's arguments. -/
inductive Move where
  | on (given : Given)
  | dashes
  | subcommand (command : Command)
  | help

def move (command : Command) (given : Given) (text : String) : Except UsageError Move :=
  match if given.awaitsValue then none else command.subcommand? text with
  | some subcommand => .ok (.subcommand subcommand)
  | none =>
    if !given.awaitsValue && text = helpName && !command.subcommands.isEmpty then .ok .help
    else match text.toList with
      | ['-', '-'] => .ok .dashes
      | '-' :: '-' :: long => do return .on (← readLong command given long)
      | '-' :: letter :: letters => do return .on (← readShort command given (letter :: letters))
      | _ =>
        if given.awaitsValue then .ok (.on (given.giveValue text))
        else do return .on (← readOperand command given false text)

/-- Reads the arguments of one command, which end at the name of a subcommand. -/
def readArguments (command : Command) (given : Given) (afterDashes : Bool) :
    List String → Except UsageError (Given × Stop)
  | [] => .ok (given, .done)
  | text :: rest =>
    if afterDashes then do
      readArguments command (← readOperand command given true text) true rest
    else do
      match ← move command given text with
      | .on next => readArguments command next false rest
      | .dashes => readArguments command given true rest
      | .subcommand inner => return (given, .subcommand inner rest)
      | .help => return (given, .help rest)

/-- Help for the command that the names lead to. -/
def helpFor (command : Command) : List String → UsageError
  | [] => .help
  | name :: rest =>
    match command.subcommand? name with
    | some subcommand => helpFor subcommand rest
    | none =>
      if name = helpName && !command.subcommands.isEmpty && rest.isEmpty then .help
      else .invalidSubcommand

/-- What one command was given: its name, its options in their order, and its operand. -/
structure CommandInput where
  name : String
  options : List (String × String)
  operand : Option String

/-- Checks that a command has all it needs. `preset` says whether an option of every command has a
value without being given. -/
def checkComplete (command : Command) (given : Given) (preset : Bool) : Except UsageError Unit :=
  if !command.subcommands.isEmpty then
    if given.options.isEmpty && !preset then .error .missingSubcommandHelp
    else .error .missingSubcommand
  else if command.options.any (fun option => option.needed && !given.has option.name)
      || (command.operand && given.operand.isNone) then .error .missingRequiredArgument
  else .ok ()

/-- Reads the arguments of a command and those of the subcommand they lead to, whose mistakes come
before those in the last option in front of it. The result holds the commands from the outermost
to the innermost. -/
def readCommand (command : Command) (preset : Bool) (arguments : List String) :
    Nat → Except UsageError (List CommandInput)
  | 0 => .error .invalidSubcommand
  | fuel + 1 => do
    let (given, stop) ← readArguments command .nothing false arguments
    match stop with
    | .help names => .error (helpFor command names)
    | .subcommand subcommand rest =>
      let inner ← readCommand subcommand preset rest fuel
      let given ← given.settle
      return ⟨command.name, given.options, given.operand⟩ :: inner
    | .done =>
      let given ← given.settle
      checkComplete command given preset
      return [⟨command.name, given.options, given.operand⟩]

/-- Reads a command line. -/
def read (command : Command) (preset : Bool) (arguments : List String) :
    Except UsageError (List CommandInput) :=
  readCommand command preset arguments (arguments.length + 1)

end ApiManifest.CommandLine
