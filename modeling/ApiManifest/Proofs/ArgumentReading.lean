import ApiManifest.Proofs.Commands
import ApiManifest.Proofs.Resolution

/-!
What a command line that is accepted gives to its commands. Whatever argument comes next, the options
taken so far are options of the command with values that it accepts, each given once unless it may be
repeated. Reading ends at a command without subcommands, which then has all that it needs.
-/

namespace ApiManifest.CommandLine

open Resolution (bind_eq_ok)

theorem valuesOf_append (first second : List (String × String)) (name : String) :
    valuesOf (first ++ second) name = valuesOf first name ++ valuesOf second name := by
  simp [valuesOf]

theorem valuesOf_single (key value name : String) :
    valuesOf [(key, value)] name = if key = name then [value] else [] := by
  by_cases same : key = name <;> simp [valuesOf, same]

theorem mem_valuesOf {options : List (String × String)} {name value : String} :
    value ∈ valuesOf options name ↔ (name, value) ∈ options := by
  unfold valuesOf
  rw [List.mem_map]
  constructor
  · rintro ⟨⟨key, other⟩, member, rfl⟩
    obtain ⟨inside, same⟩ := List.mem_filter.1 member
    have named : key = name := of_decide_eq_true same
    rw [← named]
    exact inside
  · intro member
    exact ⟨(name, value), List.mem_filter.2 ⟨member, decide_eq_true rfl⟩, rfl⟩

theorem has_eq_false_iff (given : Given) (name : String) :
    given.has name = false ↔ valuesOf given.options name = [] := by
  unfold Given.has valuesOf
  simp [List.filter_eq_nil_iff]

/-- Options of the command with values that it accepts, each given once unless it may be repeated. -/
structure Allowed (command : Command) (options : List (String × String)) : Prop where
  known : ∀ entry ∈ options, ∃ option ∈ command.options, option.name = entry.1
  faultless : ∀ option ∈ command.options, ∀ value ∈ valuesOf options option.name,
    option.fault value = none
  single : ∀ option ∈ command.options, option.many = false →
    (valuesOf options option.name).length ≤ 1

structure Sound (command : Command) (given : Given) : Prop where
  allowed : Allowed command given.options
  pending : ∀ pending, given.pending = some pending → pending.option ∈ command.options
  operand : given.operand.isSome → command.operand = true

def Keeps (command : Command) (step : Given → Except UsageError Given) : Prop :=
  ∀ given next, Sound command given → step given = .ok next → Sound command next

theorem sound_nothing (command : Command) : Sound command .nothing where
  allowed := {
    known := fun _ member => nomatch member
    faultless := fun _ _ _ member => nomatch member
    single := fun _ _ _ => Nat.zero_le 1 }
  pending _ there := nomatch there
  operand there := nomatch there

section Steps

variable {command : Command}

theorem Keeps.bind {first second : Given → Except UsageError Given} (here : Keeps command first)
    (there : Keeps command second) : Keeps command (fun given => first given >>= second) := by
  intro given next sound done
  obtain ⟨between, first, second⟩ := bind_eq_ok done
  exact there between next (here given between sound first) second

theorem refuses_keeps (error : UsageError) : Keeps command (fun _ => .error error) :=
  fun _ _ _ done => nomatch done

variable (distinct : (command.options.map OptionSpec.name).Nodup) {option : OptionSpec}
  (member : option ∈ command.options)

include distinct member

theorem take_keeps (value : String) : Keeps command (fun given => given.take option value) := by
  intro given next sound taken
  have named : ∀ other ∈ command.options, option.name = other.name → other = option :=
    fun other inside same => List.inj_on_of_nodup_map distinct inside member same.symm
  change given.take option value = .ok next at taken
  unfold Given.take at taken
  split at taken
  · cases taken
  next free =>
    split at taken
    · cases taken
    next passes =>
      cases taken
      refine ⟨⟨fun entry inside => ?_, fun other inside v given' => ?_, fun other inside once => ?_⟩,
        sound.pending, sound.operand⟩
      · rcases List.mem_append.1 inside with before | last
        · exact sound.allowed.known entry before
        · rw [List.mem_singleton.1 last]
          exact ⟨option, member, rfl⟩
      · rw [valuesOf_append, valuesOf_single, List.mem_append] at given'
        rcases given' with before | last
        · exact sound.allowed.faultless other inside v before
        · split at last
          next same =>
            rw [named other inside same, List.mem_singleton.1 last]
            exact passes
          next => cases last
      · rw [valuesOf_append, valuesOf_single, List.length_append]
        split
        next same =>
          cases named other inside same
          have absent : given.has option.name = false := by simpa [once] using free
          rw [(has_eq_false_iff given option.name).1 absent]
          exact Nat.le_refl 1
        next => exact sound.allowed.single other inside once

omit member in
theorem settle_keeps : Keeps command Given.settle := by
  intro given next sound settled
  unfold Given.settle at settled
  split at settled
  · cases settled
    exact sound
  · cases settled
  next option value waiting =>
    have clear : Sound command { given with pending := none } :=
      ⟨sound.allowed, (fun _ there => nomatch there), sound.operand⟩
    exact take_keeps distinct (sound.pending _ waiting) value _ next clear settled

theorem await_keeps : Keeps command (fun given => given.await option) := by
  intro given next sound awaited
  obtain ⟨settled, done, made⟩ := bind_eq_ok awaited
  cases made
  have kept := settle_keeps distinct given settled sound done
  refine ⟨kept.allowed, fun pending there => ?_, kept.operand⟩
  cases there
  exact member

theorem readOption_keeps (attached : Option String) :
    Keeps command (fun given => readOption given option attached) := by
  intro given next sound done
  change readOption given option attached = .ok next at done
  unfold readOption at done
  split at done
  next value _ =>
    exact (settle_keeps distinct).bind (take_keeps distinct member value) given next sound done
  next => exact await_keeps distinct member given next sound done
  next => cases done
  next => exact (settle_keeps distinct).bind (take_keeps distinct member "") given next sound done

omit member

theorem readHelp_keeps : Keeps command readHelp :=
  (settle_keeps distinct).bind (refuses_keeps .help)

theorem readLong_keeps (text : List Char) :
    Keeps command (fun given => readLong command given text) := by
  intro given next sound done
  change readLong command given text = .ok next at done
  unfold readLong at done
  extract_lets name attached at done
  clear_value name attached
  split at done
  next =>
    split at done
    · cases done
    · exact readHelp_keeps distinct given next sound done
  next =>
    split at done
    next option found =>
      exact readOption_keeps distinct (List.mem_of_find?_eq_some found) _ given next sound done
    next => cases done

theorem readShort_keeps (letters : List Char) :
    Keeps command (fun given => readShort command given letters) := by
  induction letters with
  | nil =>
    intro given next sound done
    cases done
    exact sound
  | cons letter rest ih =>
    intro given next sound done
    change readShort command given (letter :: rest) = .ok next at done
    unfold readShort at done
    split at done
    next => exact readHelp_keeps distinct given next sound done
    next =>
      split at done
      next => cases done
      next option found =>
        have member := List.mem_of_find?_eq_some found
        split at done
        next =>
          split at done <;> exact readOption_keeps distinct member _ given next sound done
        next =>
          exact (readOption_keeps distinct member none).bind ih given next sound done

theorem readOperand_keeps (afterDashes : Bool) (text : String) :
    Keeps command (fun given => readOperand command given afterDashes text) := by
  intro given next sound done
  change readOperand command given afterDashes text = .ok next at done
  unfold readOperand at done
  split at done
  next free =>
    obtain ⟨settled, finished, made⟩ := bind_eq_ok done
    cases made
    have kept := settle_keeps distinct given settled sound finished
    have takes : command.operand = true := (Bool.and_eq_true_iff.1 free).1
    exact ⟨kept.allowed, kept.pending, fun _ => takes⟩
  next =>
    split at done
    · cases done
    · split at done <;> cases done

omit distinct in
theorem giveValue_sound {given : Given} (sound : Sound command given) (value : String) :
    Sound command (given.giveValue value) := by
  refine ⟨sound.allowed, fun pending there => ?_, sound.operand⟩
  obtain ⟨before, waiting, rfl⟩ := Option.map_eq_some_iff.1 there
  exact sound.pending before waiting

def Move.Sound (command : Command) : Move → Prop
  | on next => CommandLine.Sound command next
  | subcommand inner => inner ∈ command.subcommands
  | dashes | help => True

theorem move_sound {given : Given} (sound : Sound command given) {text : String} {made : Move}
    (moved : move command given text = .ok made) : made.Sound command := by
  unfold move at moved
  split at moved
  next inner found =>
    cases moved
    split at found
    · cases found
    · exact List.mem_of_find?_eq_some found
  split at moved
  next =>
    cases moved
    trivial
  split at moved
  next =>
    cases moved
    trivial
  next long _ _ =>
    obtain ⟨next, read, made⟩ := bind_eq_ok moved
    cases made
    exact readLong_keeps distinct long given next sound read
  next letter letters _ _ _ =>
    obtain ⟨next, read, made⟩ := bind_eq_ok moved
    cases made
    exact readShort_keeps distinct (letter :: letters) given next sound read
  next =>
    split at moved
    next =>
      cases moved
      exact giveValue_sound sound text
    next =>
      obtain ⟨next, read, made⟩ := bind_eq_ok moved
      cases made
      exact readOperand_keeps distinct false text given next sound read

def Move.follow (command : Command) (given : Given) (rest : List String) :
    Move → Except UsageError (Given × Stop)
  | on next => readArguments command next false rest
  | dashes => readArguments command given true rest
  | subcommand inner => .ok (given, .subcommand inner rest)
  | help => .ok (given, .help rest)

omit distinct in
theorem readArguments_cons (command : Command) (given : Given) (text : String)
    (rest : List String) :
    readArguments command given false (text :: rest) =
      move command given text >>= Move.follow command given rest := by
  rw [readArguments]
  refine congrArg (move command given text >>= ·) (funext fun made => ?_)
  cases made <;> rfl

theorem readArguments_sound {given : Given} (sound : Sound command given) {afterDashes : Bool}
    {arguments : List String} {next : Given} {stop : Stop}
    (done : readArguments command given afterDashes arguments = .ok (next, stop)) :
    Sound command next ∧
      ∀ subcommand rest, stop = .subcommand subcommand rest → subcommand ∈ command.subcommands := by
  induction arguments generalizing given afterDashes with
  | nil =>
    cases done
    exact ⟨sound, fun _ _ there => nomatch there⟩
  | cons text rest ih =>
    cases afterDashes with
    | true =>
      obtain ⟨between, read, done⟩ := bind_eq_ok done
      exact ih (readOperand_keeps distinct true text given between sound read) done
    | false =>
      rw [readArguments_cons] at done
      obtain ⟨made, moved, follows⟩ := bind_eq_ok done
      have moves := move_sound distinct sound moved
      cases made with
      | on between => exact ih moves follows
      | dashes => exact ih sound follows
      | subcommand inner =>
        cases follows
        refine ⟨sound, fun other _ there => ?_⟩
        cases there
        exact moves
      | help =>
        cases follows
        exact ⟨sound, fun _ _ there => nomatch there⟩

end Steps

/-- What a command was given that has no subcommands, which is all that it needs. -/
structure Complete (command : Command) (input : CommandInput) : Prop where
  name : input.name = command.name
  allowed : Allowed command input.options
  needed : ∀ option ∈ command.options, option.needed = true →
    valuesOf input.options option.name ≠ []
  operand : input.operand.isSome = command.operand

/-- What was given to the commands on the way from a command to one without subcommands. -/
inductive Leads : Command → List CommandInput → Prop
  | last {command : Command} {input : CommandInput} (none : command.subcommands = [])
      (complete : Complete command input) : Leads command [input]
  | onward {command subcommand : Command} {input : CommandInput} {inputs : List CommandInput}
      (member : subcommand ∈ command.subcommands) (name : input.name = command.name)
      (rest : Leads subcommand inputs) : Leads command (input :: inputs)

theorem complete_of_check {command : Command} {given : Given} {preset : Bool}
    (sound : Sound command given) (checked : checkComplete command given preset = .ok ()) :
    command.subcommands = [] ∧
      Complete command ⟨command.name, given.options, given.operand⟩ := by
  unfold checkComplete at checked
  split at checked
  next => split at checked <;> cases checked
  next last =>
    split at checked
    · cases checked
    next filled =>
      simp only [Bool.or_eq_true, not_or, List.any_eq_true, not_exists, not_and,
        Bool.and_eq_true] at filled
      refine ⟨by simpa using last, rfl, sound.allowed, fun option member needed absent => ?_, ?_⟩
      · refine filled.1 option member needed ?_
        rw [(has_eq_false_iff given option.name).2 absent]
        rfl
      · change given.operand.isSome = command.operand
        cases there : given.operand with
        | some text =>
          have takes := sound.operand (by rw [there]; rfl)
          rw [takes]
          rfl
        | none =>
          cases takes : command.operand with
          | false => rfl
          | true => exact absurd (by rw [there]; rfl) (filled.2 takes)

/-- A command line that is accepted leads to a command that has all it needs. -/
theorem readCommand_leads {command : Command} {preset : Bool} {arguments : List String} {fuel : Nat}
    {inputs : List CommandInput} (legible : Throughout Legible command)
    (accepted : readCommand command preset arguments fuel = .ok inputs) : Leads command inputs := by
  induction fuel generalizing command arguments inputs with
  | zero => cases accepted
  | succ fuel ih =>
    obtain ⟨legible, below⟩ := legible
    obtain ⟨⟨given, stop⟩, reads, accepted⟩ := bind_eq_ok accepted
    obtain ⟨sound, within⟩ := readArguments_sound legible.names (sound_nothing command) reads
    cases stop with
    | help names => cases accepted
    | subcommand subcommand rest =>
      obtain ⟨inner, innerRead, accepted⟩ := bind_eq_ok accepted
      obtain ⟨settled, _, accepted⟩ := bind_eq_ok accepted
      cases accepted
      have member := within subcommand rest rfl
      exact .onward member rfl (ih (below subcommand member) innerRead)
    | done =>
      obtain ⟨settled, finished, accepted⟩ := bind_eq_ok accepted
      obtain ⟨_, checked, accepted⟩ := bind_eq_ok accepted
      cases accepted
      obtain ⟨last, complete⟩ :=
        complete_of_check (settle_keeps legible.names given settled sound finished) checked
      exact .last last complete

theorem leads_of_read {preset : Bool} {arguments : List String} {inputs : List CommandInput}
    (accepted : read program preset arguments = .ok inputs) : Leads program inputs :=
  readCommand_leads program_legible accepted

end ApiManifest.CommandLine
