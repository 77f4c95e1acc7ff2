import Mathlib.Data.List.Nodup
import ApiManifest.CommandLine.Invocation

/-!
What all commands of the program have in common: their options are told apart by names and letters,
and none of them can be taken for a subcommand.
-/

namespace ApiManifest.CommandLine

/-- The options of a command are told apart by their names and letters, and from its subcommands. -/
structure Legible (command : Command) : Prop where
  names : (command.options.map OptionSpec.name).Nodup
  plain : ∀ option ∈ command.options,
    option.name ≠ "" ∧ option.name ≠ helpName ∧ '=' ∉ option.name.toList
  letters : ∀ option ∈ command.options, ∀ letter ∈ option.short,
    letter ≠ '-' ∧ letter ≠ 'h' ∧ option.takesValue = true
  distinct : ∀ option ∈ command.options, ∀ other ∈ command.options,
    option.short = other.short → option.short ≠ none → option.name = other.name
  subcommands : (command.subcommands.map Command.name).Nodup
  undashed : ∀ subcommand ∈ command.subcommands, subcommand.name.toList.head? ≠ some '-'
  operand : command.operand = true → command.subcommands = []

inductive Throughout (property : Command → Prop) : Command → Prop
  | intro {command : Command} (here : property command)
      (below : ∀ subcommand ∈ command.subcommands, Throughout property subcommand) :
      Throughout property command

mutual

def Command.all : Command → List Command
  | .mk name options operand subcommands =>
    .mk name options operand subcommands :: Command.allOf subcommands

def Command.allOf : List Command → List Command
  | [] => []
  | command :: rest => command.all ++ Command.allOf rest

end

mutual

theorem throughout_of_all {property : Command → Prop} :
    ∀ command : Command, (∀ other ∈ command.all, property other) → Throughout property command
  | .mk name options operand subcommands, holds => by
    obtain ⟨here, below⟩ := List.forall_mem_cons.1 holds
    exact ⟨here, throughout_of_allOf subcommands below⟩

theorem throughout_of_allOf {property : Command → Prop} :
    ∀ commands : List Command, (∀ other ∈ Command.allOf commands, property other) →
      ∀ command ∈ commands, Throughout property command
  | [], _ => fun _ member => nomatch member
  | command :: rest, holds => by
    obtain ⟨first, later⟩ := List.forall_mem_append.1 holds
    exact List.forall_mem_cons.2
      ⟨throughout_of_all command first, throughout_of_allOf rest later⟩

end

-- The one letter of an option is looked at by `all`: a decision over letters would go through all
-- characters.
instance (command : Command) : Decidable (Legible command) :=
  decidable_of_iff ((command.options.map OptionSpec.name).Nodup ∧
    (∀ option ∈ command.options,
      option.name ≠ "" ∧ option.name ≠ helpName ∧ '=' ∉ option.name.toList) ∧
    (∀ option ∈ command.options, option.short.all (fun letter =>
      letter ≠ '-' && letter ≠ 'h' && option.takesValue) = true) ∧
    (∀ option ∈ command.options, ∀ other ∈ command.options,
      option.short = other.short → option.short ≠ none → option.name = other.name) ∧
    (command.subcommands.map Command.name).Nodup ∧
    (∀ subcommand ∈ command.subcommands, subcommand.name.toList.head? ≠ some '-') ∧
    (command.operand = true → command.subcommands = [])) <| by
  have letters : ∀ option : OptionSpec, option.short.all (fun letter =>
      letter ≠ '-' && letter ≠ 'h' && option.takesValue) = true ↔
        ∀ letter ∈ option.short, letter ≠ '-' ∧ letter ≠ 'h' ∧ option.takesValue = true := by
    intro option
    rw [Option.all_eq_true]
    simp [and_assoc]
  simp only [letters]
  exact ⟨fun ⟨names, plain, letters, distinct, subcommands, undashed, operand⟩ =>
      ⟨names, plain, letters, distinct, subcommands, undashed, operand⟩,
    fun legible => ⟨legible.names, legible.plain, legible.letters, legible.distinct,
      legible.subcommands, legible.undashed, legible.operand⟩⟩

theorem program_legible : Throughout Legible program :=
  throughout_of_all program (by decide +kernel)

end ApiManifest.CommandLine
