import ApiManifest.Proofs.Layouts

/-!
Two lone dashes. All that stands after them is an operand, so that a command line for a command
without one may hold them only as its last argument, where they change nothing.
-/

namespace ApiManifest.CommandLine

open Resolution (bind_eq_ok)

section Arguments

variable {command : Command} {given next : Given} {stop : Stop}

theorem move_dashes (legible : Legible command) : move command given "--" = .ok .dashes := by
  have dash : "--".toList.head? = some '-' := by decide
  have shape : "--".toList = ['-', '-'] := by decide
  unfold move
  simp only [subcommand?_of_dash legible dash, ite_self, not_help_of_dash dash, decide_false,
    Bool.and_false, Bool.false_and, Bool.false_eq_true, if_false, shape]

/-- How the reading goes on with two dashes and these texts after the arguments in front of them. -/
def resume (command : Command) (texts : List String) :
    Given × Stop → Except UsageError (Given × Stop)
  | (given, .done) => readArguments command given true texts
  | (given, .subcommand inner rest) => .ok (given, .subcommand inner (rest ++ "--" :: texts))
  | (given, .help rest) => .ok (given, .help (rest ++ "--" :: texts))

theorem readArguments_dashes (legible : Legible command) {front : List String}
    (undashed : "--" ∉ front) (texts : List String) :
    readArguments command given false (front ++ "--" :: texts) =
      readArguments command given false front >>= resume command texts := by
  induction front generalizing given with
  | nil =>
    rw [List.nil_append, readArguments_cons, move_dashes legible]
    rfl
  | cons text rest ih =>
    rw [List.mem_cons, not_or] at undashed
    rw [List.cons_append, readArguments_cons, readArguments_cons]
    cases moved : move command given text with
    | error error => rfl
    | ok made =>
      cases moves_of_move legible moved with
      | on _ => exact ih undashed.2
      | dashes two => exact absurd two.symm undashed.1
      | subcommand | help => rfl

theorem stop_after_dashes {texts : List String}
    (done : readArguments command given true texts = .ok (next, stop)) : stop = .done := by
  induction texts generalizing given with
  | nil =>
    cases done
    rfl
  | cons text rest ih =>
    unfold readArguments at done
    obtain ⟨_, _, done⟩ := bind_eq_ok done
    exact ih done

theorem readArguments_after_dashes (bare : command.operand = false) {texts : List String}
    (done : readArguments command given true texts = .ok (next, stop)) :
    texts = [] ∧ next = given ∧ stop = .done := by
  cases texts with
  | nil =>
    cases done
    exact ⟨rfl, rfl, rfl⟩
  | cons text rest =>
    unfold readArguments at done
    obtain ⟨_, refused, _⟩ := bind_eq_ok done
    unfold readOperand at refused
    rw [bare] at refused
    simp only [Bool.false_and, Bool.false_eq_true, if_false] at refused
    split at refused
    · cases refused
    · split at refused <;> cases refused

theorem undashed_rest (legible : Legible command) {front rest : List String}
    (undashed : "--" ∉ front) {inner : Command} {settled : Given}
    (settles : next.settle = .ok settled)
    (reads : readArguments command .nothing false front = .ok (next, .subcommand inner rest)) :
    "--" ∉ rest := by
  obtain ⟨idle, -, -⟩ := settle_eq_ok_iff.1 settles
  obtain ⟨parts, composed⟩ := (remains_of_read legible undashed idle reads).idle rfl
  intro inside
  rw [composed.words] at undashed
  exact undashed (List.mem_append_right _ (List.mem_cons_of_mem _ inside))

end Arguments

section Lines

variable {command : Command} {preset : Bool} {fuel : Nat} {front : List String}
  {inputs : List CommandInput}

theorem readCommand_with_dashes (legible : Throughout Legible command) (undashed : "--" ∉ front)
    (accepted : readCommand command preset front fuel = .ok inputs) :
    readCommand command preset (front ++ ["--"]) fuel = .ok inputs := by
  induction fuel generalizing command front inputs with
  | zero => cases accepted
  | succ fuel ih =>
    obtain ⟨legible, below⟩ := legible
    obtain ⟨⟨next, stop⟩, reads, accepted⟩ := bind_eq_ok accepted
    obtain ⟨-, within⟩ := readArguments_sound legible.names (sound_nothing command) reads
    unfold readCommand
    rw [readArguments_dashes legible undashed, reads]
    cases stop with
    | help names => cases accepted
    | subcommand inner rest =>
      obtain ⟨others, innerRead, accepted⟩ := bind_eq_ok accepted
      obtain ⟨settled, settles, accepted⟩ := bind_eq_ok accepted
      have later := ih (below inner (within inner rest rfl))
        (undashed_rest legible undashed settles reads) innerRead
      simp only [bind, Except.bind, resume, later, settles]
      exact accepted
    | done => exact accepted

/-- A command that has all it needs without an operand takes none, and nothing follows two dashes. -/
theorem nothing_after_dashes {next after settled : Given} {stop : Stop} {texts : List String}
    (bare : texts = [] ∨ settled.operand = none)
    (complete : Complete command ⟨command.name, settled.options, settled.operand⟩)
    (resumed : readArguments command next true texts = .ok (after, stop)) :
    texts = [] ∧ after = next := by
  rcases bare with rfl | bare
  · cases resumed
    exact ⟨rfl, rfl⟩
  · have noOperand : command.operand = false := by
      rw [← complete.operand, Option.isSome_eq_false_iff, Option.isNone_iff_eq_none]
      exact bare
    obtain ⟨none, same, -⟩ := readArguments_after_dashes noOperand resumed
    exact ⟨none, same⟩

theorem readCommand_of_dashes (legible : Throughout Legible command) (undashed : "--" ∉ front)
    {texts : List String}
    (accepted : readCommand command preset (front ++ "--" :: texts) fuel = .ok inputs)
    (bare : texts = [] ∨ ∀ input, inputs.getLast? = some input → input.operand = none) :
    texts = [] ∧ readCommand command preset front fuel = .ok inputs := by
  induction fuel generalizing command front inputs with
  | zero => cases accepted
  | succ fuel ih =>
    obtain ⟨legible, below⟩ := legible
    unfold readCommand at accepted ⊢
    rw [readArguments_dashes legible undashed] at accepted
    obtain ⟨⟨after, stopped⟩, resumed, accepted⟩ := bind_eq_ok accepted
    obtain ⟨⟨next, stop⟩, reads, resumed⟩ := bind_eq_ok resumed
    obtain ⟨sound, within⟩ := readArguments_sound legible.names (sound_nothing command) reads
    rw [reads]
    cases stop with
    | help names =>
      cases resumed
      cases accepted
    | subcommand inner rest =>
      cases resumed
      obtain ⟨others, innerRead, accepted⟩ := bind_eq_ok accepted
      obtain ⟨settled, settles, accepted⟩ := bind_eq_ok accepted
      cases accepted
      obtain ⟨none, later⟩ := ih (below inner (within inner rest rfl))
        (undashed_rest legible undashed settles reads) innerRead
        (bare.imp_right fun bare input last => bare input (by rw [List.getLast?_cons, last]; rfl))
      refine ⟨none, ?_⟩
      simp only [bind, Except.bind, later, settles]
      rfl
    | done =>
      cases stop_after_dashes resumed
      obtain ⟨resumedSound, -⟩ := readArguments_sound legible.names sound resumed
      obtain ⟨settled, settles, accepted⟩ := bind_eq_ok accepted
      obtain ⟨_, checked, accepted⟩ := bind_eq_ok accepted
      cases accepted
      have settledSound := settle_keeps legible.names _ _ resumedSound settles
      obtain ⟨-, complete⟩ := complete_of_check settledSound checked
      obtain ⟨rfl, rfl⟩ :=
        nothing_after_dashes (bare.imp_right fun bare => bare _ rfl) complete resumed
      refine ⟨rfl, ?_⟩
      simp only [bind, Except.bind, settles, checked]
      rfl

end Lines

section Endings

variable {preset : Bool} {inputs : List CommandInput}

theorem read_eq_ok_iff_of_ending {front ending : List String} (undashed : "--" ∉ front)
    (ends : ending = [] ∨ ending = ["--"]) :
    read program preset (front ++ ending) = .ok inputs ↔
      ∃ layout, Lays program layout ∧ layoutWords layout = front ∧
        layout.map Segment.input = inputs := by
  rcases ends with rfl | rfl
  · rw [List.append_nil]
    exact read_eq_ok_iff undashed
  · constructor
    · intro accepted
      obtain ⟨-, accepted⟩ := readCommand_of_dashes program_legible undashed accepted (.inl rfl)
      exact exists_lays program_legible undashed accepted
    · rintro ⟨layout, lays, rfl, rfl⟩
      have enough : layout.length ≤ (layoutWords layout ++ ["--"]).length + 1 := by
        rw [List.length_append]
        exact Nat.le_trans (length_le_layoutWords layout) (by simp)
      exact readCommand_with_dashes program_legible undashed
        (readCommand_of_lays program_legible lays enough)

/-- A line for a command without an operand has two dashes at its end if at all. -/
theorem exists_ending {arguments : List String}
    (accepted : read program preset arguments = .ok inputs)
    (bare : ∀ input, inputs.getLast? = some input → input.operand = none) :
    ∃ front ending, arguments = front ++ ending ∧ "--" ∉ front ∧
      (ending = [] ∨ ending = ["--"]) := by
  by_cases dashed : "--" ∈ arguments
  · obtain ⟨front, texts, rfl, undashed⟩ := List.eq_append_cons_of_mem dashed
    obtain ⟨rfl, -⟩ := readCommand_of_dashes program_legible undashed accepted (.inr bare)
    exact ⟨front, ["--"], rfl, undashed, .inr rfl⟩
  · exact ⟨arguments, [], (List.append_nil _).symm, dashed, .inl rfl⟩

end Endings

end ApiManifest.CommandLine
