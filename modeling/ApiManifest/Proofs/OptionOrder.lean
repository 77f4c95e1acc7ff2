import ApiManifest.Proofs.CommandRuns
import ApiManifest.Proofs.Layouts

/-!
The order of options. What a run does depends only on which options the innermost command is given,
on the order of those that may be repeated, and on the innermost log filter. Options can be given in
any other order, and log options to any of the commands, as long as none is given one of them twice.
-/

namespace ApiManifest.CommandLine

open Resolution (bind_eq_ok)

def layoutParts (layout : List Segment) : List Part :=
  layout.flatMap Segment.parts

def layoutEntries (layout : List Segment) : List (String × String) :=
  layout.flatMap Segment.entries

def layoutOperands (layout : List Segment) : List String :=
  layout.flatMap Segment.operands

inductive Shared : Part → Prop
  | option {option : OptionSpec} (member : option ∈ logOptions) (value : String)
      (words : List String) : Shared (.option option.name value words)

def repeatable : List String :=
  ["gateway", "gateway-label"]

/-- The same commands are given the same things in another order: the options of the innermost
command in any order that keeps those of the repeated ones, and log options with any of the
commands. -/
structure Rearranged (line other : List Segment) : Prop where
  names : other.map Segment.name = line.map Segment.name
  parts : (layoutParts other).Perm (layoutParts line)
  own : ∀ segment ∈ other.dropLast, ∀ part ∈ segment.parts, Shared part
  order : ∀ name ∈ repeatable,
    valuesOf (layoutEntries other) name = valuesOf (layoutEntries line) name

/-- No command is given a log option twice, and the innermost log filter is the same. -/
structure KeepsLog (line other : List Segment) : Prop where
  once : ∀ segment ∈ other, ∀ option ∈ logOptions,
    (valuesOf segment.entries option.name).length ≤ 1
  innermost : (valuesOf (layoutEntries other) "log-level").getLast? =
    (valuesOf (layoutEntries line) "log-level").getLast?

/-! ### Commands that share the log options -/

/-- The command takes the log options; of its own it has options only if it has no subcommands. -/
inductive SharesLog : Command → Prop
  | group (name : String) (subcommands : List Command) : SharesLog (group name subcommands)
  | last {name : String} {own : List OptionSpec} {operand : Bool}
      (apart : ∀ option ∈ own, ∀ log ∈ logOptions, option.name ≠ log.name)
      (single : ∀ option ∈ own, option.many = true → option.name ∈ repeatable) :
      SharesLog (.mk name (own ++ logOptions) operand [])

theorem program_sharesLog : Throughout SharesLog program := by
  refine throughout_of_all program ?_
  simp only [program, leaf, group, Command.all, Command.allOf, List.append_nil,
    List.forall_mem_append, List.forall_mem_cons, List.not_mem_nil, false_imp_iff, implies_true,
    and_true, and_assoc]
  exact ⟨.group _ _, .group _ _, .group _ _, .last (by decide) (by decide), .group _ _,
    .last (by decide) (by decide), .last (by decide) (by decide), .last (by decide) (by decide),
    .group _ _, .last (by decide) (by decide), .last (by decide) (by decide), .group _ _,
    .last (by decide) (by decide)⟩

def OnlyLog (segment : Segment) : Prop :=
  Suits (group segment.name []) segment

theorem fits_of_subset {first second : Command}
    (options : ∀ option ∈ first.options, option ∈ second.options)
    (operand : first.operand = true → second.operand = true) {part : Part}
    (fits : Fits first part) : Fits second part := by
  cases fits with
  | option member named spelled => exact .option (options _ member) named spelled
  | operand takes stands => exact .operand (operand takes) stands

theorem suits_congr (first second : Command) (options : first.options = second.options)
    (operand : first.operand = second.operand) {segment : Segment} (suits : Suits first segment)
    (name : segment.name = second.name) : Suits second segment := by
  obtain ⟨-, fits, ⟨known, faultless, single⟩, operands⟩ := suits
  rw [options] at known faultless single
  refine ⟨name, fun part member => ?_, ⟨known, faultless, single⟩, operands⟩
  exact fits_of_subset (fun _ inside => options ▸ inside) (fun takes => operand ▸ takes)
    (fits part member)

theorem suits_group_iff {name : String} {subcommands : List Command} {segment : Segment} :
    Suits (group name subcommands) segment ↔ segment.name = name ∧ OnlyLog segment := by
  let first : Command := group name subcommands
  let second : Command := group segment.name []
  constructor
  · intro suits
    exact ⟨suits.name, suits_congr first second rfl rfl suits rfl⟩
  · rintro ⟨named, only⟩
    exact suits_congr second first rfl rfl only named

/-- A command line leads to a command without subcommands, with nothing but log options in front of
it. Whatever else these give is a command line too. -/
structure Leaf (command : Command) (leaf : Command) (outer : List Segment) (last : Segment) :
    Prop where
  shares : SharesLog leaf
  names : (leaf.options.map OptionSpec.name).Nodup
  lowest : leaf.subcommands = []
  only : ∀ segment ∈ outer, OnlyLog segment
  suits : Suits leaf last
  fills : Fills leaf last
  lays : ∀ (front : List Segment) (final : Segment),
    front.map Segment.name = outer.map Segment.name → (∀ segment ∈ front, OnlyLog segment) →
    Suits leaf final → Fills leaf final → Lays command (front ++ [final])

theorem exists_leaf {command : Command} {line : List Segment} (legible : Throughout Legible command)
    (shares : Throughout SharesLog command) (lays : Lays command line) :
    ∃ leaf outer last, line = outer ++ [last] ∧ Leaf command leaf outer last := by
  induction lays with
  | @last command segment none suits fills =>
    obtain ⟨here, -⟩ := shares
    obtain ⟨legible, -⟩ := legible
    refine ⟨command, [], segment, rfl, here, legible.names, none, (fun _ member => nomatch member),
      suits, fills, fun front final names _ suits fills => ?_⟩
    rw [List.map_nil, List.map_eq_nil_iff] at names
    subst names
    exact .last none suits fills
  | @onward command subcommand segment inner member suits rest ih =>
    obtain ⟨here, below⟩ := shares
    obtain ⟨-, legible⟩ := legible
    obtain ⟨leaf, outer, last, rfl, found⟩ :=
      ih (legible subcommand member) (below subcommand member)
    cases here with
    | last => cases member
    | group name subcommands =>
      obtain ⟨named, first⟩ := suits_group_iff.1 suits
      refine ⟨leaf, segment :: outer, last, rfl, found.shares, found.names, found.lowest,
        List.forall_mem_cons.2 ⟨first, found.only⟩, found.suits, found.fills, ?_⟩
      intro front final names only suitsFinal fillsFinal
      obtain ⟨start, front, rfl, namedStart, names⟩ := List.map_eq_cons_iff.1 names
      obtain ⟨onlyStart, only⟩ := List.forall_mem_cons.1 only
      exact .onward member (suits_group_iff.2 ⟨namedStart.trans named, onlyStart⟩)
        (found.lays front final names only suitsFinal fillsFinal)

/-! ### What is given to all commands together -/

theorem layoutEntries_eq (layout : List Segment) :
    layoutEntries layout = (layoutParts layout).flatMap Part.entries :=
  (List.flatMap_assoc ..).symm

theorem layoutOperands_eq (layout : List Segment) :
    layoutOperands layout = (layoutParts layout).flatMap Part.operands :=
  (List.flatMap_assoc ..).symm

theorem layoutEntries_append (front : List Segment) (last : Segment) :
    layoutEntries (front ++ [last]) = layoutEntries front ++ last.entries := by
  simp [layoutEntries]

theorem eq_of_perm_of_length_le_one {α : Type} {first second : List α}
    (perm : first.Perm second) (few : second.length ≤ 1) : first = second := by
  match second, few with
  | [], _ => exact List.perm_nil.1 perm
  | [value], _ => exact List.perm_singleton.1 perm

theorem valuesOf_perm {first second : List (String × String)} (perm : first.Perm second)
    (name : String) : (valuesOf first name).Perm (valuesOf second name) :=
  (perm.filter _).map _

section Front

variable {front : List Segment} (only : ∀ segment ∈ front, OnlyLog segment)

include only

theorem shared_of_front {segment : Segment} (member : segment ∈ front) {part : Part}
    (inside : part ∈ segment.parts) : Shared part := by
  cases (only segment member).fits part inside with
  | option log named spelled =>
    subst named
    exact .option log _ _
  | operand takes => cases takes

theorem values_of_front {name : String} (own : ∀ log ∈ logOptions, name ≠ log.name) :
    valuesOf (layoutEntries front) name = [] := by
  refine List.eq_nil_iff_forall_not_mem.2 fun value inside => ?_
  obtain ⟨segment, member, entry⟩ := List.mem_flatMap.1 (mem_valuesOf.1 inside)
  obtain ⟨log, given, named⟩ := (only segment member).allowed.known _ entry
  exact own log given named.symm

theorem values_of_own {name : String} (own : ∀ log ∈ logOptions, name ≠ log.name)
    (last : Segment) : valuesOf (layoutEntries (front ++ [last])) name =
      valuesOf last.entries name := by
  rw [layoutEntries_append, valuesOf_append, values_of_front only own, List.nil_append]

theorem operands_of_front (last : Segment) :
    layoutOperands (front ++ [last]) = last.operands := by
  have none : layoutOperands front = [] := by
    refine List.eq_nil_iff_forall_not_mem.2 fun text inside => ?_
    obtain ⟨segment, member, given⟩ := List.mem_flatMap.1 inside
    obtain ⟨part, stands, operand⟩ := List.mem_flatMap.1 given
    cases shared_of_front only member stands
    cases operand
  unfold layoutOperands at none ⊢
  rw [List.flatMap_append, none]
  simp

end Front

section Leaves

variable {command leaf : Command} {outer : List Segment} {last : Segment}
  (found : Leaf command leaf outer last)

include found

theorem Leaf.log {log : OptionSpec} (member : log ∈ logOptions) : log ∈ leaf.options := by
  cases found.shares with
  | group => exact member
  | last => exact List.mem_append_right _ member

theorem Leaf.cases {option : OptionSpec} (member : option ∈ leaf.options) :
    option ∈ logOptions ∨ (∀ log ∈ logOptions, option.name ≠ log.name) ∧
      (option.many = true → option.name ∈ repeatable) := by
  cases found.shares with
  | group => exact .inl member
  | last apart single =>
    rcases List.mem_append.1 member with own | log
    · exact .inr ⟨apart option own, single option own⟩
    · exact .inl log

theorem Leaf.once {log : OptionSpec} (member : log ∈ logOptions) :
    ∀ segment ∈ outer ++ [last], (valuesOf segment.entries log.name).length ≤ 1 := by
  have single : log.many = false := (show ∀ log ∈ logOptions, log.many = false by decide) log member
  intro segment inside
  rcases List.mem_append.1 inside with front | final
  · exact (found.only segment front).allowed.single log member single
  · rw [List.mem_singleton.1 final]
    exact found.suits.allowed.single log (found.log member) single

theorem Leaf.fits {part : Part} (member : part ∈ layoutParts (outer ++ [last])) :
    Fits leaf part := by
  obtain ⟨segment, stands, inside⟩ := List.mem_flatMap.1 member
  rcases List.mem_append.1 stands with front | final
  · cases (found.only segment front).fits part inside with
    | option log named spelled => exact .option (found.log log) named spelled
    | operand takes => cases takes
  · rw [List.mem_singleton.1 final] at inside
    exact found.suits.fits part inside

theorem Leaf.faultless {option : OptionSpec} (member : option ∈ leaf.options) {value : String}
    (given : value ∈ valuesOf (layoutEntries (outer ++ [last])) option.name) :
    option.fault value = none := by
  rw [layoutEntries_append, valuesOf_append, List.mem_append] at given
  rcases given with front | final
  · obtain ⟨segment, stands, entry⟩ := List.mem_flatMap.1 (mem_valuesOf.1 front)
    have allowed := (found.only segment stands).allowed
    obtain ⟨log, shared, named⟩ := allowed.known _ entry
    have same : log = option :=
      List.inj_on_of_nodup_map found.names (found.log shared) member named
    rw [← same]
    exact allowed.faultless log shared value (mem_valuesOf.2 (named ▸ entry))
  · exact found.suits.allowed.faultless option member value final

theorem Leaf.fits_group {part : Part} (fits : Fits leaf part) (shared : Shared part)
    (name : String) : Fits (group name []) part := by
  obtain ⟨log, value, words⟩ := shared
  cases fits with
  | option member named spelled =>
    have same := List.inj_on_of_nodup_map found.names member (found.log log) named
    subst same
    exact .option log rfl spelled

end Leaves

theorem known_of_fits {command : Command} {segment : Segment}
    (fits : ∀ part ∈ segment.parts, Fits command part) :
    ∀ entry ∈ segment.entries, ∃ option ∈ command.options, option.name = entry.1 := by
  intro entry inside
  obtain ⟨part, member, gives⟩ := List.mem_flatMap.1 inside
  cases fits part member with
  | option takes named _ =>
    rw [List.mem_singleton.1 gives]
    exact ⟨_, takes, named⟩
  | operand => cases gives

theorem valuesOf_mem_layout {layout : List Segment} {segment : Segment} (member : segment ∈ layout)
    {name value : String} (given : value ∈ valuesOf segment.entries name) :
    value ∈ valuesOf (layoutEntries layout) name :=
  mem_valuesOf.2 (List.mem_flatMap.2 ⟨segment, member, mem_valuesOf.1 given⟩)

/-! ### Other orders -/

section Orders

variable {command leaf : Command} {outer front : List Segment} {last innermost : Segment}
  (found : Leaf command leaf outer last)
  (rearranged : Rearranged (outer ++ [last]) (front ++ [innermost]))
  (once : ∀ segment ∈ front ++ [innermost], ∀ log ∈ logOptions,
    (valuesOf segment.entries log.name).length ≤ 1)

include rearranged in
theorem entries_perm :
    (layoutEntries (front ++ [innermost])).Perm (layoutEntries (outer ++ [last])) := by
  rw [layoutEntries_eq, layoutEntries_eq]
  exact rearranged.parts.flatMap_right _

include rearranged in
theorem operands_perm :
    (layoutOperands (front ++ [innermost])).Perm (layoutOperands (outer ++ [last])) := by
  rw [layoutOperands_eq, layoutOperands_eq]
  exact rearranged.parts.flatMap_right _

include rearranged in
theorem names_eq : front.map Segment.name = outer.map Segment.name ∧
    innermost.name = last.name := by
  have names := rearranged.names
  rw [List.map_append, List.map_append] at names
  obtain ⟨first, second⟩ := List.append_inj' names rfl
  exact ⟨first, List.head_eq_of_cons_eq second⟩

include found rearranged

theorem fits_of_rearranged {segment : Segment} (member : segment ∈ front ++ [innermost])
    {part : Part} (inside : part ∈ segment.parts) : Fits leaf part :=
  found.fits (rearranged.parts.subset (List.mem_flatMap.2 ⟨segment, member, inside⟩))

theorem faultless_of_rearranged {segment : Segment} (member : segment ∈ front ++ [innermost])
    {option : OptionSpec} (takes : option ∈ leaf.options) {value : String}
    (given : value ∈ valuesOf segment.entries option.name) : option.fault value = none :=
  found.faultless takes
    ((valuesOf_perm (entries_perm rearranged) _).subset (valuesOf_mem_layout member given))

include once

theorem front_onlyLog : ∀ segment ∈ front, OnlyLog segment := by
  intro segment member
  have inside : segment ∈ front ++ [innermost] := List.mem_append_left _ member
  have shared : ∀ part ∈ segment.parts, Shared part := by
    refine rearranged.own segment ?_
    rw [List.dropLast_concat]
    exact member
  have fits : ∀ part ∈ segment.parts, Fits (group segment.name []) part := fun part stands =>
    found.fits_group (fits_of_rearranged found rearranged inside stands) (shared part stands) _
  refine ⟨rfl, fits, ⟨known_of_fits fits, fun log given value entry => ?_,
    fun log given _ => once segment inside log given⟩, ?_⟩
  · exact faultless_of_rearranged found rearranged inside (found.log given) entry
  · have none : segment.operands = [] := by
      refine List.eq_nil_iff_forall_not_mem.2 fun text given => ?_
      obtain ⟨part, stands, operand⟩ := List.mem_flatMap.1 given
      cases shared part stands
      cases operand
    rw [none]
    exact Nat.zero_le 1

/-- The innermost command is given its own options as before, if in another order. -/
theorem own_values_perm {name : String} (own : ∀ log ∈ logOptions, name ≠ log.name) :
    (valuesOf innermost.entries name).Perm (valuesOf last.entries name) := by
  have only := front_onlyLog found rearranged once
  rw [← values_of_own only own innermost, ← values_of_own found.only own last]
  exact valuesOf_perm (entries_perm rearranged) name

theorem own_operands_perm : innermost.operands.Perm last.operands := by
  rw [← operands_of_front (front_onlyLog found rearranged once) innermost,
    ← operands_of_front found.only last]
  exact operands_perm rearranged

theorem innermost_suits : Suits leaf innermost := by
  have inside : innermost ∈ front ++ [innermost] :=
    List.mem_append_right _ (List.mem_singleton_self _)
  have fits : ∀ part ∈ innermost.parts, Fits leaf part := fun part stands =>
    fits_of_rearranged found rearranged inside stands
  refine ⟨(names_eq rearranged).2.trans found.suits.name, fits, ⟨known_of_fits fits,
    fun option takes value given => ?_, fun option takes single => ?_⟩, ?_⟩
  · exact faultless_of_rearranged found rearranged inside takes given
  · rcases found.cases takes with log | ⟨own, _⟩
    · exact once innermost inside option log
    · rw [(own_values_perm found rearranged once own).length_eq]
      exact found.suits.allowed.single option takes single
  · rw [(own_operands_perm found rearranged once).length_eq]
    exact found.suits.single

theorem innermost_fills : Fills leaf innermost := by
  refine ⟨fun option takes needed => ?_, fun takes => ?_⟩
  · have given := found.fills.needed option takes needed
    rcases found.cases takes with log | ⟨own, _⟩
    · have free : ∀ log ∈ logOptions, log.needed = false := by decide
      cases (free option log).symm.trans needed
    · have perm := own_values_perm found rearranged once own
      exact fun none => given (List.nil_perm.1 (none ▸ perm))
  · have perm := own_operands_perm found rearranged once
    exact fun none => found.fills.operand takes (List.nil_perm.1 (none ▸ perm))

theorem own_values_eq {name : String} (own : ∀ log ∈ logOptions, name ≠ log.name) :
    valuesOf innermost.entries name = valuesOf last.entries name := by
  have perm := own_values_perm found rearranged once own
  by_cases repeated : name ∈ repeatable
  · have only := front_onlyLog found rearranged once
    rw [← values_of_own only own innermost, ← values_of_own found.only own last]
    exact rearranged.order name repeated
  · -- An option that is not repeated has at most one value, and that has only one order.
    refine eq_of_perm_of_length_le_one perm ?_
    by_cases takes : ∃ option ∈ leaf.options, option.name = name
    · obtain ⟨option, member, rfl⟩ := takes
      refine found.suits.allowed.single option member ?_
      rcases found.cases member with log | ⟨_, many⟩
      · exact absurd rfl (own option log)
      · exact Bool.eq_false_iff.2 fun again => repeated (many again)
    · have none : valuesOf last.entries name = [] := by
        refine List.eq_nil_iff_forall_not_mem.2 fun value given => ?_
        exact takes (found.suits.allowed.known _ (mem_valuesOf.1 given))
      rw [none]
      exact Nat.zero_le 1

theorem own_operands_eq : innermost.operands = last.operands :=
  eq_of_perm_of_length_le_one (own_operands_perm found rearranged once) found.suits.single

end Orders

/-! ### What is asked for -/

theorem valueOf?_congr {first second : List (String × String)} {name : String}
    (same : valuesOf first name = valuesOf second name) :
    valueOf? first name = valueOf? second name := by
  rw [valueOf?_eq, valueOf?_eq, same]

/-- A task depends only on the options of its command that are no log options. -/
theorem task?_congr (names : List String) {first second : List (String × String)}
    (same : ∀ name, (∀ log ∈ logOptions, name ≠ log.name) →
      valuesOf first name = valuesOf second name) : task? names first = task? names second := by
  have value : ∀ name, (∀ log ∈ logOptions, name ≠ log.name) →
      valueOf? first name = valueOf? second name :=
    fun name own => valueOf?_congr (same name own)
  unfold task? valueOf
  rw [value "public-host" (by decide), value "service-name" (by decide),
    value "service-namespace" (by decide), value "service-port" (by decide),
    value "path-prefix-match" (by decide), same "gateway" (by decide),
    same "gateway-label" (by decide)]

/-- Of an option that no command is given twice, the innermost value counts. -/
theorem sharedValue?_eq {layout : List Segment} {name : String}
    (once : ∀ segment ∈ layout, (valuesOf segment.entries name).length ≤ 1) :
    sharedValue? (layout.map Segment.input) name =
      (valuesOf (layoutEntries layout) name).getLast? := by
  induction layout with
  | nil => rfl
  | cons segment layout ih =>
    obtain ⟨few, once⟩ := List.forall_mem_cons.1 once
    have here : valueOf? segment.entries name = (valuesOf segment.entries name).getLast? := by
      rw [valueOf?_eq]
      match valuesOf segment.entries name, few with
      | [], _ => rfl
      | [value], _ => rfl
    have later : layoutEntries (segment :: layout) = segment.entries ++ layoutEntries layout :=
      List.flatMap_cons
    rw [later, valuesOf_append, List.getLast?_append, ← ih once, ← here]
    unfold sharedValue?
    rw [List.map_cons, List.reverse_cons, List.findSome?_append, List.findSome?_singleton]
    rfl

/-- What a line asks for is read off its last command, but for the log options. -/
theorem ofInputs?_layout (preset : Option String) (front : List Segment) (last : Segment) :
    Invocation.ofInputs? preset ((front ++ [last]).map Segment.input) =
      (task? (((front ++ [last]).map Segment.name).drop 1) last.entries).map (fun task => {
        logFilter := ((sharedValue? ((front ++ [last]).map Segment.input) "log-level").or
          preset).getD defaultLogFilter
        logFormat :=
          if sharedValue? ((front ++ [last]).map Segment.input) "log-format" = some "json" then
            .json
          else .plain
        task
        source := last.operands.head?.getD (valueOf last.entries "oas")
        format := if valueOf? last.entries "output-format" = some "json" then .json else .yaml
        output := valueOf? last.entries "output" }) := by
  have innermost : ((front ++ [last]).map Segment.input).getLast? = some last.input := by simp
  have names : (((front ++ [last]).map Segment.input).drop 1).map CommandInput.name =
      ((front ++ [last]).map Segment.name).drop 1 := by
    rw [List.map_drop, List.map_map]
    rfl
  unfold Invocation.ofInputs?
  rw [innermost, names]
  change (task? _ last.entries >>= _) = _
  cases task? (((front ++ [last]).map Segment.name).drop 1) last.entries <;> rfl

/-- In another order the same is asked for, but for the form of the logs. -/
theorem invocation_of_rearranged {command leaf : Command} {outer front : List Segment}
    {last innermost : Segment} (found : Leaf command leaf outer last)
    (rearranged : Rearranged (outer ++ [last]) (front ++ [innermost]))
    (keeps : KeepsLog (outer ++ [last]) (front ++ [innermost])) {preset : Option String}
    {invocation : Invocation}
    (asked : Invocation.ofInputs? preset ((outer ++ [last]).map Segment.input) =
      some invocation) :
    ∃ format, Invocation.ofInputs? preset ((front ++ [innermost]).map Segment.input) =
      some { invocation with logFormat := format } := by
  have same : ∀ name, (∀ log ∈ logOptions, name ≠ log.name) →
      valuesOf innermost.entries name = valuesOf last.entries name :=
    fun name own => own_values_eq found rearranged keeps.once own
  have value : ∀ name, (∀ log ∈ logOptions, name ≠ log.name) →
      valueOf? innermost.entries name = valueOf? last.entries name :=
    fun name own => valueOf?_congr (same name own)
  have filter : sharedValue? ((front ++ [innermost]).map Segment.input) "log-level" =
      sharedValue? ((outer ++ [last]).map Segment.input) "log-level" := by
    have before : ∀ segment ∈ outer ++ [last],
        (valuesOf segment.entries "log-level").length ≤ 1 := found.once (.head _)
    have after : ∀ segment ∈ front ++ [innermost],
        (valuesOf segment.entries "log-level").length ≤ 1 :=
      fun segment member => keeps.once segment member _ (.head _)
    rw [sharedValue?_eq before, sharedValue?_eq after]
    exact keeps.innermost
  rw [ofInputs?_layout] at asked ⊢
  rw [rearranged.names, task?_congr _ same, filter, own_operands_eq found rearranged keeps.once,
    value "output-format" (by decide), value "output" (by decide)]
  unfold valueOf at asked ⊢
  rw [value "oas" (by decide)]
  cases task : task? (((outer ++ [last]).map Segment.name).drop 1) last.entries with
  | none =>
    rw [task] at asked
    cases asked
  | some task' =>
    rw [task] at asked
    cases asked
    exact ⟨_, rfl⟩

theorem lays_of_rearranged {command leaf : Command} {outer front : List Segment}
    {last innermost : Segment} (found : Leaf command leaf outer last)
    (rearranged : Rearranged (outer ++ [last]) (front ++ [innermost]))
    (keeps : KeepsLog (outer ++ [last]) (front ++ [innermost])) :
    Lays command (front ++ [innermost]) :=
  found.lays front innermost (names_eq rearranged).1
    (front_onlyLog found rearranged keeps.once) (innermost_suits found rearranged keeps.once)
    (innermost_fills found rearranged keeps.once)

theorem gateways_of_task {names : List String} {options : List (String × String)}
    {config : Generate.VirtualServiceConfig}
    (asked : task? names options = some (.virtualService config)) :
    config.gateways = valuesOf options "gateway" := by
  unfold task? at asked
  split at asked <;> cases asked
  rfl

theorem gateways_of_made {document : OpenApi.Document} {config : Generate.VirtualServiceConfig}
    {manifest : Mesh.VirtualService}
    (made : Generate.virtualService document config = .ok manifest) :
    manifest.spec.gateways = config.gateways := by
  unfold Generate.virtualService at made
  obtain ⟨_, _, made⟩ := bind_eq_ok made
  obtain ⟨_, _, made⟩ := bind_eq_ok made
  cases made
  rfl

theorem gateways_of_asked {preset : Option String} {front : List Segment} {last : Segment}
    (only : ∀ segment ∈ front, OnlyLog segment) {invocation : Invocation}
    {config : Generate.VirtualServiceConfig}
    (asked : Invocation.ofInputs? preset ((front ++ [last]).map Segment.input) = some invocation)
    (task : invocation.task = .virtualService config) :
    config.gateways = valuesOf (layoutEntries (front ++ [last])) "gateway" := by
  rw [ofInputs?_layout] at asked
  obtain ⟨made, found, rfl⟩ := Option.map_eq_some_iff.1 asked
  cases task
  rw [values_of_own only (by decide), gateways_of_task found]

theorem exists_innermost {line other : List Segment} (rearranged : Rearranged line other)
    (some : line ≠ []) : ∃ front innermost, other = front ++ [innermost] := by
  rcases List.eq_nil_or_concat' other with rfl | ⟨front, innermost, rfl⟩
  · have names := rearranged.names
    rw [List.map_nil, eq_comm, List.map_eq_nil_iff] at names
    exact absurd names some
  · exact ⟨front, innermost, rfl⟩

theorem read_of_lays {layout : List Segment} (lays : Lays program layout) (preset : Bool) :
    read program preset (layoutWords layout) = .ok (layout.map Segment.input) :=
  readCommand_of_lays program_legible lays (length_le_layoutWords layout)

/-! ### Lines that are written out -/

def attachedPart (name value : String) : Part :=
  .option name value ["--" ++ name ++ "=" ++ value]

def apartPart (name value : String) : Part :=
  .option name value ["--" ++ name, value]

theorem fits_attached {command : Command} {name : String} (value : String)
    (takes : ∃ option ∈ command.options, option.name = name ∧ option.takesValue = true) :
    Fits command (attachedPart name value) := by
  obtain ⟨option, member, rfl, takes⟩ := takes
  exact .option member rfl (.attached takes .name)

theorem fits_apart {command : Command} {name value : String}
    (takes : ∃ option ∈ command.options, option.name = name ∧ option.takesValue = true)
    (stands : value.toList.head? ≠ some '-' ∨ value = "-") :
    Fits command (apartPart name value) := by
  obtain ⟨option, member, rfl, takes⟩ := takes
  refine .option member rfl (.apart takes .name fun rest begins => ?_)
  rcases stands with other | rfl
  · exact absurd (congrArg List.head? begins) other
  · exact (List.cons.inj begins).2.symm

theorem shared_logLevel (value : String) : Shared (apartPart "log-level" value) :=
  .option (.head _) value _

theorem suits_of_fits {command : Command} {segment : Segment} (name : segment.name = command.name)
    (fits : ∀ part ∈ segment.parts, Fits command part)
    (faultless : ∀ option ∈ command.options, ∀ value ∈ valuesOf segment.entries option.name,
      option.fault value = none)
    (single : ∀ option ∈ command.options, option.many = false →
      (valuesOf segment.entries option.name).length ≤ 1)
    (operands : segment.operands.length ≤ 1) : Suits command segment :=
  ⟨name, fits, ⟨known_of_fits fits, faultless, single⟩, operands⟩

def meshLine (outermost innermost : List Part) : List Segment :=
  [⟨"kuadrantctl", outermost⟩, ⟨"generate", []⟩, ⟨"istio", []⟩, ⟨"virtualservice", innermost⟩]

def meshParts : List Part :=
  [attachedPart "gateway" "b", attachedPart "gateway" "a", apartPart "oas" "-",
    apartPart "public-host" "a.io", attachedPart "service-name" "pets",
    attachedPart "service-namespace" "", apartPart "log-level" "warn"]

theorem meshLine_lays : Lays program (meshLine [] meshParts) := by
  refine .onward (.head _) (suits_of_fits rfl (fun _ none => nomatch none) (by decide) (by decide)
    (by decide)) (.onward (.tail _ (.tail _ (.head _))) (suits_of_fits rfl
    (fun _ none => nomatch none) (by decide) (by decide) (by decide)) (.onward (.head _)
    (suits_of_fits rfl (fun _ none => nomatch none) (by decide) (by decide) (by decide))
    (.last rfl (suits_of_fits rfl ?_ (by decide) (by decide) (by decide))
      ⟨by decide, by decide⟩)))
  unfold meshParts
  simp only [List.forall_mem_cons]
  exact ⟨fits_attached _ (by decide), fits_attached _ (by decide),
    fits_apart (by decide) (by decide), fits_apart (by decide) (by decide),
    fits_attached _ (by decide), fits_attached _ (by decide),
    fits_apart (by decide) (by decide), fun _ none => nomatch none⟩

def meshLineAgain : List Segment :=
  meshLine [apartPart "log-level" "warn"] [attachedPart "service-namespace" "",
    attachedPart "gateway" "b", apartPart "oas" "-", attachedPart "service-name" "pets",
    apartPart "public-host" "a.io", attachedPart "gateway" "a"]

theorem meshLine_rearranged : Rearranged (meshLine [] meshParts) meshLineAgain where
  names := rfl
  parts := by decide
  own := by
    unfold meshLineAgain meshLine
    simp only [List.dropLast, List.forall_mem_cons]
    exact ⟨⟨shared_logLevel _, List.forall_mem_nil _⟩, List.forall_mem_nil _,
      List.forall_mem_nil _, List.forall_mem_nil _⟩
  order := by decide

theorem meshLine_keepsLog : KeepsLog (meshLine [] meshParts) meshLineAgain where
  once := by decide
  innermost := by decide

def petLine (outermost inner innermost : List String) : List Segment :=
  [⟨"kuadrantctl", outermost.map (apartPart "log-level")⟩,
    ⟨"api", inner.map (apartPart "log-level")⟩,
    ⟨"generate", innermost.map (apartPart "log-level") ++ [.operand "pets.yaml"]⟩]

def petsWorkspace : Workspace :=
  ⟨none, .ofList [("pets.yaml", "openapi: 3.0.2\ninfo:\n  title: Pets\n  version: 1.0.0\n")]⟩

theorem petLine_shared (outermost inner innermost : List String) :
    ∀ segment ∈ (petLine outermost inner innermost).dropLast,
      ∀ part ∈ segment.parts, Shared part := by
  intro segment member part inside
  have given : ∃ values : List String, part ∈ values.map (apartPart "log-level") := by
    unfold petLine at member
    simp only [List.dropLast, List.mem_cons, List.not_mem_nil, or_false] at member
    rcases member with rfl | rfl <;> exact ⟨_, inside⟩
  obtain ⟨values, inside⟩ := given
  obtain ⟨value, _, rfl⟩ := List.mem_map.1 inside
  exact shared_logLevel value

theorem petLine_lays : Lays program (petLine ["a=b=c"] ["info"] []) := by
  refine .onward (.tail _ (.head _)) (suits_of_fits rfl ?_ (by decide) (by decide) (by decide))
    (.onward (.head _) (suits_of_fits rfl ?_ (by decide) (by decide) (by decide))
      (.last rfl (suits_of_fits rfl ?_ (by decide) (by decide) (by decide))
        ⟨by decide, by decide⟩))
  · exact List.forall_mem_singleton.2 (fits_apart (by decide) (by decide))
  · exact List.forall_mem_singleton.2 (fits_apart (by decide) (by decide))
  · refine List.forall_mem_singleton.2 (.operand rfl fun rest begins => ?_)
    have other : "pets.yaml".toList.head? ≠ some '-' := by decide
    exact absurd (congrArg List.head? begins) other

/-- A command line that is accepted and has no lone dashes can be laid out. However that is done,
the run stays the same when the options are put in another order, or log options with another
command, unless that gives a command one of these twice or brings another log filter to the
innermost place. The gateways of a VirtualService stand in it as they were given. -/
theorem option_order_irrelevant {preset : Option String} {arguments : List String}
    {inputs : List CommandInput} (accepted : read program preset.isSome arguments = .ok inputs)
    (undashed : "--" ∉ arguments) :
    (∃ line, Lays program line ∧ layoutWords line = arguments) ∧
    ∀ line other, Lays program line → layoutWords line = arguments → Rearranged line other →
      KeepsLog line other →
      (∀ workspace, ∃ report, run preset arguments workspace = .ok report ∧
        run preset (layoutWords other) workspace = .ok report) ∧
      ∀ invocation config document manifest,
        Invocation.ofArguments preset (layoutWords other) = .ok invocation →
        invocation.task = .virtualService config →
        Generate.virtualService document config = .ok manifest →
        manifest.spec.gateways = valuesOf (layoutEntries line) "gateway" := by
  refine ⟨?_, fun line other lays words rearranged keeps => ?_⟩
  · obtain ⟨line, lays, words, _⟩ := (read_eq_ok_iff undashed).1 accepted
    exact ⟨line, lays, words⟩
  subst words
  obtain ⟨leaf, outer, last, rfl, found⟩ :=
    exists_leaf program_legible program_sharesLog lays
  obtain ⟨front, innermost, rfl⟩ := exists_innermost rearranged (by simp)
  have reads := read_of_lays lays preset.isSome
  have readsOther := read_of_lays (lays_of_rearranged found rearranged keeps) preset.isSome
  obtain ⟨_, invocation, _, asked, _⟩ : Accepted preset ((outer ++ [last]).map Segment.input) :=
    accepted_of_leads (leads_of_read reads)
  obtain ⟨format, askedOther⟩ := invocation_of_rearranged found rearranged keeps asked
  constructor
  · intro workspace
    exact ⟨invocation.report workspace, run_eq_ok reads asked workspace,
      run_eq_ok readsOther askedOther workspace⟩
  · intro again config document manifest given task made
    cases (ofArguments_eq_ok readsOther askedOther).symm.trans given
    rw [gateways_of_made made, gateways_of_asked found.only asked task]

theorem meshLine_order_irrelevant :
    (∃ inputs, read program (none : Option String).isSome (layoutWords (meshLine [] meshParts)) =
      .ok inputs) ∧
    "--" ∉ layoutWords (meshLine [] meshParts) ∧
    ∀ workspace, ∃ report, run none (layoutWords (meshLine [] meshParts)) workspace = .ok report ∧
      run none (layoutWords meshLineAgain) workspace = .ok report := by
  have reads := read_of_lays meshLine_lays (none : Option String).isSome
  have undashed : "--" ∉ layoutWords (meshLine [] meshParts) := by decide
  refine ⟨⟨_, reads⟩, undashed, ?_⟩
  exact ((option_order_irrelevant reads undashed).2 _ _ meshLine_lays rfl meshLine_rearranged
    meshLine_keepsLog).1

/-- Where two commands are given a log filter each, the innermost counts, and none is given both. -/
theorem logLevel_order_matters :
    Lays program (petLine ["a=b=c"] ["info"] []) ∧
    "--" ∉ layoutWords (petLine ["a=b=c"] ["info"] []) ∧
    Rearranged (petLine ["a=b=c"] ["info"] []) (petLine [] ["a=b=c", "info"] []) ∧
    Rearranged (petLine ["a=b=c"] ["info"] []) (petLine [] ["info"] ["a=b=c"]) ∧
    (run none (layoutWords (petLine ["a=b=c"] ["info"] [])) petsWorkspace).toOption.map
      Report.exit = some 0 ∧
    run none (layoutWords (petLine [] ["a=b=c", "info"] [])) petsWorkspace =
      .error .argumentConflict ∧
    (run none (layoutWords (petLine [] ["info"] ["a=b=c"])) petsWorkspace).toOption.map
      Report.exit = some 1 := by
  refine ⟨petLine_lays, by decide, ⟨rfl, by decide, petLine_shared _ _ _, by decide⟩,
    ⟨rfl, by decide, petLine_shared _ _ _, by decide⟩, ?_, ?_, ?_⟩
  · decide +kernel
  · decide +kernel
  · decide +kernel

end ApiManifest.CommandLine
