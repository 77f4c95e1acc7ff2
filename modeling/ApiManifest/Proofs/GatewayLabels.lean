import ApiManifest.Proofs.Relabelling

/-!
Gateway labels from the command line to the AuthorizationPolicy. A label is accepted if it has an
equals sign that is not its first character, and the policy selects workloads by what stands before
that sign, with what follows it in the last label that begins so.
-/

namespace ApiManifest.CommandLine

open OpenApi (Document)
open Resolution (bind_eq_ok)

/-- The label has an equals sign, and something in front of it. -/
def WellFormed (text : String) : Prop :=
  '=' ∈ text.toList ∧ text.toList.head? ≠ some '='

instance (text : String) : Decidable (WellFormed text) :=
  inferInstanceAs (Decidable (_ ∧ _))

/-- The dictionary has what stands before the first equals sign of a label, and under it what
follows that sign in the last such label. -/
structure KeepsLast (texts : List String) (labels : SortedDict String) : Prop where
  keys : ∀ key, key ∈ labels.entries.map Prod.fst ↔
    '=' ∉ key.toList ∧ ∃ value, key ++ "=" ++ value ∈ texts
  values : ∀ key value, labels.get? key = some value ↔
    '=' ∉ key.toList ∧ ∃ earlier later, texts = earlier ++ (key ++ "=" ++ value) :: later ∧
      ∀ other, key ++ "=" ++ other ∉ later

/-- The manifest is written with these labels as its selector. -/
def Emits (manifest : Wire) (labels : SortedDict String) : Prop :=
  ∃ head rest, manifest = .record (head ++ [("spec", .record (("selector", .record [("matchLabels",
    .record (labels.entries.map (fun entry => (entry.1, .string entry.2))))]) :: rest))])

/-! ### Labels as keys and values -/

theorem toList_equals (key value : String) :
    (key ++ "=" ++ value).toList = key.toList ++ '=' :: value.toList := by
  simp

theorem label?_of_equals {key : String} (plain : '=' ∉ key.toList) (value : String) :
    label? (key ++ "=" ++ value) = if key = "" then none else some (key, value) := by
  unfold label?
  rw [toList_equals, takeWhile_until plain, dropWhile_until plain]
  simp

theorem label?_of_no_equals {text : String} (plain : '=' ∉ text.toList) : label? text = none := by
  have stays : ∀ c ∈ text.toList, decide (c ≠ '=') = true :=
    fun c inside => decide_eq_true fun same => plain (same ▸ inside)
  unfold label?
  rw [List.dropWhile_eq_nil_iff.2 stays]

theorem exists_equals {text : String} (inside : '=' ∈ text.toList) :
    ∃ key value, text = key ++ "=" ++ value ∧ '=' ∉ key.toList := by
  obtain ⟨key, value, whole, plain⟩ := List.eq_append_cons_of_mem inside
  refine ⟨String.ofList key, String.ofList value, ?_, by rwa [String.toList_ofList]⟩
  rw [← String.toList_inj, toList_equals, String.toList_ofList, String.toList_ofList, whole]

theorem label?_eq_some_iff {text key value : String} :
    label? text = some (key, value) ↔
      text = key ++ "=" ++ value ∧ '=' ∉ key.toList ∧ key ≠ "" := by
  constructor
  · intro read
    by_cases inside : '=' ∈ text.toList
    · obtain ⟨key, value, rfl, plain⟩ := exists_equals inside
      rw [label?_of_equals plain] at read
      split at read
      next => cases read
      next some =>
        cases read
        exact ⟨rfl, plain, some⟩
    · rw [label?_of_no_equals inside] at read
      cases read
  · rintro ⟨rfl, plain, some⟩
    rw [label?_of_equals plain, if_neg some]

theorem key_ne_empty {key value : String} (valid : WellFormed (key ++ "=" ++ value)) :
    key ≠ "" := by
  rintro rfl
  exact valid.2 (by simp)

theorem label?_ne_none_iff {text : String} : label? text ≠ none ↔ WellFormed text := by
  by_cases inside : '=' ∈ text.toList
  · obtain ⟨key, value, rfl, plain⟩ := exists_equals inside
    rw [label?_of_equals plain]
    refine ⟨fun read => ⟨inside, fun first => ?_⟩, fun valid => ?_⟩
    · have some : key ≠ "" := fun empty => read (if_pos empty)
      obtain ⟨c, rest, chars⟩ := List.exists_cons_of_ne_nil (String.toList_eq_nil_iff.not.2 some)
      rw [toList_equals, chars] at first
      rw [chars] at plain
      exact plain (Option.some.inj first ▸ List.mem_cons_self)
    · rw [if_neg (key_ne_empty valid)]
      exact Option.some_ne_none _
  · exact iff_of_false (not_not.2 (label?_of_no_equals inside)) (fun valid => inside valid.1)

theorem keepsLast_ofList {texts : List String} (valid : ∀ text ∈ texts, WellFormed text) :
    KeepsLast texts (.ofList (texts.filterMap label?)) := by
  have values : ∀ key value, (SortedDict.ofList (texts.filterMap label?)).get? key = some value ↔
      '=' ∉ key.toList ∧ ∃ earlier later, texts = earlier ++ (key ++ "=" ++ value) :: later ∧
        ∀ other, key ++ "=" ++ other ∉ later := by
    intro key value
    rw [SortedDict.get?_ofList_filterMap]
    constructor
    · rintro ⟨earlier, text, later, whole, read, last⟩
      obtain ⟨rfl, plain, some⟩ := label?_eq_some_iff.1 read
      refine ⟨plain, earlier, later, whole, fun other inside => last _ inside other ?_⟩
      exact label?_eq_some_iff.2 ⟨rfl, plain, some⟩
    · rintro ⟨plain, earlier, later, whole, last⟩
      have here : key ++ "=" ++ value ∈ texts :=
        whole ▸ List.mem_append_right _ List.mem_cons_self
      have some := key_ne_empty (valid _ here)
      refine ⟨earlier, _, later, whole, label?_eq_some_iff.2 ⟨rfl, plain, some⟩, ?_⟩
      intro text inside other read
      exact last other ((label?_eq_some_iff.1 read).1 ▸ inside)
  refine ⟨fun key => ⟨fun inside => ?_, fun ⟨plain, value, inside⟩ => ?_⟩, values⟩
  · obtain ⟨⟨_, value⟩, member, rfl⟩ := List.mem_map.1 inside
    obtain ⟨text, given, read⟩ := List.mem_filterMap.1 (SortedDict.mem_of_mem_ofList member)
    obtain ⟨rfl, plain, -⟩ := label?_eq_some_iff.1 read
    exact ⟨plain, value, given⟩
  · have read : label? (key ++ "=" ++ value) = some (key, value) :=
      label?_eq_some_iff.2 ⟨rfl, plain, key_ne_empty (valid _ inside)⟩
    have given : (key, value) ∈ texts.filterMap label? := List.mem_filterMap.2 ⟨_, inside, read⟩
    exact SortedDict.mem_keys_ofList given

/-! ### The command that takes labels -/

theorem exists_inputs {preset : Option String} {arguments : List String} {invocation : Invocation}
    (asked : Invocation.ofArguments preset arguments = .ok invocation) :
    ∃ inputs, read program preset.isSome arguments = .ok inputs ∧
      Invocation.ofInputs? preset inputs = some invocation := by
  obtain ⟨inputs, accepted, asked⟩ := bind_eq_ok asked
  refine ⟨inputs, accepted, ?_⟩
  split at asked
  next found =>
    cases asked
    exact found
  next => cases asked

theorem task?_policy (options : List (String × String)) :
    task? ["generate", "istio", "authorizationpolicy"] options =
      some (.authorizationPolicy ⟨valueOf options "public-host",
        .ofList ((valuesOf options labelName).filterMap label?)⟩) :=
  rfl

theorem policy_of_task {names : List String} {options : List (String × String)}
    {config : Generate.AuthorizationPolicyConfig}
    (asked : task? names options = some (.authorizationPolicy config)) :
    names = ["generate", "istio", "authorizationpolicy"] ∧ config =
      ⟨valueOf options "public-host", .ofList ((valuesOf options labelName).filterMap label?)⟩ := by
  unfold task? at asked
  split at asked <;> cases asked
  exact ⟨rfl, rfl⟩

theorem operand_of_leads {command : Command} {inputs : List CommandInput}
    (operands : Throughout (fun command => command.operand = true → command.name = "generate")
      command)
    (leads : Leads command inputs) {input : CommandInput} (last : inputs.getLast? = some input)
    (other : input.name ≠ "generate") : input.operand = none := by
  induction leads with
  | last _ complete =>
    obtain ⟨takes, -⟩ := operands
    cases last
    have operand := complete.operand
    rw [Bool.eq_false_iff.2 fun here => other (complete.name.trans (takes here))] at operand
    simpa using operand
  | onward member _ rest ih =>
    obtain ⟨-, below⟩ := operands
    refine ih (below _ member) ?_
    cases rest <;> exact last

def labelling (invocation : Invocation) (config : Generate.AuthorizationPolicyConfig)
    (labels : SortedDict String) : Invocation :=
  { invocation with task := .authorizationPolicy { config with gatewayLabels := labels } }

section Policies

variable {preset : Option String} {inputs : List CommandInput} {invocation : Invocation}
  {config : Generate.AuthorizationPolicyConfig}

theorem bare_of_policy (leads : Leads program inputs)
    (asked : Invocation.ofInputs? preset inputs = some invocation)
    (task : invocation.task = .authorizationPolicy config) :
    ∀ input, inputs.getLast? = some input → input.operand = none := by
  intro input last
  have operands : Throughout (fun command => command.operand = true → command.name = "generate")
      program := throughout_of_all program (by decide +kernel)
  refine operand_of_leads operands leads last ?_
  obtain ⟨_, given, asked⟩ := Option.bind_eq_some_iff.1 asked
  cases last.symm.trans given
  obtain ⟨_, made, same⟩ := Option.bind_eq_some_iff.1 asked
  cases same
  cases task
  obtain ⟨names, -⟩ := policy_of_task made
  cases inputs with
  | nil => cases last
  | cons first rest =>
    have ends := congrArg List.getLast? (show rest.map CommandInput.name = _ from names)
    rw [List.getLast?_map] at ends
    obtain ⟨final, found, named⟩ := Option.map_eq_some_iff.1 ends
    rw [List.getLast?_cons, found] at last
    cases last
    change final.name ≠ "generate"
    rw [named]
    decide

theorem valueOf?_exchange (exchange : String → String) (segment : Segment) {name : String}
    (unlabelled : name ≠ labelName) :
    valueOf? (segment.exchange exchange).entries name = valueOf? segment.entries name := by
  rw [Segment.entries_exchange]
  exact valueOf?_congr (valuesOf_other exchange segment.entries unlabelled)

theorem sharedValue?_exchange (exchange other : String → String) (template : List Segment)
    {name : String} (unlabelled : name ≠ labelName) :
    sharedValue? ((template.map (Segment.exchange other)).map Segment.input) name =
      sharedValue? ((template.map (Segment.exchange exchange)).map Segment.input) name := by
  have value : ∀ change : String → String, ∀ segment : Segment,
      valueOf? (segment.exchange change).input.options name = valueOf? segment.entries name :=
    fun change segment => valueOf?_exchange change segment unlabelled
  unfold sharedValue?
  simp only [← List.map_reverse, List.findSome?_map, Function.comp_def, value]

theorem exists_last {exchange : String → String} {words : List Word} {template : List Segment}
    (relabels : Relabels exchange words inputs template) :
    ∃ front last, template = front ++ [last] ∧
      valuesOf last.entries labelName = labelTexts words := by
  obtain ⟨_, _, _, split, found⟩ :=
    exists_leaf program_legible program_sharesLog relabels.lays
  obtain ⟨front, rest, rfl, rfl, single⟩ := List.map_eq_append_iff.1 split
  obtain ⟨last, rfl, rfl⟩ := List.map_eq_singleton_iff.1 single
  have none : valuesOf (layoutEntries front) labelName = [] := by
    have mapped : valuesOf (layoutEntries (front.map (Segment.exchange exchange))) labelName =
        [] := values_of_front found.only (by decide)
    rw [layoutEntries_exchange, valuesOf_label] at mapped
    exact List.map_eq_nil_iff.1 mapped
  refine ⟨front, last, rfl, ?_⟩
  rw [← relabels.labels, layoutEntries_append, valuesOf_append, none, List.nil_append]

theorem asked_exchange {exchange : String → String} {words : List Word} {template : List Segment}
    (relabels : Relabels exchange words inputs template)
    (asked : Invocation.ofInputs? preset inputs = some invocation)
    (task : invocation.task = .authorizationPolicy config) (other : String → String) :
    Invocation.ofInputs? preset ((template.map (Segment.exchange other)).map Segment.input) =
      some (labelling invocation config
        (.ofList (((labelTexts words).map other).filterMap label?))) := by
  obtain ⟨front, last, rfl, labels⟩ := exists_last relabels
  have names : ∀ change : String → String, ((front ++ [last]).map (Segment.exchange change)).map
      Segment.name = (front ++ [last]).map Segment.name := by
    intro change
    rw [List.map_map]
    rfl
  have value : ∀ name, name ≠ labelName →
      valueOf? (last.exchange other).entries name =
        valueOf? (last.exchange exchange).entries name := by
    intro name unlabelled
    rw [valueOf?_exchange other last unlabelled, valueOf?_exchange exchange last unlabelled]
  have labelled : valuesOf (last.exchange other).entries labelName =
      (labelTexts words).map other := by
    rw [Segment.entries_exchange, valuesOf_label, labels]
  rw [← relabels.inputs] at asked
  have shared : ∀ name, name ≠ labelName →
      sharedValue? (((front ++ [last]).map (Segment.exchange other)).map Segment.input) name =
        sharedValue? (((front ++ [last]).map (Segment.exchange exchange)).map Segment.input) name :=
    fun name unlabelled => sharedValue?_exchange exchange other (front ++ [last]) unlabelled
  have laid : ∀ change : String → String, (front ++ [last]).map (Segment.exchange change) =
      front.map (Segment.exchange change) ++ [last.exchange change] := fun _ => List.map_append
  rw [laid, ofInputs?_layout, ← laid, names] at asked ⊢
  obtain ⟨made, policy, rfl⟩ := Option.map_eq_some_iff.1 asked
  cases task
  obtain ⟨path, rfl⟩ := policy_of_task policy
  rw [path, task?_policy, shared "log-level" (by decide), shared "log-format" (by decide), labelled,
    Segment.operands_exchange, Segment.operands_exchange]
  simp only [labelling, valueOf, value "public-host" (by decide), value "oas" (by decide),
    value "output-format" (by decide), value "output" (by decide), Option.map_some]

theorem output_of_policy (leads : Leads program inputs)
    (asked : Invocation.ofInputs? preset inputs = some invocation)
    (task : invocation.task = .authorizationPolicy config) : invocation.output = none := by
  obtain ⟨⟨maker, _, _, _, _, _⟩, _, line, again, carries⟩ : Accepted preset inputs :=
    accepted_of_leads leads
  cases asked.symm.trans again
  have kind : maker.kind = "AuthorizationPolicy" := by
    rw [← carries.kind, task]
    rfl
  rw [carries.output]
  cases line.output with
  | standard => rfl
  | file => exact absurd kind (by decide)

/-- The labels are the selector of the policy, and nothing else of it. -/
theorem authorizationPolicy_labels (document : Document)
    (config : Generate.AuthorizationPolicyConfig) (labels : SortedDict String) :
    Generate.authorizationPolicy document { config with gatewayLabels := labels } =
      (Generate.authorizationPolicy document config).map (fun manifest =>
        { manifest with spec := { manifest.spec with selector := some ⟨labels⟩ } }) := by
  unfold Generate.authorizationPolicy
  cases Naming.resourceName document.info.title with
  | error => rfl
  | ok name => cases Resolution.operations document <;> rfl

theorem generate_policy (document : Document) (config : Generate.AuthorizationPolicyConfig) :
    (Task.authorizationPolicy config).generate document =
      (Generate.authorizationPolicy document config).map Manifest.toWire :=
  rfl

theorem emits_of_selector {manifest : Mesh.AuthorizationPolicy} {labels : SortedDict String}
    (selects : manifest.spec.selector = some ⟨labels⟩) : Emits manifest.toWire labels := by
  obtain ⟨metadata, selector, rules, action, provider⟩ := manifest
  cases selects
  exact ⟨[("apiVersion", _), ("kind", _), ("metadata", _)], _, rfl⟩

theorem produce_labelling {document : Document} {manifest : Mesh.AuthorizationPolicy}
    {labels : SortedDict String}
    (made : Generate.authorizationPolicy document { config with gatewayLabels := labels } =
      .ok manifest) : (labelling invocation config labels).produce document =
        .ok (encode invocation.format manifest.toWire) := by
  have generates : (labelling invocation config labels).task.generate document =
      .ok manifest.toWire := by
    rw [labelling, generate_policy, made]
    rfl
  unfold Invocation.produce
  rw [generates]
  rfl

theorem perform_labelling (task : invocation.task = .authorizationPolicy config)
    (output : invocation.output = none) {workspace : Workspace} {delivery : Delivery}
    (performed : invocation.perform workspace = .ok delivery) (labels : SortedDict String) :
    ∃ document manifest, Loads workspace invocation.source document ∧
      Generate.authorizationPolicy document { config with gatewayLabels := labels } = .ok manifest ∧
      manifest.spec.selector = some ⟨labels⟩ ∧
      (labelling invocation config labels).perform workspace =
        .ok (.standardOutput (encode invocation.format manifest.toWire)) := by
  obtain ⟨filter, checked, performed⟩ := bind_eq_ok performed
  obtain ⟨text, read, performed⟩ := bind_eq_ok performed
  obtain ⟨document, decoded, performed⟩ := bind_eq_ok performed
  obtain ⟨_, produced, _⟩ := bind_eq_ok performed
  have loads : Loads workspace invocation.source document :=
    ⟨text, readSource_eq_ok_iff.1 read, parse?_of_decode decoded⟩
  unfold Invocation.produce at produced
  rw [task] at produced
  cases made : Generate.authorizationPolicy document config with
  | error error =>
    rw [generate_policy, made] at produced
    cases produced
  | ok manifest =>
    have made' := authorizationPolicy_labels document config labels
    rw [made] at made'
    refine ⟨document, _, loads, made', rfl, ?_⟩
    have checked : (labelling invocation config labels).checkLogFilter = .ok filter := checked
    have read : workspace.readSource (labelling invocation config labels).source = .ok text := read
    have decoded : (labelling invocation config labels).decode text = .ok document := decoded
    have delivers : ∀ encoded, (labelling invocation config labels).deliver workspace encoded =
        .ok (.standardOutput encoded) := by
      intro encoded
      unfold Invocation.deliver labelling
      rw [output]
    unfold Invocation.perform
    rw [checked, read]
    simp only [bind, Except.bind, decoded, produce_labelling made', delivers]

end Policies

/-! ### A line that is written out -/

theorem marked_of_begins {words : List Word} (plain : ∀ word ∈ words, word.labelText? = none →
    (word.argument id).toList.take 3 ≠ ['-', '-', 'g']) : Marked words := by
  intro text inside
  have begins := plain _ inside rfl
  constructor
  · rintro rfl
    exact begins (by decide)
  · rintro value rfl
    exact begins (by simp [Word.argument, toList_labelArgument, labelName])

def petLabels : List Word :=
  [.other "generate", .other "istio", .other "authorizationpolicy", .label "app=a=b",
    .other "--oas", .other "pets.yaml", .label "tier=", .other "--public-host=a.io",
    .label "app=c=", .other "--"]

theorem petLabels_marked : Marked petLabels :=
  marked_of_begins (by decide)

def petPolicy : Invocation where
  logFilter := defaultLogFilter
  logFormat := .plain
  task := .authorizationPolicy ⟨"a.io", .ofList [("istio", "gateway")]⟩
  source := "pets.yaml"
  format := .yaml
  output := none

/-- Labels that are given after their option and an equals sign, on a command line that is accepted
with any one label in place of each: they are accepted exactly if all of them are well formed, and
where the run succeeds with that one label, it makes the policy that has their keys and last values
as its selector. -/
theorem gateway_labels_reach_policy {preset : Option String} {words : List Word} {sample : String}
    {invocation : Invocation} {config : Generate.AuthorizationPolicyConfig} (marked : Marked words)
    (asked : Invocation.ofArguments preset (words.map (Word.argument fun _ => sample)) =
      .ok invocation)
    (task : invocation.task = .authorizationPolicy config) :
    ((∃ actual, Invocation.ofArguments preset (words.map (Word.argument id)) = .ok actual) ↔
      ∀ text ∈ labelTexts words, WellFormed text) ∧
    ((∀ text ∈ labelTexts words, WellFormed text) →
      ∀ workspace, (invocation.report workspace).exit = 0 →
        ∃ report document labels manifest,
          run preset (words.map (Word.argument id)) workspace = .ok report ∧ report.exit = 0 ∧
          report.output = encode invocation.format manifest.toWire ∧
          Loads workspace invocation.source document ∧
          Generate.authorizationPolicy document { config with gatewayLabels := labels } =
            .ok manifest ∧
          Emits manifest.toWire labels ∧ KeepsLast (labelTexts words) labels) := by
  obtain ⟨inputs, accepted, asked⟩ := exists_inputs asked
  have leads := leads_of_read accepted
  have dashed := dashedLast_of_read accepted (bare_of_policy leads asked task)
  obtain ⟨template, relabels⟩ := exists_relabels marked dashed accepted
  have reads : (∀ text ∈ labelTexts words, WellFormed text) →
      read program preset.isSome (words.map (Word.argument id)) =
        .ok ((template.map (Segment.exchange id)).map Segment.input) :=
    fun valid => relabels.read _ id fun text given => label?_ne_none_iff.2 (valid text given)
  have actual := asked_exchange relabels asked task id
  rw [List.map_id] at actual
  refine ⟨⟨?_, fun valid => ⟨_, ofArguments_eq_ok (reads valid) actual⟩⟩, ?_⟩
  · -- The labels of a line that is accepted are well formed, as those of any line laid out are.
    rintro ⟨_, given⟩ text inside
    obtain ⟨others, acceptedOthers, _⟩ := exists_inputs given
    obtain ⟨other, relabelled⟩ := exists_relabels marked dashed acceptedOthers
    refine label?_ne_none_iff.1 (label?_of_lays program_labelled relabelled.lays ?_)
    rw [layoutEntries_exchange, valuesOf_label, relabelled.labels]
    exact List.mem_map.2 ⟨text, inside, rfl⟩
  · intro valid workspace succeeds
    have output := output_of_policy leads asked task
    cases performed : invocation.perform workspace with
    | error error =>
      unfold Invocation.report at succeeds
      rw [performed] at succeeds
      cases succeeds
    | ok delivery =>
      obtain ⟨document, manifest, loads, made, selects, performed⟩ :=
        perform_labelling task output performed (.ofList ((labelTexts words).filterMap label?))
      refine ⟨_, document, _, manifest, run_eq_ok (reads valid) actual workspace, ?_, ?_, loads,
        made, emits_of_selector selects, keepsLast_ofList valid⟩
      · unfold Invocation.report
        rw [performed]
        rfl
      · unfold Invocation.report
        rw [performed]
        rfl

theorem petLabels_reach_policy :
    Marked petLabels ∧
    Invocation.ofArguments none (petLabels.map (Word.argument fun _ => "istio=gateway")) =
      .ok petPolicy ∧
    petPolicy.task = .authorizationPolicy ⟨"a.io", .ofList [("istio", "gateway")]⟩ ∧
    (petPolicy.report petsWorkspace).exit = 0 ∧
    ∃ (report : Report) (manifest : Mesh.AuthorizationPolicy) (labels : SortedDict String),
      run none (petLabels.map (Word.argument id)) petsWorkspace = .ok report ∧ report.exit = 0 ∧
      report.output = encode .yaml manifest.toWire ∧ Emits manifest.toWire labels ∧
      labels.get? "app" = some "c=" ∧ labels.get? "tier" = some "" := by
  have asked : Invocation.ofArguments none
      (petLabels.map (Word.argument fun _ => "istio=gateway")) = .ok petPolicy := by
    decide +kernel
  have succeeds : (petPolicy.report petsWorkspace).exit = 0 := by decide +kernel
  have reaches := (gateway_labels_reach_policy petLabels_marked asked rfl).2
  obtain ⟨report, _, labels, manifest, runs, zero, output, _, _, emits, keeps⟩ :=
    reaches (by decide) petsWorkspace succeeds
  have app : labels.get? "app" = some "c=" :=
    (keeps.values _ _).2 ⟨by decide, ["app=a=b", "tier="], [], rfl, fun _ => List.not_mem_nil⟩
  have tier : labels.get? "tier" = some "" := by
    refine (keeps.values _ _).2 ⟨by decide, ["app=a=b"], ["app=c="], rfl, fun other inside => ?_⟩
    have first := congrArg (fun text => text.toList.head?) (List.mem_singleton.1 inside)
    simp at first
  exact ⟨petLabels_marked, asked, rfl, succeeds, report, manifest, labels, runs, zero, output,
    emits, app, tier⟩

end ApiManifest.CommandLine
