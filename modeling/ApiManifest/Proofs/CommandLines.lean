import ApiManifest.CommandLine.Run
import ApiManifest.Proofs.ArgumentReading

/-!
What an accepted command line asks for. It names one of the commands that make a manifest, and all
that the manifest is made from is read off the options of that command.
-/

namespace ApiManifest.CommandLine

open OpenApi (Document)

inductive Maker where
  | httpRoute
  | authPolicy
  | rateLimitPolicy
  | authConfig
  | virtualService
  | authorizationPolicy
  | api
  deriving DecidableEq

def Maker.path : Maker → List String
  | httpRoute => ["generate", "gatewayapi", "httproute"]
  | authPolicy => ["generate", "kuadrant", "authpolicy"]
  | rateLimitPolicy => ["generate", "kuadrant", "ratelimitpolicy"]
  | authConfig => ["generate", "kuadrant", "authconfig"]
  | virtualService => ["generate", "istio", "virtualservice"]
  | authorizationPolicy => ["generate", "istio", "authorizationpolicy"]
  | api => ["api", "generate"]

def Maker.kind : Maker → String
  | httpRoute => "HTTPRoute"
  | authPolicy => "AuthPolicy"
  | rateLimitPolicy => "RateLimitPolicy"
  | authConfig => "AuthConfig"
  | virtualService => "VirtualService"
  | authorizationPolicy => "AuthorizationPolicy"
  | api => "API"

inductive PortGiven (options : List (String × String)) : UInt32 → Prop
  | default (absent : valuesOf options "service-port" = []) : PortGiven options 80
  | given {text : String} {port : UInt32} (given : valuesOf options "service-port" = [text])
      (reads : port? text = some port) : PortGiven options port

/-- What comes of making the manifest of a document with the options that its command was given. -/
inductive Makes (document : Document) (options : List (String × String)) :
    Maker → Except GenerationError Wire → Prop
  | httpRoute : Makes document options .httpRoute
      ((Generate.httpRoute document).map Manifest.toWire)
  | authPolicy : Makes document options .authPolicy
      ((Generate.authPolicy document).map Manifest.toWire)
  | rateLimitPolicy : Makes document options .rateLimitPolicy
      ((Generate.rateLimitPolicy document).map Manifest.toWire)
  | authConfig {host : String} (publicHost : valuesOf options "public-host" = [host]) :
      Makes document options .authConfig ((Generate.authConfig document host).map Manifest.toWire)
  | virtualService {config : Generate.VirtualServiceConfig}
      (publicHost : valuesOf options "public-host" = [config.publicHost])
      (serviceName : valuesOf options "service-name" = [config.serviceName])
      (serviceNamespace : valuesOf options "service-namespace" = [config.serviceNamespace])
      (servicePort : PortGiven options config.servicePort)
      (gateways : valuesOf options "gateway" = config.gateways) (some : config.gateways ≠ [])
      (pathPrefixMatch : config.pathPrefixMatch = true ↔
        valuesOf options "path-prefix-match" ≠ []) :
      Makes document options .virtualService
        ((Generate.virtualService document config).map Manifest.toWire)
  | authorizationPolicy {config : Generate.AuthorizationPolicyConfig}
      {labels : List (String × String)}
      (publicHost : valuesOf options "public-host" = [config.publicHost])
      (given : (valuesOf options "gateway-label").map label? = labels.map some)
      (some : labels ≠ []) (gatewayLabels : config.gatewayLabels = .ofList labels) :
      Makes document options .authorizationPolicy
        ((Generate.authorizationPolicy document config).map Manifest.toWire)
  | api : Makes document options .api ((Generate.api document).map Manifest.toWire)

inductive SourceGiven (input : CommandInput) : String → Prop
  | operand {source : String} (given : input.operand = some source) : SourceGiven input source
  | option {source : String} (absent : input.operand = none)
      (given : valuesOf input.options "oas" = [source]) : SourceGiven input source

inductive FormatGiven (options : List (String × String)) : OutputFormat → Prop
  | default (absent : valuesOf options "output-format" = []) : FormatGiven options .yaml
  | yaml (given : valuesOf options "output-format" = ["yaml"]) : FormatGiven options .yaml
  | json (given : valuesOf options "output-format" = ["json"]) : FormatGiven options .json

inductive OutputGiven (options : List (String × String)) : Maker → Option String → Prop
  | standard {maker : Maker} (absent : valuesOf options "output" = []) :
      OutputGiven options maker none
  | file {path : String} (given : valuesOf options "output" = [path]) :
      OutputGiven options .api (some path)

/-- What an accepted command line asks for. -/
structure Line where
  maker : Maker
  options : List (String × String)
  source : String
  format : OutputFormat
  output : Option String
  logFilter : String

/-- The command line, as it was read, asks for just that. -/
structure Says (preset : Option String) (inputs : List CommandInput) (line : Line) : Prop where
  path : (inputs.drop 1).map CommandInput.name = line.maker.path
  last : ∃ input, inputs.getLast? = some input ∧ line.options = input.options ∧
    SourceGiven input line.source
  format : FormatGiven line.options line.format
  output : OutputGiven line.options line.maker line.output
  logFilter : line.logFilter =
    ((sharedValue? inputs "log-level").or preset).getD defaultLogFilter

structure Performs (options : List (String × String)) (maker : Maker) (task : Task) : Prop where
  asked : task? maker.path options = some task
  kind : task.kind = maker.kind
  makes : ∀ document, Makes document options maker (task.generate document)

structure CarriesOut (invocation : Invocation) (line : Line) : Prop where
  task : ∀ document, Makes document line.options line.maker (invocation.task.generate document)
  kind : invocation.task.kind = line.maker.kind
  source : invocation.source = line.source
  format : invocation.format = line.format
  output : invocation.output = line.output
  logFilter : invocation.logFilter = line.logFilter

def Accepted (preset : Option String) (inputs : List CommandInput) : Prop :=
  ∃ line invocation, Says preset inputs line ∧
    Invocation.ofInputs? preset inputs = some invocation ∧ CarriesOut invocation line

theorem Maker.path_injective : Function.Injective Maker.path := by
  intro first second same
  cases first <;> cases second <;> first | rfl | exact absurd same (by decide)

theorem PortGiven.unique {options : List (String × String)} {first second : UInt32}
    (one : PortGiven options first) (two : PortGiven options second) : first = second := by
  cases one with
  | default absent =>
    cases two with
    | default => rfl
    | given given _ =>
      rw [absent] at given
      cases given
  | given given reads =>
    cases two with
    | default absent =>
      rw [absent] at given
      cases given
    | given again readsAgain =>
      rw [given] at again
      cases again
      rw [reads] at readsAgain
      exact Option.some.inj readsAgain

theorem Makes.unique {document : Document} {options : List (String × String)} {maker : Maker}
    {first second : Except GenerationError Wire} (one : Makes document options maker first)
    (two : Makes document options maker second) : first = second := by
  cases one with
  | httpRoute => cases two; rfl
  | authPolicy => cases two; rfl
  | rateLimitPolicy => cases two; rfl
  | authConfig publicHost =>
    cases two with
    | authConfig again =>
      rw [publicHost] at again
      cases again
      rfl
  | @virtualService config publicHost serviceName serviceNamespace servicePort gateways _ flag =>
    cases two with
    | @virtualService other host name space port through _ flagged =>
      have same : config = other := by
        obtain ⟨_, _, _, _, _, _⟩ := config
        obtain ⟨_, _, _, _, _, _⟩ := other
        rw [publicHost] at host
        rw [serviceName] at name
        rw [serviceNamespace] at space
        cases host
        cases name
        cases space
        cases servicePort.unique port
        cases gateways.symm.trans through
        cases Bool.eq_iff_iff.2 (flag.trans flagged.symm)
        rfl
      rw [same]
  | @authorizationPolicy config labels publicHost given _ gatewayLabels =>
    cases two with
    | @authorizationPolicy other others host again _ labelled =>
      have same : labels = others := by
        rw [given] at again
        exact List.map_injective_iff.2 (fun _ _ => Option.some.inj) again
      have equal : config = other := by
        obtain ⟨_, _⟩ := config
        obtain ⟨_, _⟩ := other
        rw [publicHost] at host
        cases host
        cases gatewayLabels
        cases labelled
        rw [same]
      rw [equal]
  | api => cases two; rfl

theorem SourceGiven.unique {input : CommandInput} {first second : String}
    (one : SourceGiven input first) (two : SourceGiven input second) : first = second := by
  cases one with
  | operand given =>
    cases two with
    | operand again => exact Option.some.inj (given.symm.trans again)
    | option absent _ => cases given.symm.trans absent
  | option absent given =>
    cases two with
    | operand again => cases absent.symm.trans again
    | option _ again => exact List.head_eq_of_cons_eq (given.symm.trans again)

theorem FormatGiven.unique {options : List (String × String)} {first second : OutputFormat}
    (one : FormatGiven options first) (two : FormatGiven options second) : first = second := by
  cases one with
  | default absent =>
    cases two with
    | json given => cases absent.symm.trans given
    | default | yaml => rfl
  | yaml given =>
    cases two with
    | json again => exact absurd (given.symm.trans again) (by decide)
    | default | yaml => rfl
  | json given =>
    cases two with
    | default absent => cases given.symm.trans absent
    | yaml again => exact absurd (given.symm.trans again) (by decide)
    | json => rfl

theorem OutputGiven.unique {options : List (String × String)} {maker : Maker}
    {first second : Option String} (one : OutputGiven options maker first)
    (two : OutputGiven options maker second) : first = second := by
  cases one with
  | standard absent =>
    cases two with
    | standard => rfl
    | file given => cases absent.symm.trans given
  | file given =>
    cases two with
    | standard absent => cases given.symm.trans absent
    | file again => exact congrArg List.head? (given.symm.trans again)

theorem Says.unique {preset : Option String} {inputs : List CommandInput} {first second : Line}
    (one : Says preset inputs first) (two : Says preset inputs second) : first = second := by
  obtain ⟨maker, options, source, format, output, logFilter⟩ := first
  obtain ⟨maker', options', source', format', output', logFilter'⟩ := second
  obtain ⟨path, ⟨input, last, given, named⟩, formatted, written, logged⟩ := one
  obtain ⟨path', ⟨input', last', given', named'⟩, formatted', written', logged'⟩ := two
  cases Maker.path_injective (path.symm.trans path')
  cases last.symm.trans last'
  cases given
  cases given'
  cases named.unique named'
  cases formatted.unique formatted'
  cases written.unique written'
  cases logged
  cases logged'
  rfl

theorem valueOf?_eq (options : List (String × String)) (name : String) :
    valueOf? options name = (valuesOf options name).head? := by
  unfold valueOf? valuesOf
  induction options with
  | nil => rfl
  | cons entry rest ih =>
    obtain ⟨key, value⟩ := entry
    rw [Dict.lookup_entry, List.filter_cons]
    by_cases same : name = key
    · simp [same]
    · have other : key ≠ name := fun equal => same equal.symm
      rw [if_neg same, ih]
      simp [other]

theorem map_eq_of_readable {α : Type} {read? : String → Option α} {texts : List String}
    (readable : ∀ text ∈ texts, unreadable (read? text) = none) :
    texts.map read? = (texts.filterMap read?).map some := by
  induction texts with
  | nil => rfl
  | cons text rest ih =>
    have later := ih fun other member => readable other (List.mem_cons_of_mem _ member)
    have here := readable text List.mem_cons_self
    rw [List.map_cons, later, List.filterMap_cons]
    cases reads : read? text with
    | none =>
      rw [reads] at here
      cases here
    | some value => rfl

section Given

variable {command : Command} {input : CommandInput} (complete : Complete command input)

include complete

theorem Complete.atMostOne {option : OptionSpec} (member : option ∈ command.options)
    (once : option.many = false) :
    valuesOf input.options option.name = [] ∨
      ∃ value, valuesOf input.options option.name = [value] ∧ option.fault value = none := by
  have few := complete.allowed.single option member once
  have faultless := complete.allowed.faultless option member
  cases values : valuesOf input.options option.name with
  | nil => exact Or.inl rfl
  | cons value rest =>
    rw [values] at few faultless
    have last : rest = [] := List.length_eq_zero_iff.1 (by simpa using few)
    subst last
    exact Or.inr ⟨value, rfl, faultless value List.mem_cons_self⟩

theorem Complete.one {option : OptionSpec} (member : option ∈ command.options)
    (once : option.many = false) (needed : option.needed = true) :
    ∃ value, valuesOf input.options option.name = [value] ∧ option.fault value = none := by
  rcases complete.atMostOne member once with none | found
  · exact absurd none (complete.needed option member needed)
  · exact found

theorem Complete.absent {name : String}
    (unknown : ∀ option ∈ command.options, option.name ≠ name) :
    valuesOf input.options name = [] := by
  refine List.eq_nil_iff_forall_not_mem.2 fun value member => ?_
  obtain ⟨option, inside, named⟩ := complete.allowed.known _ (mem_valuesOf.1 member)
  exact unknown option inside named

theorem Complete.required {name : String} (member : .required name ∈ command.options) :
    valuesOf input.options name = [valueOf input.options name] := by
  obtain ⟨value, given, _⟩ := complete.one member rfl rfl
  change valuesOf input.options name = [value] at given
  unfold valueOf
  rw [valueOf?_eq, given]
  rfl

theorem Complete.format {option : OptionSpec} (member : option ∈ command.options)
    (name : option.name = "output-format") (once : option.many = false)
    (fault : option.fault = oneOf ["yaml", "json"]) :
    FormatGiven input.options
      (if valueOf? input.options "output-format" = some "json" then .json else .yaml) := by
  have cases := complete.atMostOne member once
  rw [name, fault] at cases
  rw [valueOf?_eq]
  rcases cases with absent | ⟨value, given, allowed⟩
  · rw [absent]
    exact .default absent
  · have known : value = "yaml" ∨ value = "json" := by
      unfold oneOf at allowed
      split at allowed
      next inside => simpa using inside
      next => cases allowed
    rcases known with rfl | rfl
    · rw [given]
      exact .yaml given
    · rw [given]
      exact .json given

theorem Complete.port
    (member : .optional "service-port" (fun text => unreadable (port? text)) ∈ command.options) :
    PortGiven input.options
      (((valueOf? input.options "service-port").bind port?).getD Generate.defaultServicePort) := by
  have cases := complete.atMostOne member rfl
  change valuesOf input.options "service-port" = [] ∨
    ∃ text, valuesOf input.options "service-port" = [text] ∧ unreadable (port? text) = none at cases
  rw [valueOf?_eq]
  rcases cases with absent | ⟨text, given, readable⟩
  · rw [absent]
    exact .default absent
  · rw [given]
    cases reads : port? text with
    | none =>
      rw [reads] at readable
      cases readable
    | some port =>
      refine .given given ?_
      simp [reads]

theorem Complete.labels
    (member : .severalOf "gateway-label" (fun text => unreadable (label? text)) ∈
      command.options) :
    (valuesOf input.options "gateway-label").map label? =
        ((valuesOf input.options "gateway-label").filterMap label?).map some ∧
      (valuesOf input.options "gateway-label").filterMap label? ≠ [] := by
  have given : valuesOf input.options "gateway-label" ≠ [] := complete.needed _ member rfl
  have all : (valuesOf input.options "gateway-label").map label? =
      ((valuesOf input.options "gateway-label").filterMap label?).map some :=
    map_eq_of_readable (complete.allowed.faultless _ member)
  refine ⟨all, fun none => given ?_⟩
  rw [none, List.map_nil] at all
  exact List.map_eq_nil_iff.1 all

theorem Complete.sourceOption (takes : command.operand = false)
    (member : .required "oas" ∈ command.options) :
    SourceGiven input (input.operand.getD (valueOf input.options "oas")) := by
  have absent : input.operand = none := by
    have operand := complete.operand
    rw [takes] at operand
    simpa using operand
  rw [absent]
  exact .option absent (complete.required member)

theorem Complete.sourceOperand (takes : command.operand = true) :
    SourceGiven input (input.operand.getD (valueOf input.options "oas")) := by
  have operand := complete.operand
  rw [takes] at operand
  obtain ⟨source, given⟩ := Option.isSome_iff_exists.1 operand
  rw [given]
  exact .operand given

theorem Complete.noOutput (maker : Maker)
    (unknown : ∀ option ∈ command.options, option.name ≠ "output") :
    OutputGiven input.options maker (valueOf? input.options "output") := by
  have absent := complete.absent unknown
  rw [valueOf?_eq, absent]
  exact .standard absent

theorem Complete.output {option : OptionSpec} (member : option ∈ command.options)
    (name : option.name = "output") (once : option.many = false) :
    OutputGiven input.options .api (valueOf? input.options "output") := by
  have cases := complete.atMostOne member once
  rw [name] at cases
  rw [valueOf?_eq]
  rcases cases with absent | ⟨path, given, _⟩
  · rw [absent]
    exact .standard absent
  · rw [given]
    exact .file given

end Given

/-! ### The ways through the program -/

theorem leads_leaf {name : String} {options : List OptionSpec} {inputs : List CommandInput}
    (leads : Leads (leaf name options) inputs) :
    ∃ input, inputs = [input] ∧ input.name = name ∧ Complete (leaf name options) input := by
  cases leads with
  | last _ complete => exact ⟨_, rfl, complete.name, complete⟩
  | onward member _ _ => cases member

theorem leads_group {name : String} {first : Command} {rest : List Command}
    {inputs : List CommandInput} (leads : Leads (group name (first :: rest)) inputs) :
    ∃ input inner subcommand, inputs = input :: inner ∧ input.name = name ∧
      subcommand ∈ first :: rest ∧ Leads subcommand inner := by
  cases leads with
  | last none _ => cases none
  | onward member name inner => exact ⟨_, _, _, rfl, name, member, inner⟩

section Lines

variable {preset : Option String} {inputs : List CommandInput} {input : CommandInput}

theorem accepted_of_last {maker : Maker} {task : Task}
    (path : (inputs.drop 1).map CommandInput.name = maker.path)
    (last : inputs.getLast? = some input) (performs : Performs input.options maker task)
    (source : SourceGiven input (input.operand.getD (valueOf input.options "oas")))
    (format : FormatGiven input.options
      (if valueOf? input.options "output-format" = some "json" then .json else .yaml))
    (output : OutputGiven input.options maker (valueOf? input.options "output")) :
    Accepted preset inputs := by
  let invocation : Invocation := {
    logFilter := ((sharedValue? inputs "log-level").or preset).getD defaultLogFilter
    logFormat := if sharedValue? inputs "log-format" = some "json" then .json else .plain
    task
    source := input.operand.getD (valueOf input.options "oas")
    format := if valueOf? input.options "output-format" = some "json" then .json else .yaml
    output := valueOf? input.options "output" }
  let line : Line := ⟨maker, input.options, invocation.source, invocation.format,
    invocation.output, invocation.logFilter⟩
  have asked : Invocation.ofInputs? preset inputs = some invocation := by
    unfold Invocation.ofInputs?
    rw [last, path]
    change (task? maker.path input.options >>= _) = _
    rw [performs.asked]
    rfl
  exact ⟨line, invocation, ⟨path, ⟨input, last, rfl, source⟩, format, output, rfl⟩, asked,
    ⟨performs.makes, performs.kind, rfl, rfl, rfl, rfl⟩⟩

theorem mem_leaf {name : String} {extras : List OptionSpec} {option : OptionSpec}
    (member : option ∈ extras) : option ∈ (leaf name (sourceOptions ++ extras)).options :=
  List.mem_append_left _ (List.mem_append_right _ member)

variable {outermost outer middle : CommandInput} {inner : List CommandInput}

/-- Commands that take the document as an option say where it is and which format is wanted, and
have no file to write to. -/
theorem accepted_of_leaf {name group : String} {extras : List OptionSpec} {maker : Maker}
    (generate : outer.name = "generate") (grouped : middle.name = group)
    (leads : Leads (leaf name (sourceOptions ++ extras)) inner)
    (path : ["generate", group, name] = maker.path)
    (unknown : ∀ option ∈ extras, option.name ≠ "output")
    (performs : ∀ input, Complete (leaf name (sourceOptions ++ extras)) input →
      ∃ task, Performs input.options maker task) :
    Accepted preset (outermost :: outer :: middle :: inner) := by
  obtain ⟨input, rfl, named, complete⟩ := leads_leaf leads
  obtain ⟨task, performs⟩ := performs input complete
  have names : [outer.name, middle.name, input.name] = maker.path := by
    rw [generate, grouped, named]
    exact path
  have source : .required "oas" ∈ (leaf name (sourceOptions ++ extras)).options :=
    List.mem_append_left _ (List.mem_append_left _ (.head _))
  have format : { formatOption with short := some 'o' } ∈
      (leaf name (sourceOptions ++ extras)).options :=
    List.mem_append_left _ (List.mem_append_left _ (.tail _ (.head _)))
  have noOutput : ∀ option ∈ (leaf name (sourceOptions ++ extras)).options,
      option.name ≠ "output" := by
    intro option member
    rcases List.mem_append.1 member with own | shared
    · rcases List.mem_append.1 own with general | extra
      · exact (show ∀ option ∈ sourceOptions, option.name ≠ "output" by decide) option general
      · exact unknown option extra
    · exact (show ∀ option ∈ logOptions, option.name ≠ "output" by decide) option shared
  exact accepted_of_last names rfl performs (complete.sourceOption rfl source)
    (complete.format format rfl rfl rfl) (complete.noOutput maker noOutput)

theorem accepted_of_plainLeaf {name group : String} {maker : Maker} {task : Task}
    (generate : outer.name = "generate") (grouped : middle.name = group)
    (leads : Leads (leaf name sourceOptions) inner)
    (path : ["generate", group, name] = maker.path)
    (performs : ∀ options, Performs options maker task) :
    Accepted preset (outermost :: outer :: middle :: inner) := by
  have leads : Leads (leaf name (sourceOptions ++ [])) inner := leads
  exact accepted_of_leaf generate grouped leads path (by decide)
    fun input _ => ⟨task, performs input.options⟩

theorem performs_httpRoute (options : List (String × String)) :
    Performs options .httpRoute .httpRoute :=
  ⟨rfl, rfl, fun _ => .httpRoute⟩

theorem accepted_of_gateway (generate : outer.name = "generate")
    (grouped : middle.name = "gatewayapi") (leads : Leads (leaf "httproute" sourceOptions) inner) :
    Accepted preset (outermost :: outer :: middle :: inner) :=
  accepted_of_plainLeaf generate grouped leads rfl performs_httpRoute

theorem performs_authConfig {name : String} {input : CommandInput}
    (complete : Complete (leaf name (sourceOptions ++ [.required "public-host"])) input) :
    ∃ task, Performs input.options .authConfig task := by
  have makes : ∀ document, Makes document input.options .authConfig
      ((Generate.authConfig document (valueOf input.options "public-host")).map
        Manifest.toWire) := fun _ => .authConfig (complete.required (mem_leaf (.head _)))
  exact ⟨.authConfig (valueOf input.options "public-host"), rfl, rfl, makes⟩

theorem performs_authPolicy (options : List (String × String)) :
    Performs options .authPolicy .authPolicy :=
  ⟨rfl, rfl, fun _ => .authPolicy⟩

theorem performs_rateLimitPolicy (options : List (String × String)) :
    Performs options .rateLimitPolicy .rateLimitPolicy :=
  ⟨rfl, rfl, fun _ => .rateLimitPolicy⟩

theorem accepted_of_policies (generate : outer.name = "generate")
    (grouped : middle.name = "kuadrant") {command : Command}
    (member : command ∈ [leaf "authconfig" (sourceOptions ++ [.required "public-host"]),
      leaf "authpolicy" sourceOptions, leaf "ratelimitpolicy" sourceOptions])
    (leads : Leads command inner) :
    Accepted preset (outermost :: outer :: middle :: inner) := by
  rcases List.mem_cons.1 member with rfl | member
  · exact accepted_of_leaf generate grouped leads rfl (by decide)
      fun _ complete => performs_authConfig complete
  rcases List.mem_cons.1 member with rfl | member
  · exact accepted_of_plainLeaf generate grouped leads rfl performs_authPolicy
  · cases List.mem_singleton.1 member
    exact accepted_of_plainLeaf generate grouped leads rfl performs_rateLimitPolicy

theorem performs_virtualService {name : String} {input : CommandInput}
    (complete : Complete (leaf name (sourceOptions ++ [.required "public-host",
      .required "service-name", .required "service-namespace",
      .optional "service-port" (fun text => unreadable (port? text)),
      .severalOf "gateway" anyText, .flag "path-prefix-match"])) input) :
    ∃ task, Performs input.options .virtualService task := by
  let config : Generate.VirtualServiceConfig := {
    publicHost := valueOf input.options "public-host"
    serviceName := valueOf input.options "service-name"
    serviceNamespace := valueOf input.options "service-namespace"
    servicePort := ((valueOf? input.options "service-port").bind port?).getD
      Generate.defaultServicePort
    gateways := valuesOf input.options "gateway"
    pathPrefixMatch := (valueOf? input.options "path-prefix-match").isSome }
  have flagged : config.pathPrefixMatch = true ↔
      valuesOf input.options "path-prefix-match" ≠ [] := by
    change (valueOf? input.options "path-prefix-match").isSome = true ↔ _
    rw [valueOf?_eq]
    simp
  have gateways : config.gateways ≠ [] :=
    complete.needed (.severalOf "gateway" anyText) (mem_leaf (by simp)) rfl
  have makes : ∀ document, Makes document input.options .virtualService
      ((Generate.virtualService document config).map Manifest.toWire) := fun _ =>
    .virtualService (complete.required (mem_leaf (by simp)))
      (complete.required (mem_leaf (by simp))) (complete.required (mem_leaf (by simp)))
      (complete.port (mem_leaf (by simp))) rfl gateways flagged
  exact ⟨.virtualService config, rfl, rfl, makes⟩

theorem performs_authorizationPolicy {name : String} {input : CommandInput}
    (complete : Complete (leaf name (sourceOptions ++ [.required "public-host",
      .severalOf "gateway-label" (fun text => unreadable (label? text))])) input) :
    ∃ task, Performs input.options .authorizationPolicy task := by
  obtain ⟨labels, given⟩ := complete.labels (mem_leaf (.tail _ (.head _)))
  let config : Generate.AuthorizationPolicyConfig := {
    publicHost := valueOf input.options "public-host"
    gatewayLabels := .ofList ((valuesOf input.options "gateway-label").filterMap label?) }
  have makes : ∀ document, Makes document input.options .authorizationPolicy
      ((Generate.authorizationPolicy document config).map Manifest.toWire) := fun _ =>
    .authorizationPolicy (complete.required (mem_leaf (.head _))) labels given rfl
  exact ⟨.authorizationPolicy config, rfl, rfl, makes⟩

theorem accepted_of_mesh (generate : outer.name = "generate") (grouped : middle.name = "istio")
    {command : Command}
    (member : command ∈ [
      leaf "virtualservice" (sourceOptions ++ [.required "public-host", .required "service-name",
        .required "service-namespace",
        .optional "service-port" (fun text => unreadable (port? text)),
        .severalOf "gateway" anyText, .flag "path-prefix-match"]),
      leaf "authorizationpolicy" (sourceOptions ++ [.required "public-host",
        .severalOf "gateway-label" (fun text => unreadable (label? text))])])
    (leads : Leads command inner) :
    Accepted preset (outermost :: outer :: middle :: inner) := by
  rcases List.mem_cons.1 member with rfl | member
  · exact accepted_of_leaf generate grouped leads rfl (by decide)
      fun _ complete => performs_virtualService complete
  · cases List.mem_singleton.1 member
    exact accepted_of_leaf generate grouped leads rfl (by decide)
      fun _ complete => performs_authorizationPolicy complete

/-- The one command with an operand, which may also be told to write to a file. -/
theorem accepted_of_api (generate : outer.name = "api")
    (leads : Leads (.mk "generate"
      ([{ OptionSpec.optional "output" pathFault with short := some 'o' }, formatOption] ++
        logOptions) true []) inner) :
    Accepted preset (outermost :: outer :: inner) := by
  cases leads with
  | onward member _ _ => cases member
  | @last _ input _ complete =>
    have path : [outer.name, input.name] = Maker.path .api := by
      rw [generate, complete.name, Command.name, Maker.path]
    exact accepted_of_last path rfl ⟨rfl, rfl, fun _ => .api⟩ (complete.sourceOperand rfl)
      (complete.format (.tail _ (.head _)) rfl rfl rfl) (complete.output (.head _) rfl rfl)

theorem accepted_of_leads (leads : Leads program inputs) : Accepted preset inputs := by
  obtain ⟨outermost, inputs, command, rfl, _, member, leads⟩ := leads_group leads
  rcases List.mem_cons.1 member with rfl | member
  · obtain ⟨outer, inputs, command, rfl, generate, member, leads⟩ := leads_group leads
    rcases List.mem_cons.1 member with rfl | member
    · obtain ⟨middle, inner, command, rfl, grouped, member, leads⟩ := leads_group leads
      cases List.mem_singleton.1 member
      exact accepted_of_gateway generate grouped leads
    rcases List.mem_cons.1 member with rfl | member
    · obtain ⟨middle, inner, command, rfl, grouped, member, leads⟩ := leads_group leads
      exact accepted_of_policies generate grouped member leads
    · cases List.mem_singleton.1 member
      obtain ⟨middle, inner, command, rfl, grouped, member, leads⟩ := leads_group leads
      exact accepted_of_mesh generate grouped member leads
  · cases List.mem_singleton.1 member
    obtain ⟨outer, inputs, command, rfl, generate, member, leads⟩ := leads_group leads
    cases List.mem_singleton.1 member
    exact accepted_of_api generate leads

end Lines

end ApiManifest.CommandLine
