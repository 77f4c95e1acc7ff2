import ApiManifest.CommandLine.Usage
import ApiManifest.Generate.Mesh

/-!
The commands of the program, and what a command line that is accepted asks for.
-/

namespace ApiManifest.CommandLine

open Generate (AuthorizationPolicyConfig VirtualServiceConfig)

inductive OutputFormat where
  | yaml
  | json
  deriving DecidableEq

inductive LogFormat where
  | plain
  | json
  deriving DecidableEq

/-- The manifest that is asked for. -/
inductive Task where
  | httpRoute
  | authPolicy
  | rateLimitPolicy
  | authConfig (publicHost : String)
  | virtualService (config : VirtualServiceConfig)
  | authorizationPolicy (config : AuthorizationPolicyConfig)
  | api
  deriving DecidableEq

structure Invocation where
  logFilter : String
  logFormat : LogFormat
  task : Task
  /-- The file of the document, or a dash for standard input. -/
  source : String
  format : OutputFormat
  /-- The file that is written, none for standard output. -/
  output : Option String
  deriving DecidableEq

def anyText (_ : String) : Option UsageError :=
  none

def oneOf (values : List String) (text : String) : Option UsageError :=
  if values.contains text then none else some .invalidValue

/-- A whole number with a sign or not. -/
def number? (text : List Char) : Option Int :=
  match text with
  | '-' :: digits => (Text.decimal? digits).map (fun n => -(n : Int))
  | _ => (Text.decimal? (Text.dropPlus text)).map (fun n => (n : Int))

/-- A port of thirty-two bits. -/
def port? (text : String) : Option UInt32 :=
  (number? text.toList).bind (fun n =>
    if 0 ≤ n ∧ n ≤ 0xffffffff then some (UInt32.ofNat n.toNat) else none)

/-- A label as its key, which is not empty, and its value after the first equals sign. -/
def label? (text : String) : Option (String × String) :=
  let key := text.toList.takeWhile (· ≠ '=')
  match text.toList.dropWhile (· ≠ '=') with
  | _ :: value => if key.isEmpty then none else some (String.ofList key, String.ofList value)
  | [] => none

def unreadable {α : Type} (value : Option α) : Option UsageError :=
  if value.isSome then none else some .valueValidation

namespace OptionSpec

def optional (name : String) (fault : String → Option UsageError) : OptionSpec :=
  ⟨name, none, true, false, false, fault⟩

def required (name : String) : OptionSpec :=
  ⟨name, none, true, false, true, anyText⟩

def severalOf (name : String) (fault : String → Option UsageError) : OptionSpec :=
  ⟨name, none, true, true, true, fault⟩

def flag (name : String) : OptionSpec :=
  ⟨name, none, false, false, false, anyText⟩

end OptionSpec

def logOptions : List OptionSpec :=
  [.optional "log-level" anyText, .optional "log-format" (oneOf ["plain", "json"])]

def formatOption : OptionSpec :=
  .optional "output-format" (oneOf ["yaml", "json"])

/-- The options of the document and of the output. -/
def sourceOptions : List OptionSpec :=
  [.required "oas", { formatOption with short := some 'o' }]

def pathFault (text : String) : Option UsageError :=
  if text.isEmpty then some .invalidValue else none

def leaf (name : String) (options : List OptionSpec) : Command :=
  .mk name (options ++ logOptions) false []

def group (name : String) (subcommands : List Command) : Command :=
  .mk name logOptions false subcommands

/-- All commands. -/
def program : Command :=
  group "kuadrantctl" [
    group "generate" [
      group "gatewayapi" [leaf "httproute" sourceOptions],
      group "kuadrant" [
        leaf "authconfig" (sourceOptions ++ [.required "public-host"]),
        leaf "authpolicy" sourceOptions,
        leaf "ratelimitpolicy" sourceOptions],
      group "istio" [
        leaf "virtualservice" (sourceOptions ++ [.required "public-host", .required "service-name",
          .required "service-namespace",
          .optional "service-port" (fun text => unreadable (port? text)),
          .severalOf "gateway" anyText, .flag "path-prefix-match"]),
        leaf "authorizationpolicy" (sourceOptions ++ [.required "public-host",
          .severalOf "gateway-label" (fun text => unreadable (label? text))])]],
    group "api" [
      .mk "generate" ([{ OptionSpec.optional "output" pathFault with short := some 'o' },
        formatOption] ++ logOptions) true []]]

/-- The variable of the environment that gives the log filter. -/
def logVariable : String := "KUADRANTCTL_LOG"

def defaultLogFilter : String := "kuadrantctl=info,warn"

def valueOf? (options : List (String × String)) (name : String) : Option String :=
  options.lookup name

def valueOf (options : List (String × String)) (name : String) : String :=
  (valueOf? options name).getD ""

def valuesOf (options : List (String × String)) (name : String) : List String :=
  (options.filter (fun entry => entry.1 = name)).map Prod.snd

/-- An option that any command takes: what the innermost command was given counts. -/
def sharedValue? (inputs : List CommandInput) (name : String) : Option String :=
  inputs.reverse.findSome? (fun input => valueOf? input.options name)

/-- The task that the names of the commands and the options of the innermost one stand for. -/
def task? (names : List String) (options : List (String × String)) : Option Task :=
  match names with
  | ["generate", "gatewayapi", "httproute"] => some .httpRoute
  | ["generate", "kuadrant", "authpolicy"] => some .authPolicy
  | ["generate", "kuadrant", "ratelimitpolicy"] => some .rateLimitPolicy
  | ["generate", "kuadrant", "authconfig"] => some (.authConfig (valueOf options "public-host"))
  | ["generate", "istio", "virtualservice"] => some (.virtualService {
      publicHost := valueOf options "public-host"
      serviceName := valueOf options "service-name"
      serviceNamespace := valueOf options "service-namespace"
      servicePort :=
        ((valueOf? options "service-port").bind port?).getD Generate.defaultServicePort
      gateways := valuesOf options "gateway"
      pathPrefixMatch := (valueOf? options "path-prefix-match").isSome })
  | ["generate", "istio", "authorizationpolicy"] => some (.authorizationPolicy {
      publicHost := valueOf options "public-host"
      gatewayLabels := .ofList ((valuesOf options "gateway-label").filterMap label?) })
  | ["api", "generate"] => some .api
  | _ => none

/-- What the inputs of all commands ask for. -/
def Invocation.ofInputs? (preset : Option String) (inputs : List CommandInput) :
    Option Invocation := do
  let innermost ← inputs.getLast?
  let options := innermost.options
  let task ← task? ((inputs.drop 1).map CommandInput.name) options
  some {
    logFilter := ((sharedValue? inputs "log-level").or preset).getD defaultLogFilter
    logFormat := if sharedValue? inputs "log-format" = some "json" then .json else .plain
    task
    source := innermost.operand.getD (valueOf options "oas")
    format := if valueOf? options "output-format" = some "json" then .json else .yaml
    output := valueOf? options "output" }

/-- Reads a command line; `preset` is the log filter of the environment. -/
def Invocation.ofArguments (preset : Option String) (arguments : List String) :
    Except UsageError Invocation := do
  let inputs ← read program preset.isSome arguments
  match Invocation.ofInputs? preset inputs with
  | some invocation => .ok invocation
  | none => .error .missingSubcommand

end ApiManifest.CommandLine
