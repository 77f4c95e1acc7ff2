import ApiManifest.CommandLine.Invocation
import ApiManifest.CommandLine.Workspace
import ApiManifest.Generate.Api
import ApiManifest.Generate.Events
import ApiManifest.Generate.HttpRoute
import ApiManifest.Log.Filter
import ApiManifest.OpenApi.Reading
import ApiManifest.Wire.Json
import ApiManifest.Wire.Yaml

/-!
A run of the program: the document is loaded, the manifest is made and encoded, and only then is
anything written.
-/

namespace ApiManifest.CommandLine

open Log (Event)
open OpenApi (Document)

/-- Why a run fails. -/
inductive RunError where
  | invalidLogFilter (text : String)
  | unreadableInput (fault : FileFault)
  | remoteSource (source : String)
  | unreadableFile (path : String) (fault : FileFault)
  | unparsable (source : String)
  | generation (kind : String) (error : GenerationError)
  | unwritable (path : String) (fault : FileFault)
  deriving DecidableEq

/-- What is said about an error, from the outermost cause to the innermost. -/
def RunError.messages : RunError → List String
  | .invalidLogFilter text => ["invalid log filter: " ++ text]
  | .unreadableInput fault =>
    ["failed to read OpenAPI document from standard input", fault.message]
  | .remoteSource source =>
    ["remote OpenAPI documents are not supported, download " ++ source ++ " first"]
  | .unreadableFile path fault => ["failed to read " ++ path, fault.message]
  | .unparsable source =>
    ["failed to parse OpenAPI document from " ++ source, "failed to parse OpenAPI document"]
  | .generation kind error =>
    ["failed to generate " ++ kind, error.message] ++ error.cause?.toList
  | .unwritable path fault => ["failed to write " ++ path, fault.message]

namespace Task

/-- The kind of manifest, as messages call it. -/
def kind : Task → String
  | .httpRoute => "HTTPRoute"
  | .authPolicy => "AuthPolicy"
  | .rateLimitPolicy => "RateLimitPolicy"
  | .authConfig _ => "AuthConfig"
  | .virtualService _ => "VirtualService"
  | .authorizationPolicy _ => "AuthorizationPolicy"
  | .api => "API"

def generate (document : Document) : Task → Except GenerationError Wire
  | .httpRoute => (Generate.httpRoute document).map Manifest.toWire
  | .authPolicy => (Generate.authPolicy document).map Manifest.toWire
  | .rateLimitPolicy => (Generate.rateLimitPolicy document).map Manifest.toWire
  | .authConfig publicHost => (Generate.authConfig document publicHost).map Manifest.toWire
  | .virtualService config => (Generate.virtualService document config).map Manifest.toWire
  | .authorizationPolicy config =>
    (Generate.authorizationPolicy document config).map Manifest.toWire
  | .api => (Generate.api document).map Manifest.toWire

/-- That a manifest is about to be made, where that is logged. -/
def announcement (task : Task) : List Event :=
  let event : Event :=
    { level := .debug, target := "kuadrantctl::args", message := "Generating " ++ task.kind
      fields := [] }
  match task with
  | .virtualService _ => [event]
  | .authorizationPolicy _ => [event]
  | _ => []

def events (document : Document) : Task → List Event
  | .httpRoute => Generate.httpRouteEvents document
  | .authPolicy => Generate.authPolicyEvents document
  | .rateLimitPolicy => Generate.rateLimitPolicyEvents document
  | .authConfig _ => Generate.authConfigEvents document
  | .virtualService _ => Generate.meshEvents document
  | .authorizationPolicy _ => Generate.meshEvents document
  | .api => []

end Task

def encode (format : OutputFormat) (manifest : Wire) : String :=
  match format with
  | .yaml => manifest.toYaml
  | .json => manifest.toJsonText

inductive Source where
  | standardInput
  | remote
  | file
  deriving DecidableEq

/-- A dash is standard input, and a web address in any case is remote. -/
def Source.ofText (text : String) : Source :=
  let lower := text.toList.map Char.toLower
  if text = "-" then .standardInput
  else if "http://".toList.isPrefixOf lower || "https://".toList.isPrefixOf lower then .remote
  else .file

def Workspace.readSource (workspace : Workspace) (source : String) : Except RunError String :=
  match Source.ofText source with
  | .standardInput =>
    match workspace.input with
    | some text => .ok text
    | none => .error (.unreadableInput .isDirectory)
  | .remote => .error (.remoteSource source)
  | .file => (workspace.readFile source).mapError (.unreadableFile source)

def loadedEvent (source : String) (document : Document) : Event where
  level := .debug
  target := "kuadrantctl::resource"
  message := "Loaded OpenAPI document"
  fields := [("source", .text source), ("title", .text document.info.title),
    ("paths", .count document.paths.size)]

def wroteEvent (path : String) : Event where
  level := .info
  target := "kuadrantctl::output"
  message := "Wrote manifest"
  fields := [("path", .text path)]

/-- Where the text of a manifest goes. -/
inductive Delivery where
  | standardOutput (text : String)
  | file (path name text : String)
  deriving DecidableEq

namespace Invocation

def checkLogFilter (invocation : Invocation) : Except RunError Log.Filter :=
  match Log.Filter.parse? invocation.logFilter with
  | some filter => .ok filter
  | none => .error (.invalidLogFilter invocation.logFilter)

/-- Decodes the document that a source holds. -/
def decode (invocation : Invocation) (text : String) : Except RunError Document :=
  match Document.parse? text with
  | some document => .ok document
  | none => .error (.unparsable invocation.source)

/-- The text of the manifest. -/
def produce (invocation : Invocation) (document : Document) : Except RunError String :=
  match invocation.task.generate document with
  | .ok manifest => .ok (encode invocation.format manifest)
  | .error error => .error (.generation invocation.task.kind error)

/-- Sends a manifest where it should go, if that can be written. -/
def deliver (invocation : Invocation) (workspace : Workspace) (text : String) :
    Except RunError Delivery :=
  match invocation.output with
  | none => .ok (.standardOutput text)
  | some path =>
    match workspace.writableName path with
    | .ok name => .ok (.file path name text)
    | .error fault => .error (.unwritable path fault)

def perform (invocation : Invocation) (workspace : Workspace) : Except RunError Delivery := do
  let _ ← invocation.checkLogFilter
  let text ← workspace.readSource invocation.source
  let document ← invocation.decode text
  let manifest ← invocation.produce document
  invocation.deliver workspace manifest

/-- What is logged while the manifest of a loaded document is made. -/
def documentEvents (invocation : Invocation) (document : Document) : List Event :=
  loadedEvent invocation.source document :: invocation.task.announcement
    ++ invocation.task.events document

def deliveryEvents : Except RunError Delivery → List Event
  | .ok (.file path ..) => [wroteEvent path]
  | _ => []

/-- All that is logged in a run and that the filter lets through. -/
def events (invocation : Invocation) (workspace : Workspace) : List Event :=
  match invocation.checkLogFilter with
  | .error _ => []
  | .ok filter =>
    match workspace.readSource invocation.source >>= invocation.decode with
    | .error _ => []
    | .ok document =>
      (invocation.documentEvents document ++ deliveryEvents (invocation.perform workspace)).filter
        filter.enables

end Invocation

/-- What a run leaves behind. -/
structure Report where
  exit : Nat
  output : String
  /-- The messages of the error, if there was one. -/
  errors : List String
  /-- The files that were written, by name. -/
  written : List (String × String)
  /-- The events that were logged. -/
  events : List Event
  deriving DecidableEq

def Report.ofResult (events : List Event) : Except RunError Delivery → Report
  | .ok (.standardOutput text) => ⟨0, text, [], [], events⟩
  | .ok (.file _ name text) => ⟨0, "", [], [(name, text)], events⟩
  | .error error => ⟨1, "", error.messages, [], events⟩

def Invocation.report (invocation : Invocation) (workspace : Workspace) : Report :=
  .ofResult (invocation.events workspace) (invocation.perform workspace)

/-- Runs the program with these arguments; `preset` is the log filter of the environment. -/
def run (preset : Option String) (arguments : List String) (workspace : Workspace) :
    Except UsageError Report := do
  let invocation ← Invocation.ofArguments preset arguments
  return invocation.report workspace

end ApiManifest.CommandLine
