import ApiManifest.CommandLine.Run

/-!
The program itself: it reads the document and writes the manifest, what is logged, and what went
wrong. All that is decided is decided by the run's own steps.
-/

namespace ApiManifest.Program

open CommandLine

def usageText : String :=
  "\n".intercalate [
    "Generates Kuadrant, Gateway API and Istio resources from OpenAPI documents",
    "",
    "Usage:",
    "  kuadrantctl generate gatewayapi httproute --oas FILE",
    "  kuadrantctl generate kuadrant authconfig --oas FILE --public-host HOST",
    "  kuadrantctl generate kuadrant authpolicy --oas FILE",
    "  kuadrantctl generate kuadrant ratelimitpolicy --oas FILE",
    "  kuadrantctl generate istio virtualservice --oas FILE --public-host HOST",
    "      --service-name NAME --service-namespace NAMESPACE --gateway GATEWAY...",
    "      [--service-port PORT] [--path-prefix-match]",
    "  kuadrantctl generate istio authorizationpolicy --oas FILE --public-host HOST",
    "      --gateway-label KEY=VALUE...",
    "  kuadrantctl api generate FILE [-o FILE]",
    "",
    "Options:",
    "  --output-format yaml|json  (-o where a FILE is not written)",
    "  --log-level FILTER",
    "  --log-format plain|json"]

/-- An error with what lies behind it. -/
def errorText : List String → String
  | [] => "Error"
  | [text] => "Error: " ++ text
  | text :: causes => "\n".intercalate (("Error: " ++ text) :: "" :: "Caused by:" ::
      causes.map (fun cause => "    " ++ cause))

def fieldJson : Log.FieldValue → Json
  | .text value => .string value
  | .count n => .int n

def fieldText : Log.FieldValue → String
  | .text value => value
  | .count n => toString n

/-- An event as one line. -/
def eventText (format : LogFormat) (event : Log.Event) : String :=
  match format with
  | .plain => event.level.name ++ " " ++ event.target ++ ": " ++ event.message
      ++ String.join (event.fields.map (fun field => " " ++ field.1 ++ "=" ++ fieldText field.2))
  | .json => (Json.ofEntries [
      ("level", .string event.level.name),
      ("target", .string event.target),
      ("fields", .ofEntries (("message", .string event.message) ::
        event.fields.map (fun field => (field.1, fieldJson field.2))))]).compact

/-- Reads a stream up to its end. -/
partial def readAll (stream : IO.FS.Stream) (got : ByteArray) : IO ByteArray := do
  let bytes ← stream.read 65536
  if bytes.isEmpty then return got else readAll stream (got ++ bytes)

/-- What was read, or the messages of the error. -/
def readSource (source : String) : IO (Except (List String) ByteArray) := do
  match Source.ofText source with
  | .remote => return .error (RunError.remoteSource source).messages
  | .standardInput =>
    try
      return .ok (← readAll (← IO.getStdin) .empty)
    catch error =>
      return .error ["failed to read OpenAPI document from standard input", toString error]
  | .file =>
    try
      return .ok (← IO.FS.readBinFile source)
    catch error =>
      return .error ["failed to read " ++ source, toString error]

def fail (messages : List String) : IO UInt32 := do
  IO.eprintln (errorText messages)
  return 1

def log (invocation : Invocation) (filter : Log.Filter) (events : List Log.Event) : IO Unit := do
  for event in events.filter filter.enables do
    IO.eprintln (eventText invocation.logFormat event)

/-- Writes the text of a manifest where it should go. -/
def deliver (invocation : Invocation) (filter : Log.Filter) (text : String) : IO UInt32 := do
  match invocation.output with
  | none =>
    IO.print text
    return 0
  | some path =>
    try
      IO.FS.writeFile path text
      log invocation filter [wroteEvent path]
      return 0
    catch error =>
      fail ["failed to write " ++ path, toString error]

def runInvocation (invocation : Invocation) : IO UInt32 := do
  match invocation.checkLogFilter with
  | .error error => fail error.messages
  | .ok filter =>
    match ← readSource invocation.source with
    | .error messages => fail messages
    | .ok bytes =>
      match (String.fromUTF8? bytes).map invocation.decode with
      | none => fail (RunError.unparsable invocation.source).messages
      | some (.error error) => fail error.messages
      | some (.ok document) =>
        log invocation filter (invocation.documentEvents document)
        match invocation.produce document with
        | .error error => fail error.messages
        | .ok text => deliver invocation filter text

end ApiManifest.Program

open ApiManifest in
def main (arguments : List String) : IO UInt32 := do
  let preset ← IO.getEnv CommandLine.logVariable
  match CommandLine.Invocation.ofArguments preset arguments with
  | .ok invocation => Program.runInvocation invocation
  | .error error =>
    if error.isMistake then
      IO.eprintln Program.usageText
      return 2
    else
      IO.println Program.usageText
      return 0
