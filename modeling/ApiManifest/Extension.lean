import ApiManifest.GenerationError
import ApiManifest.Policy.RateLimit

/-!
The vendor extension of a document. At the root it says which route the manifests belong to; at a
path and at an operation it says how requests are matched, where they are sent and how often they
may come.
-/

namespace ApiManifest.Extension

open Gateway (BackendRef ParentRef PathMatchType)
open Policy (Condition Rate)

/-- The route as the extension names it. -/
structure RouteObject where
  name : Option String
  nameSpace : Option String
  hostnames : List String
  parentRefs : List ParentRef
  labels : SortedDict String
  deriving DecidableEq

structure Root where
  route : Option RouteObject
  deriving DecidableEq

/-- When requests are limited, what they are counted by, and how many may come. -/
structure RateLimit where
  conditions : Option (List Condition)
  counters : Option (List String)
  rates : Option (List Rate)
  deriving DecidableEq

/-- What a path or an operation sets. -/
structure Settings where
  disable : Option Bool
  pathMatchType : Option PathMatchType
  backendRefs : List BackendRef
  rateLimit : Option RateLimit
  deriving DecidableEq

def Root.nothing : Root :=
  ⟨none⟩

def Settings.nothing : Settings :=
  ⟨none, none, [], none⟩

/-- Labels are texts; numbers and booleans are taken as they are written. -/
def labelText? : Json → Option String
  | .string text => some text
  | .int n => some (toString n)
  | .float x => some (Decimal.plainText x)
  | .bool true => some "true"
  | .bool false => some "false"
  | _ => none

def labelsReader : Reader (SortedDict String) := fun datum => do
  let values ← Reader.sorted Reader.json datum
  let texts ← values.entries.mapM (fun entry =>
    match labelText? entry.2 with
    | some text => pure (entry.1, text)
    | none => Read.refuse (.labelNotScalar entry.1 entry.2))
  return .ofList texts

def RouteObject.reader : Reader RouteObject :=
  Reader.map (fun (name, nameSpace, hostnames, parentRefs, labels, ()) =>
    { name, nameSpace, hostnames, parentRefs, labels }) <|
    Reader.fields "RouteObject"
      (.cons (.optional "name" Reader.text) <|
        .cons (.optional "namespace" Reader.text) <|
        .cons (.withDefault "hostnames" (Reader.list Reader.text) []) <|
        .cons (.withDefault "parentRefs" (Reader.list ParentRef.codec.read) []) <|
        .cons (.withDefault "labels" labelsReader .empty) .nil)

def Root.reader : Reader Root :=
  Reader.map (fun (route, ()) => { route }) <|
    Reader.fields "RootExtension" (.cons (.optional "route" RouteObject.reader) .nil)

def RateLimit.reader : Reader RateLimit :=
  Reader.map (fun (conditions, counters, rates, ()) => { conditions, counters, rates }) <|
    Reader.fields "RateLimitExtension"
      (.cons (.optional "when" (Reader.list Condition.codec.read)) <|
        .cons (.optional "counters" (Reader.list Reader.text)) <|
        .cons (.optional "rates" (Reader.list Rate.codec.read)) .nil)

def Settings.reader : Reader Settings :=
  Reader.map (fun (disable, pathMatchType, backendRefs, rateLimit, ()) =>
    { disable, pathMatchType, backendRefs, rateLimit }) <|
    Reader.fields "Extension"
      (.cons (.optional "disable" Reader.flag) <|
        .cons (.optional "pathMatchType" PathMatchType.codec.read) <|
        .cons (.withDefault "backendRefs" (Reader.list BackendRef.codec.read) []) <|
        .cons (.optional "rate_limit" RateLimit.reader) .nil)

/-- Reads the extension at a place; one that is not there or is null says nothing. -/
def read {α : Type} (reader : Reader α) (nothing : α) (place : ExtensionPlace) :
    Option Json → Except GenerationError α
  | none => .ok nothing
  | some .null => .ok nothing
  | some value =>
    match reader (.json value) 0 with
    | .ok (result, _) => .ok result
    | .error cause => .error (.invalidExtension place cause)

/-- The extension at the root of a document. -/
def Root.ofJson (value : Option Json) : Except GenerationError Root :=
  read Root.reader .nothing .root value

/-- The route a root extension names. -/
def Root.namedRoute (root : Root) : Except GenerationError RouteObject :=
  match root.route with
  | some route => .ok route
  | none => .error .missingRouteExtension

/-- The extension at a path or an operation. -/
def Settings.ofJson (place : ExtensionPlace) (value : Option Json) :
    Except GenerationError Settings :=
  read Settings.reader .nothing place value

end ApiManifest.Extension
