import ApiManifest.OpenApi.Document
import ApiManifest.Codec

/-!
How OpenAPI documents are read from YAML text. What a document does not say is empty, and entries
that are not modelled are passed over.
-/

namespace ApiManifest

/-- Reads the only document of a text. A text without a document is read as one that says nothing,
and references may be followed a hundred times for each part of the text. -/
def Reader.ofText? {α : Type} (reader : Reader α) (text : List Char) : Option α := do
  let stream ← Yaml.Stream.parse? text
  let root := stream.root.getD .absent
  match reader (.node ⟨stream.anchors, 128, false⟩ root) (100 * stream.size) with
  | .ok (value, _) => some value
  | .error _ => none

namespace OpenApi

open Reader (text flag list dict json)

def Info.reader : Reader Info :=
  Reader.map (fun (title, version, ()) => { title, version }) <|
    Reader.fields "Info"
      (.cons (.withDefault "title" text "") <| .cons (.withDefault "version" text "") .nil)

def serverVariable : Reader String :=
  Reader.map (fun (value, ()) => value) <|
    Reader.fields "ServerVariable" (.cons (.withDefault "default" text "") .nil)

def Server.reader : Reader Server :=
  Reader.map (fun (url, defaults, ()) => { url, defaults }) <|
    Reader.fields "Server"
      (.cons (.required "url" text) <|
        .cons (.withDefault "variables" (dict serverVariable) .empty) .nil)

def ParameterLocation.codec : Codec ParameterLocation :=
  .choice (all.map (fun location => (location.name, location))) name

def Parameter.reader : Reader Parameter :=
  Reader.map (fun (name, location, required, ()) => { name, location, required }) <|
    Reader.fields "Parameter"
      (.cons (.required "name" text) <|
        .cons (.required "in" ParameterLocation.codec.read) <|
        .cons (.withDefault "required" flag false) .nil)

/-- The target of a reference, whatever stands beside it. -/
def ParameterUse.referenceReader : Reader ParameterUse :=
  Reader.map (fun ((target, ()), _) => .reference target) <|
    Reader.namedFields "a reference" false (.cons (.required "$ref" text) .nil)

/-- Here scalars have types, as the two forms are told apart by what they hold. -/
def ParameterUse.reader : Reader ParameterUse := fun datum => do
  let content := Datum.content (← datum.typed)
  Read.orElse (referenceReader content) (Parameter.reader.map ParameterUse.inline content)

def Requirement.reader : Reader Requirement :=
  dict (list text)

def Operation.reader : Reader Operation :=
  Reader.map (fun (operationId, parameters, security, extension, ()) =>
    { operationId, parameters, security, extension }) <|
    Reader.fields "Operation"
      (.cons (.optional "operationId" text) <|
        .cons (.withDefault "parameters" (list ParameterUse.reader) []) <|
        .cons (.optional "security" (list Requirement.reader)) <|
        .cons (.optional "x-kuadrant" json) .nil)

def PathItem.reader : Reader PathItem :=
  Reader.map (fun (parameters, get, put, post, delete, options, head, patch, trace, extension, ()) =>
    { parameters, get, put, post, delete, options, head, patch, trace, extension }) <|
    Reader.fields "PathItem"
      (.cons (.withDefault "parameters" (list ParameterUse.reader) []) <|
        .cons (.optional "get" Operation.reader) <|
        .cons (.optional "put" Operation.reader) <|
        .cons (.optional "post" Operation.reader) <|
        .cons (.optional "delete" Operation.reader) <|
        .cons (.optional "options" Operation.reader) <|
        .cons (.optional "head" Operation.reader) <|
        .cons (.optional "patch" Operation.reader) <|
        .cons (.optional "trace" Operation.reader) <|
        .cons (.optional "x-kuadrant" json) .nil)

def SecurityScheme.reader : Reader SecurityScheme :=
  Reader.map (fun (kind, location, name, openIdConnectUrl, ()) =>
    { kind, location, name, openIdConnectUrl }) <|
    Reader.fields "SecurityScheme"
      (.cons (.required "type" text) <|
        .cons (.optional "in" text) <|
        .cons (.optional "name" text) <|
        .cons (.optional "openIdConnectUrl" text) .nil)

def Components.reader : Reader Components :=
  Reader.map (fun (parameters, securitySchemes, ()) => { parameters, securitySchemes }) <|
    Reader.fields "Components"
      (.cons (.withDefault "parameters" (dict Parameter.reader) .empty) <|
        .cons (.withDefault "securitySchemes" (dict SecurityScheme.reader) .empty) .nil)

def Document.reader : Reader Document :=
  Reader.map (fun (version, info, servers, paths, components, security, extension, ()) =>
    { version, info, servers, paths, components, security, extension }) <|
    Reader.fields "Document"
      (.cons (.withDefault "openapi" text "") <|
        .cons (.withDefault "info" Info.reader ⟨"", ""⟩) <|
        .cons (.withDefault "servers" (list Server.reader) []) <|
        .cons (.withDefault "paths" (dict PathItem.reader) .empty) <|
        .cons (.withDefault "components" Components.reader ⟨.empty, .empty⟩) <|
        .cons (.optional "security" (list Requirement.reader)) <|
        .cons (.optional "x-kuadrant" json) .nil)

/-- The document that a YAML text holds. -/
def Document.parse? (text : String) : Option Document :=
  Document.reader.ofText? text.toList

end OpenApi

end ApiManifest
