import ApiManifest.Proofs.Json.Syntax
import ApiManifest.OpenApi.Document

/-!
The OpenAPI document that a JSON value denotes. Each field that is modelled has the type that is
expected of it, and other members are passed over.
-/

namespace ApiManifest

namespace JsonSyntax

variable {α : Type}

abbrev Decoder (α : Type) := Value → Option α

def mandatory (name : String) (decode : Decoder α) (members : List (String × Value)) : Option α :=
  (members.lookup name).bind decode

def optional (name : String) (decode : Decoder α) (members : List (String × Value)) :
    Option (Option α) :=
  match members.lookup name with
  | some value => if value.isNull then some none else (decode value).map some
  | none => some none

def withDefault (name : String) (decode : Decoder α) (default : α)
    (members : List (String × Value)) : Option α :=
  match members.lookup name with
  | some value => decode value
  | none => some default

def list (decode : Decoder α) : Decoder (List α) := fun value => do
  (← value.items?).mapM decode

/-- The members of an object in their order, of which no two have the same key. -/
def dict (decode : Decoder α) : Decoder (Dict α) := fun value => do
  let entries ← (← value.members?).mapM (fun member =>
    (decode member.2).map (fun found => (member.1, found)))
  if distinct : (entries.map Prod.fst).Nodup then some ⟨entries, distinct⟩ else none

end JsonSyntax

namespace OpenApi

open JsonSyntax (Value Decoder mandatory optional withDefault list dict)

def Info.ofJson? : Decoder Info := fun value => do
  let members ← value.members?
  let title ← withDefault "title" Value.text? "" members
  let version ← withDefault "version" Value.text? "" members
  some { title, version }

def serverDefault? : Decoder String := fun value => do
  let members ← value.members?
  withDefault "default" Value.text? "" members

def Server.ofJson? : Decoder Server := fun value => do
  let members ← value.members?
  let url ← mandatory "url" Value.text? members
  let defaults ← withDefault "variables" (dict serverDefault?) .empty members
  some { url, defaults }

def ParameterLocation.ofJson? : Decoder ParameterLocation := fun value => do
  let text ← value.text?
  all.find? (fun location => location.name = text)

def Parameter.ofJson? : Decoder Parameter := fun value => do
  let members ← value.members?
  let name ← mandatory "name" Value.text? members
  let location ← mandatory "in" ParameterLocation.ofJson? members
  let required ← withDefault "required" Value.flag? false members
  some { name, location, required }

/-- A reference if there is a target, whatever stands beside it. -/
def ParameterUse.ofJson? : Decoder ParameterUse := fun value => do
  let members ← value.members?
  match members.lookup "$ref" with
  | some target => target.text?.map ParameterUse.reference
  | none => (Parameter.ofJson? value).map ParameterUse.inline

def Requirement.ofJson? : Decoder Requirement :=
  dict (list Value.text?)

def Operation.ofJson? : Decoder Operation := fun value => do
  let members ← value.members?
  let operationId ← optional "operationId" Value.text? members
  let parameters ← withDefault "parameters" (list ParameterUse.ofJson?) [] members
  let security ← optional "security" (list Requirement.ofJson?) members
  let extension ← optional "x-kuadrant" Value.json? members
  some { operationId, parameters, security, extension }

def PathItem.ofJson? : Decoder PathItem := fun value => do
  let members ← value.members?
  let parameters ← withDefault "parameters" (list ParameterUse.ofJson?) [] members
  let get ← optional "get" Operation.ofJson? members
  let put ← optional "put" Operation.ofJson? members
  let post ← optional "post" Operation.ofJson? members
  let delete ← optional "delete" Operation.ofJson? members
  let options ← optional "options" Operation.ofJson? members
  let head ← optional "head" Operation.ofJson? members
  let patch ← optional "patch" Operation.ofJson? members
  let trace ← optional "trace" Operation.ofJson? members
  let extension ← optional "x-kuadrant" Value.json? members
  some { parameters, get, put, post, delete, options, head, patch, trace, extension }

def SecurityScheme.ofJson? : Decoder SecurityScheme := fun value => do
  let members ← value.members?
  let kind ← mandatory "type" Value.text? members
  let location ← optional "in" Value.text? members
  let name ← optional "name" Value.text? members
  let openIdConnectUrl ← optional "openIdConnectUrl" Value.text? members
  some { kind, location, name, openIdConnectUrl }

def Components.ofJson? : Decoder Components := fun value => do
  let members ← value.members?
  let parameters ← withDefault "parameters" (dict Parameter.ofJson?) .empty members
  let securitySchemes ← withDefault "securitySchemes" (dict SecurityScheme.ofJson?) .empty members
  some { parameters, securitySchemes }

def Document.ofJson? : Decoder Document := fun value => do
  let members ← value.members?
  let version ← withDefault "openapi" Value.text? "" members
  let info ← withDefault "info" Info.ofJson? ⟨"", ""⟩ members
  let servers ← withDefault "servers" (list Server.ofJson?) [] members
  let paths ← withDefault "paths" (dict PathItem.ofJson?) .empty members
  let components ← withDefault "components" Components.ofJson? ⟨.empty, .empty⟩ members
  let security ← optional "security" (list Requirement.ofJson?) members
  let extension ← optional "x-kuadrant" Value.json? members
  some { version, info, servers, paths, components, security, extension }

end OpenApi

end ApiManifest
