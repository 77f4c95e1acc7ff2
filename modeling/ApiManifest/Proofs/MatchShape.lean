import ApiManifest.Proofs.ParameterOverriding

/-!
What the match of an operation consists of: its path after the base path, its verb, and the names of
the required parameters, for the headers and for the query each from one list alone. A list counts by
what its entries stand for. It may refer to a declared parameter instead of giving it in place, and
parameters of the path and cookies may come and go without a trace in the match.
-/

namespace ApiManifest

open Gateway (PathMatchType RouteMatch ValueMatch)
open OpenApi (Components Document Parameter ParameterLocation ParameterUse)
open Resolution (bind_eq_ok mapM_eq_ok_iff)

theorem OpenApi.Components.referenced?_declared (components : Components) (name : String) :
    components.referenced? (OpenApi.parameterReferenceStart ++ name) =
      components.parameters.get? name := by
  have starts : OpenApi.parameterReferenceStart.toList.isPrefixOf
      (OpenApi.parameterReferenceStart.toList ++ name.toList) = true :=
    List.isPrefixOf_iff_prefix.2 (List.prefix_append _ _)
  unfold Components.referenced?
  simp only [String.toList_append]
  rw [if_pos starts, List.drop_left, String.ofList_toList]

namespace RequestMatch

/-- The match of an operation that stands in the document, or that might. -/
def ofSite (document : Document) (site : Site) (type : PathMatchType) :
    Except GenerationError RouteMatch := do
  let pathPrefix ← document.pathPrefix
  build document.components pathPrefix site type

def Site.withParameters (site : Site) (own shared : List ParameterUse) : Site :=
  { site with
    item := { site.item with parameters := shared }
    operation := { site.operation with parameters := own } }

/-! ### Which names are asked for -/

def StandFor (components : Components) : List ParameterUse → List Parameter → Prop :=
  List.Forall₂ (fun use parameter => resolve components use = .ok parameter)

def requiredAt (parameters : List Parameter) (location : ParameterLocation) : List String :=
  (parameters.filter (fun p => p.required && p.location = location)).map Parameter.name

/-- The names that a match asks for at a location: those that the operation requires there, and if
there are none those that its path requires. -/
inductive Chosen (components : Components) (site : Site) (location : ParameterLocation) :
    List String → Prop where
  | own {parameters : List Parameter}
      (stand : StandFor components site.operation.parameters parameters)
      (required : requiredAt parameters location ≠ []) :
      Chosen components site location (requiredAt parameters location)
  | shared {own parameters : List Parameter}
      (ownStand : StandFor components site.operation.parameters own)
      (leaves : requiredAt own location = [])
      (stand : StandFor components site.item.parameters parameters) :
      Chosen components site location (requiredAt parameters location)

/-- The conditions are those on these names, and are left out if there is no name. -/
def AskFor (conditions : Option (List ValueMatch)) (names : List String) : Prop :=
  conditions.getD [] = names.map ValueMatch.exact ∧ conditions ≠ some []

section Names

variable {components : Components} {site : Site} {uses : List ParameterUse}
  {location : ParameterLocation} {names : List String}

theorem requiredNames_eq_ok_iff :
    requiredNames components uses location = .ok names ↔
      ∃ parameters, StandFor components uses parameters ∧
        requiredAt parameters location = names := by
  unfold requiredNames
  constructor
  · intro done
    obtain ⟨parameters, found, done⟩ := bind_eq_ok done
    exact ⟨parameters, mapM_eq_ok_iff.1 found, Except.ok.inj done⟩
  · rintro ⟨parameters, stand, rfl⟩
    rw [mapM_eq_ok_iff.2 stand]
    rfl

theorem chosen_of_overriding
    (done : overriding components site.item site.operation location = .ok names) :
    Chosen components site location names := by
  unfold overriding at done
  obtain ⟨own, ownFound, done⟩ := bind_eq_ok done
  obtain ⟨parameters, stand, rfl⟩ := requiredNames_eq_ok_iff.1 ownFound
  split at done
  next leaves =>
    obtain ⟨shared, sharedStand, rfl⟩ := requiredNames_eq_ok_iff.1 done
    exact .shared stand (List.isEmpty_iff.1 leaves) sharedStand
  next required =>
    cases done
    exact .own stand (fun nothing => required (List.isEmpty_iff.2 nothing))

theorem askFor_conditions (names : List String) : AskFor (conditions names) names := by
  cases names with
  | nil => exact ⟨rfl, fun same => nomatch same⟩
  | cons first rest => exact ⟨rfl, fun same => nomatch same⟩

end Names

structure HasShape (components : Components) (pathPrefix : String) (site : Site)
    (type : PathMatchType) (matcher : RouteMatch) : Prop where
  path : matcher.path = some ⟨some type, some (pathPrefix ++ site.path)⟩
  method : matcher.method = some site.method
  headers : ∃ names, Chosen components site .header names ∧ AskFor matcher.headers names
  queryParams : ∃ names, Chosen components site .query names ∧ AskFor matcher.queryParams names

theorem hasShape_of_build {components : Components} {pathPrefix : String} {site : Site}
    {type : PathMatchType} {matcher : RouteMatch}
    (built : build components pathPrefix site type = .ok matcher) :
    HasShape components pathPrefix site type matcher := by
  unfold build at built
  obtain ⟨headers, headersFound, built⟩ := bind_eq_ok built
  obtain ⟨queryParams, queryFound, built⟩ := bind_eq_ok built
  cases built
  exact {
    path := rfl
    method := rfl
    headers := ⟨headers, chosen_of_overriding headersFound, askFor_conditions headers⟩
    queryParams := ⟨queryParams, chosen_of_overriding queryFound, askFor_conditions queryParams⟩ }

/-! ### Lists that say the same -/

/-- Both lists say the same of the headers and of the query: what is given in place in the first may
be referred to in the second, and what the first has of the path or of cookies may be left out. -/
inductive Restates (components : Components) : List ParameterUse → List ParameterUse → Prop where
  | nil : Restates components [] []
  | keep (use : ParameterUse) {uses others : List ParameterUse}
      (rest : Restates components uses others) :
      Restates components (use :: uses) (use :: others)
  | refer {name : String} {parameter : Parameter} {uses others : List ParameterUse}
      (declared : components.parameters.get? name = some parameter)
      (rest : Restates components uses others) :
      Restates components (.inline parameter :: uses)
        (.reference (OpenApi.parameterReferenceStart ++ name) :: others)
  | leave {use : ParameterUse} {parameter : Parameter} {uses others : List ParameterUse}
      (stands : resolve components use = .ok parameter)
      (elsewhere : parameter.location = .path ∨ parameter.location = .cookie)
      (rest : Restates components uses others) :
      Restates components (use :: uses) others

section Restated

variable {components : Components} {site : Site} {uses others own shared : List ParameterUse}
  {location : ParameterLocation}

theorem requiredNames_cons (components : Components) (use : ParameterUse)
    (uses : List ParameterUse) (location : ParameterLocation) :
    requiredNames components (use :: uses) location = do
      let parameter ← resolve components use
      let names ← requiredNames components uses location
      return if parameter.required && parameter.location = location then parameter.name :: names
        else names := by
  unfold requiredNames
  rw [List.mapM_cons]
  cases resolve components use with
  | error error => rfl
  | ok parameter =>
    cases uses.mapM (resolve components) with
    | error error => rfl
    | ok parameters =>
      change Except.ok (List.map _ (List.filter _ (parameter :: parameters))) = Except.ok _
      rw [List.filter_cons]
      split <;> rfl

/-- Going through lists that say the same yields the same names, or the same failure. -/
theorem requiredNames_restated (restated : Restates components uses others)
    (varies : location = .header ∨ location = .query) :
    requiredNames components others location = requiredNames components uses location := by
  induction restated with
  | nil => rfl
  | keep use _ ih => rw [requiredNames_cons, requiredNames_cons, ih]
  | @refer name parameter _ _ declared _ ih =>
    have stands : resolve components (.reference (OpenApi.parameterReferenceStart ++ name)) =
        .ok parameter := by
      simp only [resolve, Components.referenced?_declared, declared]
    rw [requiredNames_cons, requiredNames_cons, ih, stands]
    rfl
  | @leave use parameter uses _ stands elsewhere _ ih =>
    have apart : parameter.location ≠ location := by
      rcases varies with rfl | rfl <;> rcases elsewhere with here | here <;> simp [here]
    rw [requiredNames_cons, stands, ih]
    cases requiredNames components uses location with
    | error error => rfl
    | ok names =>
      change Except.ok names = Except.ok (if _ then _ else names)
      rw [if_neg (by simp [apart])]

theorem overriding_restated (ownRestated : Restates components site.operation.parameters own)
    (sharedRestated : Restates components site.item.parameters shared)
    (varies : location = .header ∨ location = .query) :
    overriding components (site.withParameters own shared).item
        (site.withParameters own shared).operation location =
      overriding components site.item site.operation location := by
  unfold overriding Site.withParameters
  simp only [requiredNames_restated ownRestated varies,
    requiredNames_restated sharedRestated varies]

theorem build_restated (ownRestated : Restates components site.operation.parameters own)
    (sharedRestated : Restates components site.item.parameters shared) (pathPrefix : String)
    (type : PathMatchType) :
    build components pathPrefix (site.withParameters own shared) type =
      build components pathPrefix site type := by
  unfold build
  rw [overriding_restated ownRestated sharedRestated (Or.inl rfl),
    overriding_restated ownRestated sharedRestated (Or.inr rfl)]
  rfl

end Restated

end RequestMatch

namespace Generate

open OpenApi (Operation)
open RequestMatch (Restates Site)

def requestId : ParameterUse :=
  .inline ⟨"X-Request-Id", .header, true⟩

def petId : ParameterUse :=
  .inline ⟨"id", .path, true⟩

def page : Parameter :=
  ⟨"page", .query, true⟩

def pagedShop : Document :=
  { petstore with
    servers := [⟨"/v1/", .empty⟩]
    components := { petstore.components with parameters := .ofList [("Page", page)] } }

def pagedSite : Site :=
  let operation : Operation := ⟨some "showPetById",
    [requestId, petId, .inline ⟨"X-Trace", .header, true⟩, .inline ⟨"limit", .query, false⟩,
      requestId], none, none⟩
  ⟨"/pets/\x7bid\x7d", { readItem operation with parameters := [.inline page] }, .get, operation⟩

end Generate

end ApiManifest
