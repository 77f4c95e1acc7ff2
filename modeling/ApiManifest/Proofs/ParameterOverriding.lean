import ApiManifest.Proofs.FirstFailure
import ApiManifest.Proofs.Generation

/-!
Whose parameters decide what a match asks for. For the headers, and on its own for the query, the
parameters of an operation take the place of those of its path as soon as the operation requires one
of them. An operation that declares parameters there without requiring any leaves the matter to its
path, and that is the one case in which a match asks for a parameter that the operation declares and
does not require.
-/

namespace ApiManifest

open Gateway (RouteMatch ValueMatch)
open OpenApi (Components Document ParameterLocation ParameterUse)
open RequestMatch (Site)

def Gateway.RouteMatch.conditionsAt (matcher : RouteMatch) :
    ParameterLocation → Option (List ValueMatch)
  | .header => matcher.headers
  | .query => matcher.queryParams
  | .path => none
  | .cookie => none

namespace Resolution

/-- The match has a condition on the value of that name at the location. -/
def AsksFor (matcher : RouteMatch) (location : ParameterLocation) (name : String) : Prop :=
  ∃ conditions, matcher.conditionsAt location = some conditions ∧
    ∃ condition ∈ conditions, condition.name = name

section Uses

variable (components : Components) (uses : List ParameterUse) (location : ParameterLocation)

def Declares (name : String) : Prop :=
  ∃ use ∈ uses, ∃ parameter, RequestMatch.resolve components use = .ok parameter ∧
    parameter.name = name ∧ parameter.location = location

def Requires (name : String) : Prop :=
  ∃ use ∈ uses, ∃ parameter, RequestMatch.resolve components use = .ok parameter ∧
    parameter.name = name ∧ parameter.location = location ∧ parameter.required = true

variable {components uses location}

theorem resolve_eq_ok_iff {use : ParameterUse} {parameter : OpenApi.Parameter} :
    RequestMatch.resolve components use = .ok parameter ↔
      parameter? components use = some parameter := by
  cases use with
  | inline own => simp [RequestMatch.resolve, parameter?]
  | reference target =>
    cases found : components.referenced? target <;> simp [RequestMatch.resolve, parameter?, found]

theorem mem_namesAt {name : String} :
    name ∈ namesAt components uses location ↔ Requires components uses location name := by
  unfold namesAt Requires
  constructor
  · intro member
    obtain ⟨parameter, kept, rfl⟩ := List.mem_map.1 member
    obtain ⟨stands, wanted⟩ := List.mem_filter.1 kept
    obtain ⟨use, inside, found⟩ := List.mem_filterMap.1 stands
    simp only [Bool.and_eq_true, decide_eq_true_eq] at wanted
    exact ⟨use, inside, parameter, resolve_eq_ok_iff.2 found, rfl, wanted.2, wanted.1⟩
  · rintro ⟨use, inside, parameter, found, rfl, here, required⟩
    apply List.mem_map_of_mem
    apply List.mem_filter.2
    exact ⟨List.mem_filterMap.2 ⟨use, inside, resolve_eq_ok_iff.1 found⟩, by simp [here, required]⟩

theorem namesAt_isEmpty_iff :
    (namesAt components uses location).isEmpty = true ↔
      ∀ name, ¬ Requires components uses location name := by
  rw [List.isEmpty_iff, List.eq_nil_iff_forall_not_mem]
  exact forall_congr' fun name => not_congr mem_namesAt

end Uses

variable {components : Components} {site : Site} {location : ParameterLocation}

theorem exists_conditions_iff (names : List String) (name : String) :
    (∃ conditions, RequestMatch.conditions names = some conditions ∧
      ∃ condition ∈ conditions, condition.name = name) ↔ name ∈ names := by
  unfold RequestMatch.conditions
  cases names with
  | nil => simp [Nonempty.list?]
  | cons first rest => simp [Nonempty.list?, ValueMatch.exact, eq_comm]

/-- The required parameters of the operation are asked for if there are any, else those of its
path. -/
theorem mem_namesFor {name : String} :
    name ∈ namesFor components site location ↔
      Requires components site.operation.parameters location name ∨
        (∀ other, ¬ Requires components site.operation.parameters location other) ∧
          Requires components site.item.parameters location name := by
  unfold namesFor
  by_cases bare : (namesAt components site.operation.parameters location).isEmpty = true
  · have none := namesAt_isEmpty_iff.1 bare
    simp only [bare, if_true, mem_namesAt, none name, false_or]
    exact ⟨fun required => ⟨none, required⟩, fun required => required.2⟩
  · have some : ¬ ∀ other, ¬ Requires components site.operation.parameters location other :=
      fun none => bare (namesAt_isEmpty_iff.2 none)
    simp only [bare, if_false, Bool.false_eq_true, mem_namesAt, some, false_and, or_false]

theorem asksFor_iff {pathPrefix : String} {type : Gateway.PathMatchType} {matcher : RouteMatch}
    (built : RequestMatch.build components pathPrefix site type = .ok matcher)
    (varies : location = .header ∨ location = .query) (name : String) :
    AsksFor matcher location name ↔ name ∈ namesFor components site location := by
  have made : matcher = {
      path := some ⟨some type, some (pathPrefix ++ site.path)⟩
      headers := RequestMatch.conditions (namesFor components site .header)
      queryParams := RequestMatch.conditions (namesFor components site .query)
      method := some site.method } := by
    rw [build_conclude] at built
    generalize Option.or _ _ = failure at built
    cases failure with
    | some error => cases built
    | none => exact (Except.ok.inj built).symm
  subst made
  rcases varies with rfl | rfl
  · exact exists_conditions_iff _ name
  · exact exists_conditions_iff _ name

/-- The match asks for no parameter that the operation declares without requiring it. -/
def OwnDecides (components : Components) (site : Site) (matcher : RouteMatch)
    (location : ParameterLocation) (name : String) : Prop :=
  AsksFor matcher location name → Declares components site.operation.parameters location name →
    Requires components site.operation.parameters location name

/-- What an operation declares of a header or of a query parameter decides whether its match asks
for it, unless the operation requires nothing there and its path requires just that parameter. -/
theorem own_declaration_decides_iff {pathPrefix : String} {type : Gateway.PathMatchType}
    {matcher : RouteMatch}
    (built : RequestMatch.build components pathPrefix site type = .ok matcher)
    (varies : location = .header ∨ location = .query) (name : String) :
    OwnDecides components site matcher location name ↔
      ¬ ((∀ other, ¬ Requires components site.operation.parameters location other) ∧
        Declares components site.operation.parameters location name ∧
        Requires components site.item.parameters location name) := by
  unfold OwnDecides
  rw [asksFor_iff built varies, mem_namesFor]
  constructor
  · rintro decides ⟨none, declared, shared⟩
    exact none name (decides (Or.inr ⟨none, shared⟩) declared)
  · intro apart asked declared
    rcases asked with own | ⟨none, shared⟩
    · exact own
    · exact absurd ⟨none, declared, shared⟩ apart

end Resolution

namespace Generate

open OpenApi (Operation PathItem)

def tenantItem (parameters : List ParameterUse) : PathItem :=
  { readItem ⟨some "listPets", parameters, none, none⟩ with
    parameters := [.inline ⟨"X-Tenant", .header, true⟩] }

def tenantShop (parameters : List ParameterUse) : Document :=
  { petstore with paths := .ofList [("/pets", tenantItem parameters)] }

def tenantSite (parameters : List ParameterUse) : Site :=
  ⟨"/pets", tenantItem parameters, .get, ⟨some "listPets", parameters, none, none⟩⟩

theorem tenantSite_mem (parameters : List ParameterUse) :
    tenantSite parameters ∈ (tenantShop parameters).sites :=
  List.mem_cons_self

def optionalTenant : List ParameterUse :=
  [.inline ⟨"X-Tenant", .header, false⟩]

def tracedTenant : List ParameterUse :=
  [.inline ⟨"X-Tenant", .header, false⟩, .inline ⟨"X-Trace", .header, true⟩]

/-- A header that the operation declares as optional is asked for since its path requires it. -/
theorem optional_header_asked_for :
    tenantSite optionalTenant ∈ (tenantShop optionalTenant).sites ∧
    ∃ matcher, RequestMatch.build (tenantShop optionalTenant).components "/v1"
        (tenantSite optionalTenant) .exact = .ok matcher ∧
      Resolution.AsksFor matcher .header "X-Tenant" ∧
      Resolution.Declares (tenantShop optionalTenant).components optionalTenant .header "X-Tenant" ∧
      ¬ Resolution.Requires (tenantShop optionalTenant).components optionalTenant .header
        "X-Tenant" := by
  refine ⟨tenantSite_mem _, _, rfl, ⟨_, rfl, _, List.mem_cons_self, rfl⟩,
    ⟨_, List.mem_cons_self, _, rfl, rfl, rfl⟩, ?_⟩
  rintro ⟨use, member, parameter, found, _, _, required⟩
  cases List.mem_singleton.1 member
  cases found
  cases required

theorem own_header_decides : ∃ matcher,
    RequestMatch.build (tenantShop tracedTenant).components "/v1" (tenantSite tracedTenant) .exact =
      .ok matcher ∧
    Resolution.OwnDecides (tenantShop tracedTenant).components (tenantSite tracedTenant) matcher
      .header "X-Tenant" := by
  refine ⟨_, rfl, (Resolution.own_declaration_decides_iff rfl (Or.inl rfl) _).2 ?_⟩
  rintro ⟨none, _, _⟩
  exact none "X-Trace" ⟨_, List.mem_cons_of_mem _ List.mem_cons_self, _, rfl, rfl, rfl, rfl⟩

end Generate

end ApiManifest
