import ApiManifest.Proofs.DescriptorListing
import ApiManifest.Proofs.MeshCoverage
import ApiManifest.Proofs.SecurityFailures

/-!
How far the manifests of a document fail alike. Those of the Gateway API fail together, and so do
those of the service mesh; an AuthPolicy and an AuthConfig fail with the others of their kind, and
else only for a requirement that they refuse. A descriptor looks at every server and at every
declared scheme, so where it can be made no other manifest fails for a server, for the name taken
from the title, or for what a scheme is.
-/

namespace ApiManifest.Generate

open OpenApi (Document Requirement SecurityScheme)
open Resolution (Check Resolved checks pathChecks siteChecks)
open Resolution (operations_conclude pathPrefix_conclude)

def FailAlike {α β : Type} (first : Except GenerationError α) (second : Except GenerationError β) :
    Prop :=
  failure? first = failure? second

def FailsOnlyBy {α : Type} (made : Except GenerationError α) (reasons : GenerationError → Prop) :
    Prop :=
  ∀ error, made = .error error → reasons error

/-- The second fails as the first does, and where the first is made nothing else makes the second
fail but these reasons. -/
structure FailsBeyond {α β : Type} (first : Except GenerationError α)
    (second : Except GenerationError β) (reasons : GenerationError → Prop) : Prop where
  same : ∀ error, first = .error error → second = .error error
  more : ∀ manifest, first = .ok manifest → FailsOnlyBy second reasons

inductive PolicyRefusal : GenerationError → Prop
  | combined (operation : String) (schemes : List String) :
      PolicyRefusal (.unsupportedRequirement operation schemes)
  | invalid (name : String) (fault : SchemeFault) : PolicyRefusal (.invalidScheme name fault)

inductive ConfigRefusal : GenerationError → Prop
  | combined (operation : String) (schemes : List String) :
      ConfigRefusal (.unsupportedRequirement operation schemes)
  | undeclared (operation name : String) : ConfigRefusal (.undeclaredScheme operation name)
  | invalid (name : String) (fault : SchemeFault) : ConfigRefusal (.invalidScheme name fault)
  | unsupported (name kind : String) : ConfigRefusal (.unsupportedScheme name kind)

inductive DescriptorFault : GenerationError → Prop
  | server (url : String) (cause : UriFault) : DescriptorFault (.invalidServerUrl url cause)
  | name (name : String) (fault : NameFault) : DescriptorFault (.invalidResourceName name fault)
  | invalid (name : String) (fault : SchemeFault) : DescriptorFault (.invalidScheme name fault)
  | unsupported (name kind : String) : DescriptorFault (.unsupportedScheme name kind)

/-! ### Manifests of one kind fail alike -/

section Beginnings

variable {ε α β γ : Type} {metadata : Except ε α} {operations : Except ε β}
  {rest : α → β → Except ε γ}

theorem failure?_of_total (total : ∀ value resolved, ∃ made, rest value resolved = .ok made) :
    failure? (metadata >>= fun value => operations >>= fun resolved => rest value resolved) =
      (failure? metadata).or (failure? operations) := by
  cases metadata with
  | error error => rfl
  | ok value =>
    cases operations with
    | error error => rfl
    | ok resolved =>
      obtain ⟨made, done⟩ := total value resolved
      exact congrArg failure? done

theorem error_of_beginning {error : ε}
    (failed : (failure? metadata).or (failure? operations) = some error) :
    (metadata >>= fun value => operations >>= fun resolved => rest value resolved) =
      .error error := by
  cases metadata with
  | error cause =>
    cases failed
    rfl
  | ok value =>
    cases operations with
    | error cause =>
      cases failed
      rfl
    | ok resolved => cases failed

end Beginnings

section Alike

variable (document : Document)

theorem httpRoute_failure : failure? (httpRoute document) =
    (failure? (RouteIdentity.ofDocument document)).or (failure? (Resolution.operations document)) :=
  failure?_of_total fun _ _ => ⟨_, rfl⟩

theorem rateLimitPolicy_failure : failure? (rateLimitPolicy document) =
    (failure? (RouteIdentity.ofDocument document)).or (failure? (Resolution.operations document)) :=
  failure?_of_total fun _ _ => ⟨_, rfl⟩

theorem virtualService_failure (service : VirtualServiceConfig) :
    failure? (virtualService document service) =
      (failure? (Naming.resourceName document.info.title)).or
        (failure? (Resolution.operations document)) :=
  failure?_of_total fun _ _ => ⟨_, rfl⟩

theorem authorizationPolicy_failure (gateway : AuthorizationPolicyConfig) :
    failure? (authorizationPolicy document gateway) =
      (failure? (Naming.resourceName document.info.title)).or
        (failure? (Resolution.operations document)) :=
  failure?_of_total fun _ _ => ⟨_, rfl⟩

end Alike

theorem failsOnlyBy_of_ok {α : Type} {made : Except GenerationError α} {value : α}
    (done : made = .ok value) (reasons : GenerationError → Prop) : FailsOnlyBy made reasons := by
  intro error failed
  cases done.symm.trans failed

section Walks

variable {α β μ : Type} {metadata : Except GenerationError α}
  {resolved : Except GenerationError (List Resolved)}
  {rest : α → List Resolved → Except GenerationError μ}
  {refused : Resolved → Requirement → GenerationError → Prop}
  {reasons : GenerationError → Prop}

/-- What fails at the first refused requirement, once the metadata and the operations are there,
only fails for the reasons of all three. -/
theorem failsOnlyBy_of_walk
    (fails : ∀ value operations, metadata = .ok value → resolved = .ok operations →
      FailsAtFirst (metadata >>= fun value => resolved >>= fun operations => rest value operations)
        refused operations)
    (ofMetadata : FailsOnlyBy metadata reasons) (ofResolved : FailsOnlyBy resolved reasons)
    (ofRefusal : ∀ operation requirement error,
      refused operation requirement error → reasons error) :
    FailsOnlyBy (metadata >>= fun value => resolved >>= fun operations => rest value operations)
      reasons := by
  intro error failed
  rcases (bind_eq_error_iff _ _ _).1 failed with unnamed | ⟨value, named, later⟩
  · exact ofMetadata error unnamed
  · rcases (bind_eq_error_iff _ _ _).1 later with unresolved | ⟨operations, known, _⟩
    · exact ofResolved error unresolved
    · obtain ⟨_, operation, requirement, _, _, refuses, _⟩ :=
        ((fails value operations named known).error error).1 failed
      exact ofRefusal operation requirement error refuses

theorem failsBeyond_of_walk {first : Except GenerationError β}
    (same : failure? first = (failure? metadata).or (failure? resolved))
    (fails : ∀ value operations, metadata = .ok value → resolved = .ok operations →
      FailsAtFirst (metadata >>= fun value => resolved >>= fun operations => rest value operations)
        refused operations)
    (ofRefusal : ∀ operation requirement error,
      refused operation requirement error → reasons error) :
    FailsBeyond first
      (metadata >>= fun value => resolved >>= fun operations => rest value operations) reasons where
  same error failed := by
    rw [← failure?_eq_some_iff, same] at failed
    exact error_of_beginning failed
  more manifest made := by
    have passes := failure?_eq_none_iff.2 ⟨manifest, made⟩
    rw [same, Option.or_eq_none_iff, failure?_eq_none_iff, failure?_eq_none_iff] at passes
    obtain ⟨⟨value, named⟩, ⟨operations, known⟩⟩ := passes
    exact failsOnlyBy_of_walk fails (failsOnlyBy_of_ok named reasons)
      (failsOnlyBy_of_ok known reasons) ofRefusal

end Walks

theorem policyRefusal_of_refused {document : Document} {operation : Resolved}
    {requirement : Requirement} {error : GenerationError}
    (refused : Refused document operation requirement error) : PolicyRefusal error := by
  cases refused with
  | combined several => exact .combined _ _
  | invalid alone declared lacks => exact .invalid _ _

theorem configRefusal_of_refused {document : Document} {operation : Resolved}
    {requirement : Requirement} {error : GenerationError}
    (refused : RefusedByConfig document operation requirement error) : ConfigRefusal error := by
  cases refused with
  | undeclared alone absent => exact .undeclared _ _
  | unsupported alone declared notKey notIssuer => exact .unsupported _ _
  | refused anyway =>
    cases anyway with
    | combined several => exact .combined _ _
    | invalid alone declared lacks => exact .invalid _ _

/-! ### What a descriptor rules out -/

theorem read_error {α : Type} {reader : Reader α} {nothing : α} {place : ExtensionPlace}
    {node : Option Json} {error : GenerationError}
    (failed : Extension.read reader nothing place node = .error error) :
    ∃ cause, error = .invalidExtension place cause := by
  unfold Extension.read at failed
  split at failed
  next => cases failed
  next => cases failed
  next =>
    split at failed
    next => cases failed
    next cause _ =>
      cases failed
      exact ⟨cause, rfl⟩

theorem identity_noFault (document : Document) :
    FailsOnlyBy (RouteIdentity.ofDocument document) (fun error => ¬ DescriptorFault error) := by
  intro error failed fault
  unfold RouteIdentity.ofDocument at failed
  rcases (bind_eq_error_iff _ _ _).1 failed with unread | ⟨root, _, failed⟩
  · obtain ⟨cause, rfl⟩ := read_error unread
    cases fault
  · rcases (bind_eq_error_iff _ _ _).1 failed with unnamed | ⟨route, _, failed⟩
    · unfold Extension.Root.namedRoute at unnamed
      split at unnamed <;> cases unnamed
      cases fault
    · split at failed <;> cases failed
      cases fault

theorem pathChecks_error {components : OpenApi.Components} {path : String}
    {item : OpenApi.PathItem} {check : Check} (member : check ∈ pathChecks components path item)
    {error : GenerationError} (failed : check.failure? components = some error) :
    (∃ place cause, error = .invalidExtension place cause) ∨
      ∃ target, error = .unresolvedReference target := by
  cases check with
  | server server =>
    simp only [pathChecks, siteChecks, List.mem_cons, List.mem_flatMap, reduceCtorEq, false_or]
      at member
    obtain ⟨site, _, inside⟩ := member
    split at inside
    · simp at inside
    · split at inside <;> simp at inside
  | path template item =>
    obtain ⟨cause, _, rfl⟩ := Option.map_eq_some_iff.1 failed
    exact Or.inl ⟨_, cause, rfl⟩
  | operation site =>
    obtain ⟨cause, _, rfl⟩ := Option.map_eq_some_iff.1 failed
    exact Or.inl ⟨_, cause, rfl⟩
  | parameter use =>
    cases use with
    | inline parameter => cases failed
    | reference target =>
      change (if (components.referenced? target).isNone then _ else _) = some error at failed
      split at failed <;> cases failed
      exact Or.inr ⟨target, rfl⟩

theorem operations_noFault {document : Document} {pathPrefix : String}
    (located : document.pathPrefix = .ok pathPrefix) :
    FailsOnlyBy (Resolution.operations document) (fun error => ¬ DescriptorFault error) := by
  intro error failed fault
  have passes : failure? document.pathPrefix = none := failure?_eq_none_iff.2 ⟨_, located⟩
  rw [pathPrefix_conclude, failure?_conclude] at passes
  rw [← failure?_eq_some_iff, operations_conclude, failure?_conclude] at failed
  unfold checks at failed
  rw [List.findSome?_append, passes, Option.none_or] at failed
  obtain ⟨check, member, failed⟩ := List.exists_of_findSome?_eq_some failed
  obtain ⟨entry, _, inside⟩ := List.mem_flatMap.1 member
  rcases pathChecks_error inside failed with ⟨place, cause, rfl⟩ | ⟨target, rfl⟩ <;> cases fault

/-- Every scheme that is declared in a document with a descriptor can be expressed. -/
theorem scheme_of_api {document : Document} {descriptor : Descriptor.Api}
    (made : api document = .ok descriptor) {name : String} {scheme : SecurityScheme}
    (declared : document.components.securitySchemes.get? name = some scheme) :
    (∀ fault, ¬ Lacks scheme fault) ∧
      (scheme.kind = "apiKey" ∨ scheme.kind = "openIdConnect") := by
  obtain ⟨_, _, _, _, _, _, each⟩ := api_ok made
  have member : (name, scheme) ∈ document.components.securitySchemes.entries :=
    Dict.mem_of_lookup declared
  obtain ⟨described, _, here⟩ := exists_of_mem_right (List.Forall₂.flip each) member
  obtain ⟨meaning, classified, supported⟩ : ∃ meaning,
      Security.classify name scheme = .ok meaning ∧
        (scheme.kind = "apiKey" ∨ scheme.kind = "openIdConnect") := by
    rcases (describeScheme_ok here).2 with ⟨location, key, classified, _⟩ | ⟨url, classified, _⟩
    · cases classify_eq_iff.1 classified with
      | apiKey kind given keyName filled => exact ⟨_, classified, Or.inl kind⟩
    · cases classify_eq_iff.1 classified with
      | openIdConnect kind given filled => exact ⟨_, classified, Or.inr kind⟩
  refine ⟨fun fault lacks => ?_, supported⟩
  cases classified.symm.trans (classify_of_lacks name lacks)

/-- No requirement of a document with a descriptor is refused for what a scheme is. -/
theorem refused_noFault {document : Document} {descriptor : Descriptor.Api}
    (made : api document = .ok descriptor) {operation : Resolved} {requirement : Requirement}
    {error : GenerationError}
    (refused : RefusedByConfig document operation requirement error) : ¬ DescriptorFault error := by
  intro fault
  cases refused with
  | undeclared alone absent => cases fault
  | unsupported alone declared notKey notIssuer =>
    rcases (scheme_of_api made declared).2 with isKey | isIssuer
    · exact notKey isKey
    · exact notIssuer isIssuer
  | refused anyway =>
    cases anyway with
    | combined several => cases fault
    | invalid alone declared lacks => exact (scheme_of_api made declared).1 _ lacks

structure NoneFailsBy (document : Document) (reasons : GenerationError → Prop) : Prop where
  httpRoute : FailsOnlyBy (httpRoute document) (fun error => ¬ reasons error)
  authPolicy : FailsOnlyBy (authPolicy document) (fun error => ¬ reasons error)
  rateLimitPolicy : FailsOnlyBy (rateLimitPolicy document) (fun error => ¬ reasons error)
  authConfig : ∀ publicHost,
    FailsOnlyBy (authConfig document publicHost) (fun error => ¬ reasons error)
  virtualService : ∀ config,
    FailsOnlyBy (virtualService document config) (fun error => ¬ reasons error)
  authorizationPolicy : ∀ config,
    FailsOnlyBy (authorizationPolicy document config) (fun error => ¬ reasons error)

theorem failsOnlyBy_of_or {α β γ : Type} {made : Except GenerationError α}
    {first : Except GenerationError β} {second : Except GenerationError γ}
    {reasons : GenerationError → Prop} (same : failure? made = (failure? first).or (failure? second))
    (ofFirst : FailsOnlyBy first reasons) (ofSecond : FailsOnlyBy second reasons) :
    FailsOnlyBy made reasons := by
  intro error failed
  rw [← failure?_eq_some_iff, same, Option.or_eq_some_iff] at failed
  rcases failed with failed | ⟨_, failed⟩
  · exact ofFirst error (failure?_eq_some_iff.1 failed)
  · exact ofSecond error (failure?_eq_some_iff.1 failed)

theorem noneFailsBy_of_api {document : Document} {descriptor : Descriptor.Api}
    (made : api document = .ok descriptor) : NoneFailsBy document DescriptorFault := by
  obtain ⟨name, pathPrefix, titled, located, _⟩ := api_ok made
  have identity := identity_noFault document
  have operations := operations_noFault located
  have title := failsOnlyBy_of_ok titled (fun error => ¬ DescriptorFault error)
  exact
    { httpRoute := failsOnlyBy_of_or (httpRoute_failure document) identity operations
      rateLimitPolicy := failsOnlyBy_of_or (rateLimitPolicy_failure document) identity operations
      virtualService := fun config =>
        failsOnlyBy_of_or (virtualService_failure document config) title operations
      authorizationPolicy := fun config =>
        failsOnlyBy_of_or (authorizationPolicy_failure document config) title operations
      authPolicy := failsOnlyBy_of_walk (fun _ _ => authPolicy_failsAtFirst) identity operations
        fun _ _ _ refused => refused_noFault made (.refused refused)
      authConfig := fun publicHost =>
        failsOnlyBy_of_walk (fun _ _ titled resolved =>
          authConfig_failsAtFirst titled resolved publicHost) title operations
          fun _ _ _ => refused_noFault made }

theorem authPolicy_beyond_httpRoute (document : Document) :
    FailsBeyond (httpRoute document) (authPolicy document) PolicyRefusal :=
  failsBeyond_of_walk (httpRoute_failure document) (fun _ _ => authPolicy_failsAtFirst)
    fun _ _ _ => policyRefusal_of_refused

theorem authConfig_beyond_virtualService (document : Document) (service : VirtualServiceConfig)
    (publicHost : String) :
    FailsBeyond (virtualService document service) (authConfig document publicHost)
      ConfigRefusal :=
  failsBeyond_of_walk (virtualService_failure document service)
    (fun _ _ titled resolved => authConfig_failsAtFirst titled resolved publicHost)
    fun _ _ _ => configRefusal_of_refused

/-- The manifests of one kind fail alike, those for authentication only for a requirement besides,
and a descriptor rules out whatever it would fail for itself. -/
theorem manifests_fail_alike (document : Document) (publicHost : String)
    (service : VirtualServiceConfig) (gateway : AuthorizationPolicyConfig) :
    FailAlike (httpRoute document) (rateLimitPolicy document) ∧
    FailsBeyond (httpRoute document) (authPolicy document) PolicyRefusal ∧
    FailAlike (virtualService document service) (authorizationPolicy document gateway) ∧
    FailsBeyond (virtualService document service) (authConfig document publicHost)
      ConfigRefusal ∧
    ∀ descriptor, api document = .ok descriptor → NoneFailsBy document DescriptorFault :=
  ⟨(httpRoute_failure document).trans (rateLimitPolicy_failure document).symm,
    authPolicy_beyond_httpRoute document,
    (virtualService_failure document service).trans
      (authorizationPolicy_failure document gateway).symm,
    authConfig_beyond_virtualService document service publicHost,
    fun _ made => noneFailsBy_of_api made⟩

theorem demandingShop_fails : ∃ route descriptor error, httpRoute demandingShop = .ok route ∧
    api demandingShop = .ok descriptor ∧ authPolicy demandingShop = .error error ∧
    PolicyRefusal error ∧ ¬ DescriptorFault error := by
  obtain ⟨_, beyond, _, _, rules⟩ :=
    manifests_fail_alike demandingShop "shop.example.com" (petstoreService false) petstoreGateway
  obtain ⟨route, made⟩ := exists_ok_of_isSome
    (show (httpRoute demandingShop).toOption.isSome by decide +kernel)
  obtain ⟨descriptor, described⟩ := exists_ok_of_isSome
    (show (api demandingShop).toOption.isSome by decide +kernel)
  have failed := failure?_eq_some_iff.1 (show failure? (authPolicy demandingShop) =
    some (.unsupportedRequirement "showPetById" ["oidc", "apiKey"]) by decide +kernel)
  exact ⟨route, descriptor, _, made, described, failed, beyond.more route made _ failed,
    (rules descriptor described).authPolicy _ failed⟩

end ApiManifest.Generate
