import ApiManifest.Proofs.Inheritance
import ApiManifest.Proofs.ParameterOverriding

/-!
When a reference to nothing is fatal. Where the extensions can be read and the first server has a
URL, nothing else makes resolution fail, and it fails exactly if it comes upon such a reference:
among the parameters of an enabled operation, or among those of its path if the operation leaves the
headers or the query to them. No manifest is made then. Parameters of a path that an operation
replaces both for the headers and for the query are not looked at for that operation.
-/

namespace ApiManifest

open OpenApi
open RequestMatch (Site)

namespace Resolution

def Dangles (components : Components) (uses : List ParameterUse) (target : String) : Prop :=
  .reference target ∈ uses ∧ components.referenced? target = none

/-- The operation requires no header, or no query parameter, so its path decides about them. -/
def LeavesToPath (components : Components) (site : Site) : Prop :=
  (∀ name, ¬ Requires components site.operation.parameters .header name) ∨
    ∀ name, ¬ Requires components site.operation.parameters .query name

/-- Resolution comes upon the reference, and it names nothing. -/
def ComesUpon (document : Document) (target : String) : Prop :=
  ∃ site ∈ enabledSites document,
    Dangles document.components site.operation.parameters target ∨
      LeavesToPath document.components site ∧
        Dangles document.components site.item.parameters target

theorem fallsBack_iff {components : Components} {site : Site} :
    fallsBack components site = true ↔ LeavesToPath components site := by
  unfold fallsBack LeavesToPath
  rw [Bool.or_eq_true, namesAt_isEmpty_iff, namesAt_isEmpty_iff]

section Checks

variable {components : Components} {document : Document} {site : Site}

theorem mem_siteChecks {check : Check} :
    check ∈ siteChecks components site ↔ check = .operation site ∨
      (effectiveAt site).disabled = false ∧ ∃ use, check = .parameter use ∧
        (use ∈ site.operation.parameters ∨
          LeavesToPath components site ∧ use ∈ site.item.parameters) := by
  unfold siteChecks
  rw [List.mem_cons, ← fallsBack_iff]
  apply or_congr_right
  cases (effectiveAt site).disabled with
  | true => simp
  | false =>
    cases fallsBack components site <;>
      simp [eq_comm, and_comm, or_and_right, and_or_left, exists_or]

theorem mem_checks {check : Check} :
    check ∈ checks document ↔
      (∃ server ∈ document.servers.head?.toList, check = .server server) ∨
      (∃ entry ∈ document.paths.entries, check = .path entry.1 entry.2) ∨
      (∃ site ∈ document.sites, check = .operation site) ∨
      ∃ site ∈ enabledSites document, ∃ use, check = .parameter use ∧
        (use ∈ site.operation.parameters ∨
          LeavesToPath document.components site ∧ use ∈ site.item.parameters) := by
  have enabled : ∀ site, site ∈ enabledSites document ↔
      site ∈ document.sites ∧ (effectiveAt site).disabled = false := by
    intro site
    unfold enabledSites
    rw [List.mem_filter, Bool.not_eq_true']
  constructor
  · intro member
    rcases List.mem_append.1 member with first | later
    · obtain ⟨server, stands, rfl⟩ := List.mem_map.1 first
      exact Or.inl ⟨server, stands, rfl⟩
    · obtain ⟨entry, stands, inside⟩ := List.mem_flatMap.1 later
      rcases List.mem_cons.1 inside with rfl | inside
      · exact Or.inr (Or.inl ⟨entry, stands, rfl⟩)
      · obtain ⟨site, here, inside⟩ := List.mem_flatMap.1 inside
        have declared : site ∈ document.sites := List.mem_flatMap.2 ⟨entry, stands, here⟩
        rcases mem_siteChecks.1 inside with rfl | ⟨able, uses⟩
        · exact Or.inr (Or.inr (Or.inl ⟨site, declared, rfl⟩))
        · exact Or.inr (Or.inr (Or.inr ⟨site, (enabled site).2 ⟨declared, able⟩, uses⟩))
  · have ofSite : ∀ site ∈ document.sites, ∀ other ∈ siteChecks document.components site,
        other ∈ checks document := by
      intro site declared other inside
      obtain ⟨entry, stands, here⟩ := List.mem_flatMap.1 declared
      apply List.mem_append_right
      apply List.mem_flatMap.2
      exact ⟨entry, stands, List.mem_cons_of_mem _ (List.mem_flatMap.2 ⟨site, here, inside⟩)⟩
    rintro (⟨server, stands, rfl⟩ | ⟨entry, stands, rfl⟩ | ⟨site, declared, rfl⟩ |
      ⟨site, able, uses⟩)
    · exact List.mem_append_left _ (List.mem_map_of_mem stands)
    · exact List.mem_append_right _ (List.mem_flatMap.2 ⟨entry, stands, List.mem_cons_self⟩)
    · exact ofSite site declared _ (mem_siteChecks.2 (Or.inl rfl))
    · obtain ⟨declared, able⟩ := (enabled site).1 able
      exact ofSite site declared _ (mem_siteChecks.2 (Or.inr ⟨able, uses⟩))

theorem reference_failure {target : String} {error : GenerationError} :
    Check.failure? components (.parameter (.reference target)) = some error ↔
      components.referenced? target = none ∧ error = .unresolvedReference target := by
  change (if (components.referenced? target).isNone then _ else _) = some error ↔ _
  cases components.referenced? target <;> simp [eq_comm]

end Checks

end Resolution

namespace Generate

open Resolution (Check ComesUpon Dangles checks enabledSites)
open Resolution (mem_checks operationFailure_eq operations_conclude pathFailure_eq)
open Resolution (pathPrefix_conclude reference_failure)

section Fatal

variable {document : Document} {pathPrefix : String}

/-- Where extensions and the first server are in order, resolution fails for references only. -/
theorem comesUpon_of_error (readable : Readable document)
    (located : document.pathPrefix = .ok pathPrefix) {error : GenerationError}
    (failed : Resolution.operations document = .error error) :
    ∃ target, error = .unresolvedReference target ∧ ComesUpon document target := by
  have server : failure? document.pathPrefix = none := failure?_eq_none_iff.2 ⟨_, located⟩
  rw [pathPrefix_conclude, failure?_conclude, List.findSome?_eq_none_iff] at server
  rw [← failure?_eq_some_iff, operations_conclude, failure?_conclude] at failed
  obtain ⟨check, member, fails⟩ := List.exists_of_findSome?_eq_some failed
  rcases mem_checks.1 member with ⟨first, stands, rfl⟩ | ⟨entry, stands, rfl⟩ |
    ⟨site, declared, rfl⟩ | ⟨site, enabled, use, rfl, uses⟩
  · rw [server _ (List.mem_map_of_mem stands)] at fails
    cases fails
  · obtain ⟨settings, reads⟩ := readable.paths entry.1 entry.2 stands
    rw [pathFailure_eq, (readNode_of_ofJson reads).1] at fails
    cases fails
  · obtain ⟨settings, reads⟩ := readable.operations site declared
    rw [operationFailure_eq, (readNode_of_ofJson reads).1] at fails
    cases fails
  · cases use with
    | inline parameter => cases fails
    | reference target =>
      obtain ⟨absent, rfl⟩ := reference_failure.1 fails
      exact ⟨target, rfl, site, enabled,
        uses.imp (fun own => ⟨own, absent⟩) (fun shared => ⟨shared.1, shared.2, absent⟩)⟩

theorem error_of_comesUpon {target : String} (upon : ComesUpon document target) :
    ∃ error, Resolution.operations document = .error error := by
  obtain ⟨site, enabled, uses⟩ := upon
  have absent : document.components.referenced? target = none := by
    rcases uses with own | shared
    · exact own.2
    · exact shared.2.2
  have member : Check.parameter (.reference target) ∈ checks document := by
    apply mem_checks.2
    refine Or.inr (Or.inr (Or.inr ⟨site, enabled, .reference target, rfl, ?_⟩))
    exact uses.imp And.left (fun shared => ⟨shared.1, shared.2.1⟩)
  have fails : Check.failure? document.components (.parameter (.reference target)) = some _ :=
    reference_failure.2 ⟨absent, rfl⟩
  have some : ((checks document).findSome? (Check.failure? document.components)).isSome :=
    List.findSome?_isSome_iff.2 ⟨_, member, by rw [fails]; rfl⟩
  obtain ⟨error, first⟩ := Option.isSome_iff_exists.1 some
  exact ⟨error, by rw [operations_conclude, first]; rfl⟩

/-- No manifest but a descriptor is made of the document. -/
structure NoneMade (document : Document) : Prop where
  httpRoute : ∀ manifest, httpRoute document ≠ .ok manifest
  authPolicy : ∀ manifest, authPolicy document ≠ .ok manifest
  rateLimitPolicy : ∀ manifest, rateLimitPolicy document ≠ .ok manifest
  authConfig : ∀ publicHost manifest, authConfig document publicHost ≠ .ok manifest
  virtualService : ∀ config manifest, virtualService document config ≠ .ok manifest
  authorizationPolicy : ∀ config manifest, authorizationPolicy document config ≠ .ok manifest

theorem noneMade_of_error {error : GenerationError}
    (failed : Resolution.operations document = .error error) : NoneMade document where
  httpRoute manifest made := by
    obtain ⟨_, _, _, resolved, _⟩ := httpRoute_ok made
    cases failed.symm.trans resolved
  authPolicy manifest made := by
    obtain ⟨_, _, _, _, resolved, _⟩ := authPolicy_ok made
    cases failed.symm.trans resolved
  rateLimitPolicy manifest made := by
    obtain ⟨_, _, _, resolved, _⟩ := rateLimitPolicy_ok made
    cases failed.symm.trans resolved
  authConfig publicHost manifest made := by
    obtain ⟨_, _, _, resolved, _⟩ := authConfig_ok made
    cases failed.symm.trans resolved
  virtualService config manifest made := by
    obtain ⟨_, resolved, _⟩ := virtualService_ok made
    cases failed.symm.trans resolved
  authorizationPolicy config manifest made := by
    obtain ⟨_, resolved, _⟩ := authorizationPolicy_ok made
    cases failed.symm.trans resolved

/-- Where the extensions can be read and the first server has a URL, resolution fails exactly if it
comes upon a reference to nothing. It then names such a reference, and no manifest is made. -/
theorem dangling_reference_fatal_iff (readable : Readable document)
    (located : document.pathPrefix = .ok pathPrefix) :
    ((∃ target, ComesUpon document target) ↔
      ∃ target, Resolution.operations document = .error (.unresolvedReference target)) ∧
    (∀ error, Resolution.operations document = .error error →
      ∃ target, error = .unresolvedReference target ∧ ComesUpon document target) ∧
    ((∃ target, ComesUpon document target) → NoneMade document) := by
  have only : ∀ error, Resolution.operations document = .error error →
      ∃ target, error = .unresolvedReference target ∧ ComesUpon document target :=
    fun _ => comesUpon_of_error readable located
  refine ⟨⟨?_, ?_⟩, only, ?_⟩
  · rintro ⟨target, upon⟩
    obtain ⟨error, failed⟩ := error_of_comesUpon upon
    obtain ⟨first, rfl, _⟩ := only error failed
    exact ⟨first, failed⟩
  · rintro ⟨target, failed⟩
    obtain ⟨_, _, upon⟩ := only _ failed
    exact ⟨_, upon⟩
  · rintro ⟨target, upon⟩
    obtain ⟨error, failed⟩ := error_of_comesUpon upon
    exact noneMade_of_error failed

end Fatal

def danglingShop (parameters : List ParameterUse) : Document :=
  { petstore with
    paths := .ofList [("/pets",
      { readItem ⟨some "listPets", parameters, none, none⟩ with
        parameters := [.reference "#/components/parameters/Missing"] })] }

theorem danglingShop_readable (parameters : List ParameterUse) :
    Readable (danglingShop parameters) := by
  refine ⟨fun path item member => ?_, fun site member => ?_⟩
  · cases List.mem_singleton.1 member
    exact ⟨_, rfl⟩
  · cases List.mem_singleton.1 member
    exact ⟨_, rfl⟩

theorem danglingShop_located (parameters : List ParameterUse) :
    (danglingShop parameters).pathPrefix = .ok "/v1" := by
  change petstore.pathPrefix = .ok "/v1"
  decide +kernel

def traced : List ParameterUse :=
  [.inline ⟨"X-Request-Id", .header, true⟩]

def tracedPage : List ParameterUse :=
  [.inline ⟨"X-Request-Id", .header, true⟩, .inline ⟨"page", .query, true⟩]

theorem danglingShop_fails :
    Readable (danglingShop traced) ∧ (danglingShop traced).pathPrefix = .ok "/v1" ∧
    (∃ target, Resolution.operations (danglingShop traced) =
      .error (.unresolvedReference target)) ∧
    NoneMade (danglingShop traced) := by
  have readable := danglingShop_readable traced
  have located := danglingShop_located traced
  have upon : ComesUpon (danglingShop traced) "#/components/parameters/Missing" := by
    refine ⟨_, List.mem_cons_self, Or.inr ⟨Or.inr ?_, List.mem_cons_self, by decide +kernel⟩⟩
    rintro name ⟨use, member, parameter, found, _, here, _⟩
    cases List.mem_singleton.1 member
    cases found
    cases here
  obtain ⟨fatal, _, none⟩ := dangling_reference_fatal_iff readable located
  exact ⟨readable, located, fatal.1 ⟨_, upon⟩, none ⟨_, upon⟩⟩

/-- An operation that requires a header and a query parameter leaves nothing to its path, and the
reference to nothing there does no harm. -/
theorem replaced_reference_harmless :
    Readable (danglingShop tracedPage) ∧ (danglingShop tracedPage).pathPrefix = .ok "/v1" ∧
    (∃ site ∈ enabledSites (danglingShop tracedPage),
      Dangles (danglingShop tracedPage).components site.item.parameters
        "#/components/parameters/Missing") ∧
    (∃ operations, Resolution.operations (danglingShop tracedPage) = .ok operations) ∧
    ∃ manifest, httpRoute (danglingShop tracedPage) = .ok manifest := by
  refine ⟨danglingShop_readable _, danglingShop_located _,
    ⟨_, List.mem_cons_self, List.mem_cons_self, by decide +kernel⟩, ?_, ?_⟩
  · exact exists_ok_of_isSome (by decide +kernel)
  · exact exists_ok_of_isSome (by decide +kernel)

end Generate

end ApiManifest
