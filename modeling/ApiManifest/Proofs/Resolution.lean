import Mathlib.Data.List.Basic
import Mathlib.Data.List.Nodup
import ApiManifest.Proofs.Lists
import ApiManifest.Resolution

/-!
What a successful resolution says of a document: its sites are settled one after the other, each as
its own step settles it, and no two of the enabled operations have the same match. Two matches can
only agree where the verb and the path template do, since all templates stand after one base path.
-/

namespace ApiManifest.Resolution

open Extension (Settings)
open Gateway (Method RouteMatch)
open OpenApi (Document Operation PathItem)
open RequestMatch (Site)

/-- Resolves the operation that stands at a site, with what its path sets. -/
def settle (document : Document) (pathPrefix : String) (site : Site) :
    Except GenerationError Outcome := do
  let inherited ← Settings.ofJson (.path site.path) site.item.extension
  resolve document pathPrefix inherited site

def siteKey (site : Site) : String × Method :=
  (site.path, site.method)

def Resolved.key (operation : Resolved) : String × Method :=
  (operation.path, operation.method)

theorem bind_eq_ok {ε α β : Type} {first : Except ε α} {next : α → Except ε β} {result : β}
    (done : (first >>= next) = .ok result) : ∃ value, first = .ok value ∧ next value = .ok result := by
  cases first with
  | error error => cases done
  | ok value => exact ⟨value, rfl, done⟩

theorem map_eq_map_ok {ε α β : Type} (step : α → Except ε β) (sources : List α) (values : List β) :
    sources.map step = values.map .ok ↔
      List.Forall₂ (fun source value => step source = .ok value) sources values := by
  rw [← List.forall₂_eq_eq_eq, List.forall₂_map_left_iff, List.forall₂_map_right_iff]

theorem mapM_eq_results {ε α β : Type} (step : α → Except ε β) (sources : List α) :
    sources.mapM step = Walk.results (sources.map step) := by
  induction sources with
  | nil => rfl
  | cons source rest ih =>
    rw [List.mapM_cons, ih, List.map_cons]
    cases step source with
    | error error => rfl
    | ok value =>
      rw [Walk.results]
      cases Walk.results (rest.map step) <;> rfl

theorem mapM_eq_ok_iff {ε α β : Type} {step : α → Except ε β} {sources : List α}
    {values : List β} :
    sources.mapM step = .ok values ↔
      List.Forall₂ (fun source value => step source = .ok value) sources values := by
  rw [mapM_eq_results, Walk.results_eq_ok_iff, map_eq_map_ok]

theorem walkPath_eq_ok {document : Document} {pathPrefix path : String} {item : PathItem}
    {outcomes : List Outcome}
    (done : walkPath document pathPrefix path item = outcomes.map .ok) :
    List.Forall₂ (fun site outcome => settle document pathPrefix site = .ok outcome)
      (item.operations.map (fun (method, operation) => ⟨path, item, method, operation⟩)) outcomes := by
  unfold walkPath at done
  rw [List.forall₂_map_left_iff]
  cases read : Settings.ofJson (.path path) item.extension with
  | error error =>
    rw [read] at done
    cases outcomes with
    | nil => simp at done
    | cons first rest => simp at done
  | ok inherited =>
    rw [read] at done
    refine ((map_eq_map_ok _ _ _).1 done).imp fun entry outcome settled => ?_
    unfold settle
    rw [read]
    exact settled

/-- A walk without failure settles every site of the document, in the order of the sites. -/
theorem walk_results_ok {document : Document} {outcomes : List Outcome}
    (done : (walk document).results = .ok outcomes) :
    ∃ pathPrefix, document.pathPrefix = .ok pathPrefix ∧
      List.Forall₂ (fun site outcome => settle document pathPrefix site = .ok outcome)
        document.sites outcomes := by
  rw [Walk.results_eq_ok_iff] at done
  unfold walk at done
  cases located : document.pathPrefix with
  | error error =>
    rw [located] at done
    cases outcomes with
    | nil => simp at done
    | cons first rest => simp at done
  | ok pathPrefix =>
    refine ⟨pathPrefix, rfl, ?_⟩
    rw [located] at done
    unfold Document.sites
    simp only at done
    generalize document.paths.entries = entries at done
    induction entries generalizing outcomes with
    | nil =>
      cases outcomes with
      | nil => exact List.Forall₂.nil
      | cons first rest => simp at done
    | cons entry rest ih =>
      rw [List.flatMap_cons] at done ⊢
      obtain ⟨own, others, rfl, here, there⟩ := List.append_eq_map_iff.1 done
      exact List.rel_append (walkPath_eq_ok here.symm) (ih there.symm)

structure Settles (document : Document) (pathPrefix : String) (site : Site)
    (operation : Resolved) : Prop where
  path : operation.path = site.path
  method : operation.method = site.method
  name : operation.name = Naming.operationName site.path site.method site.operation
  security : operation.security = site.operation.effectiveSecurity document
  matcher : RequestMatch.build document.components pathPrefix site operation.pathMatchType =
    .ok operation.matcher

theorem settles_of_enabled {document : Document} {pathPrefix : String} {site : Site}
    {operation : Resolved} (settled : settle document pathPrefix site = .ok (.enabled operation)) :
    Settles document pathPrefix site operation := by
  obtain ⟨inherited, _, settled⟩ := bind_eq_ok settled
  unfold resolve at settled
  obtain ⟨own, _, settled⟩ := bind_eq_ok settled
  simp only at settled
  split at settled
  · cases settled
  · obtain ⟨matcher, built, settled⟩ := bind_eq_ok settled
    cases settled
    exact ⟨rfl, rfl, rfl, rfl, built⟩

theorem build_ok {components : OpenApi.Components} {pathPrefix : String} {site : Site}
    {type : Gateway.PathMatchType} {matcher : RouteMatch}
    (built : RequestMatch.build components pathPrefix site type = .ok matcher) :
    matcher.path = some ⟨some type, some (pathPrefix ++ site.path)⟩ ∧
      matcher.method = some site.method := by
  unfold RequestMatch.build at built
  obtain ⟨headers, _, built⟩ := bind_eq_ok built
  obtain ⟨queryParams, _, built⟩ := bind_eq_ok built
  cases built
  exact ⟨rfl, rfl⟩

/-- The enabled operations of a document stem from its sites, each from one of its own. -/
theorem operations_ok {document : Document} {operations : List Resolved}
    (resolved : Resolution.operations document = .ok operations) :
    ∃ pathPrefix outcomes, document.pathPrefix = .ok pathPrefix ∧
      operations = outcomes.filterMap Outcome.enabled? ∧
      List.Forall₂ (fun site outcome => settle document pathPrefix site = .ok outcome)
        document.sites outcomes := by
  unfold Resolution.operations at resolved
  cases done : (walk document).results with
  | error error =>
    rw [done] at resolved
    cases resolved
  | ok outcomes =>
    rw [done] at resolved
    cases resolved
    obtain ⟨pathPrefix, located, settled⟩ := walk_results_ok done
    exact ⟨pathPrefix, outcomes, located, rfl, settled⟩

theorem verbs_nodup : OpenApi.PathItem.verbs.Nodup := by
  decide

theorem methodName_injective : Function.Injective Method.name := by
  intro left right same
  cases left <;> cases right <;> first | rfl | exact absurd same (by decide)

theorem operations_methods (item : PathItem) :
    item.operations.map Prod.fst =
      OpenApi.PathItem.verbs.filter (fun method => (item.operation? method).isSome) := by
  unfold OpenApi.PathItem.operations
  induction OpenApi.PathItem.verbs with
  | nil => rfl
  | cons method rest ih => cases here : item.operation? method <;> simp [here, ih]

def declared (document : Document) : List (String × Method) :=
  document.paths.entries.flatMap (fun (path, item) =>
    (OpenApi.PathItem.verbs.filter (fun method => (item.operation? method).isSome)).map
      (fun method => (path, method)))

theorem sites_keys (document : Document) : document.sites.map siteKey = declared document := by
  unfold Document.sites declared
  rw [List.map_flatMap]
  refine List.flatMap_congr fun (path, item) _ => ?_
  simp only
  rw [← operations_methods, List.map_map, List.map_map]
  rfl

theorem sites_keys_nodup (document : Document) : (document.sites.map siteKey).Nodup := by
  rw [sites_keys]
  refine List.nodup_flatMap.2 ⟨fun entry _ => ?_, ?_⟩
  · refine List.Nodup.map (fun left right same => ?_) (verbs_nodup.filter _)
    exact (Prod.mk.inj same).2
  · refine (List.pairwise_map.1 document.paths.distinct).imp fun {left right} different => ?_
    intro key inLeft inRight
    obtain ⟨_, _, rfl⟩ := List.mem_map.1 inLeft
    obtain ⟨_, _, same⟩ := List.mem_map.1 inRight
    exact different (Prod.mk.inj same).1.symm

theorem keys_sublist_sites {document : Document} {operations : List Resolved}
    (resolved : Resolution.operations document = .ok operations) :
    List.Sublist (operations.map Resolved.key) (document.sites.map siteKey) := by
  obtain ⟨pathPrefix, outcomes, _, rfl, settled⟩ := operations_ok resolved
  clear resolved
  generalize document.sites = sites at settled
  induction settled with
  | nil => exact List.Sublist.refl _
  | @cons site outcome sites outcomes settled _ ih =>
    cases outcome with
    | disabled path method name => exact ih.cons _
    | enabled operation =>
      have made := settles_of_enabled settled
      have same : operation.key = siteKey site := Prod.ext made.path made.method
      simp only [List.filterMap_cons, Outcome.enabled?, List.map_cons, same]
      exact ih.cons_cons _

theorem keys_nodup {document : Document} {operations : List Resolved}
    (resolved : Resolution.operations document = .ok operations) :
    (operations.map Resolved.key).Nodup :=
  (sites_keys_nodup document).sublist (keys_sublist_sites resolved)

theorem matcher_of_mem {document : Document} {operations : List Resolved}
    (resolved : Resolution.operations document = .ok operations) :
    ∃ pathPrefix, document.pathPrefix = .ok pathPrefix ∧ ∀ operation ∈ operations,
      operation.matcher.path =
        some ⟨some operation.pathMatchType, some (pathPrefix ++ operation.path)⟩ ∧
      operation.matcher.method = some operation.method := by
  obtain ⟨pathPrefix, outcomes, located, rfl, settled⟩ := operations_ok resolved
  refine ⟨pathPrefix, located, fun operation member => ?_⟩
  obtain ⟨outcome, stands, enabled⟩ := List.mem_filterMap.1 member
  cases outcome with
  | disabled path method name => cases enabled
  | enabled found =>
    cases enabled
    obtain ⟨site, _, settled⟩ := exists_of_mem_right settled stands
    have made := settles_of_enabled settled
    rw [made.path, made.method]
    exact build_ok made.matcher

/-- Different enabled operations have different matches. -/
theorem matchers_nodup {document : Document} {operations : List Resolved}
    (resolved : Resolution.operations document = .ok operations) :
    (operations.map Resolved.matcher).Nodup := by
  obtain ⟨pathPrefix, _, asks⟩ := matcher_of_mem resolved
  have distinct := List.pairwise_map.1 (keys_nodup resolved)
  refine List.pairwise_map.2 (distinct.imp_of_mem fun {left right} inLeft inRight different same => ?_)
  obtain ⟨leftPath, leftMethod⟩ := asks left inLeft
  obtain ⟨rightPath, rightMethod⟩ := asks right inRight
  rw [same, rightPath] at leftPath
  rw [same, rightMethod] at leftMethod
  simp only [Option.some.injEq, Gateway.PathMatch.mk.injEq] at leftPath leftMethod
  have paths : right.path = left.path := (String.append_right_inj pathPrefix).1 leftPath.2
  exact different (Prod.ext paths.symm leftMethod.symm)

end ApiManifest.Resolution
