import Mathlib.Data.List.Basic
import ApiManifest.Resolution

/-!
Which failure resolution reports. Whatever resolution looks at is listed in the order of the
document, and the first entry of that list that fails is the failure reported. Where none fails,
every enabled operation is resolved. The list depends on the document alone: which operations are
enabled, and which of them fall back on the parameters of their path, is read off the document with
what cannot be read left out, for an entry that cannot be read stands before all that depends on it.
-/

namespace ApiManifest

def conclude {ε α : Type} (failure : Option ε) (value : α) : Except ε α :=
  match failure with
  | some error => .error error
  | none => .ok value

def failure? {ε α : Type} : Except ε α → Option ε
  | .error error => some error
  | .ok _ => none

section Conclude

variable {ε α β γ : Type}

theorem failure?_eq_some_iff {result : Except ε α} {error : ε} :
    failure? result = some error ↔ result = .error error := by
  cases result <;> simp [failure?]

theorem failure?_eq_none_iff {result : Except ε α} :
    failure? result = none ↔ ∃ value, result = .ok value := by
  cases result <;> simp [failure?]

theorem failure?_conclude (failure : Option ε) (value : α) :
    failure? (conclude failure value) = failure := by
  cases failure <;> rfl

theorem bind_eq_error_iff (first : Except ε α) (next : α → Except ε β) (error : ε) :
    (first >>= next) = .error error ↔
      first = .error error ∨ ∃ value, first = .ok value ∧ next value = .error error := by
  cases first with
  | error cause => simp [bind, Except.bind]
  | ok value => simp [bind, Except.bind]

theorem failure?_results (walk : Walk ε α) :
    failure? walk.results = List.findSome? failure? walk := by
  induction walk with
  | nil => rfl
  | cons step rest ih =>
    cases step with
    | error error => rfl
    | ok value =>
      rw [List.findSome?_cons, Walk.results]
      cases done : Walk.results rest with
      | error error =>
        rw [done] at ih
        exact ih
      | ok values =>
        rw [done] at ih
        exact ih

theorem conclude_bind {failure next : Option ε} {value : α} {step : α → Except ε β} {result : β}
    (goes : failure = none → step value = conclude next result) :
    (conclude failure value >>= step) = conclude (failure.or next) result := by
  cases failure with
  | some error => rfl
  | none => exact goes rfl

theorem conclude_map (failure : Option ε) (value : α) (change : α → β) :
    (conclude failure value).map change = conclude failure (change value) := by
  cases failure <;> rfl

theorem results_append (first second : Walk ε α) :
    (first ++ second).results = do
      let before ← first.results
      let after ← second.results
      return before ++ after := by
  induction first with
  | nil =>
    rw [List.nil_append]
    cases second.results <;> rfl
  | cons step rest ih =>
    cases step with
    | error error => rfl
    | ok value =>
      simp only [List.cons_append, Walk.results, ih]
      cases Walk.results rest with
      | error error => rfl
      | ok before => cases second.results <;> rfl

theorem findSome?_flatMap (sources : List γ) (parts : γ → List α) (found : α → Option β) :
    (sources.flatMap parts).findSome? found =
      sources.findSome? (fun source => (parts source).findSome? found) := by
  induction sources with
  | nil => rfl
  | cons source rest ih =>
    rw [List.flatMap_cons, List.findSome?_append, List.findSome?_cons, ih]
    cases (parts source).findSome? found <;> rfl

/-- A walk whose parts each conclude ends with the first failure among them. -/
theorem results_flatMap {sources : List γ} {part : γ → Walk ε α} {failure : γ → Option ε}
    {values : γ → List α}
    (concludes : ∀ source ∈ sources,
      (part source).results = conclude (failure source) (values source)) :
    Walk.results (sources.flatMap part) =
      conclude (sources.findSome? failure) (sources.flatMap values) := by
  induction sources with
  | nil => rfl
  | cons source rest ih =>
    have later := ih (fun other member => concludes other (List.mem_cons_of_mem _ member))
    rw [List.flatMap_cons, results_append, concludes source List.mem_cons_self, later,
      List.findSome?_cons, List.flatMap_cons]
    cases failure source with
    | some error => rfl
    | none => cases rest.findSome? failure <;> rfl

theorem results_map {sources : List γ} {step : γ → Except ε α} {failure : γ → Option ε}
    {value : γ → α}
    (concludes : ∀ source ∈ sources, step source = conclude (failure source) (value source)) :
    Walk.results (sources.map step) =
      conclude (sources.findSome? failure) (sources.map value) := by
  rw [List.map_eq_flatMap, List.map_eq_flatMap]
  refine results_flatMap fun source member => ?_
  rw [concludes source member]
  cases failure source <;> rfl

theorem mapM_conclude {sources : List γ} {step : γ → Except ε α} {failure : γ → Option ε}
    {value? : γ → Option α}
    (fails : ∀ source, value? source = none → ∃ error, failure source = some error ∧
      step source = .error error)
    (yields : ∀ source value, value? source = some value → failure source = none ∧
      step source = .ok value) :
    sources.mapM step = conclude (sources.findSome? failure) (sources.filterMap value?) := by
  induction sources with
  | nil => rfl
  | cons source rest ih =>
    rw [List.mapM_cons, ih, List.findSome?_cons, List.filterMap_cons]
    cases found : value? source with
    | none =>
      obtain ⟨error, failed, stops⟩ := fails source found
      rw [failed, stops]
      rfl
    | some value =>
      obtain ⟨passed, goes⟩ := yields source value found
      rw [passed, goes]
      cases rest.findSome? failure <;> rfl

end Conclude

namespace Resolution

open Extension (Settings)
open Gateway (Method)
open OpenApi
open RequestMatch (Site)

/-! ### What resolution looks at -/

/-- The extension at a path or an operation; one that is not there or is null sets nothing. -/
def readNode : Option Json → Except DecodeError Settings
  | none => .ok .nothing
  | some .null => .ok .nothing
  | some value => (Settings.reader (.json value) 0).map Prod.fst

def settingsOf (node : Option Json) : Settings :=
  (readNode node).toOption.getD .nothing

def urlFault? (url : String) : Option UriFault :=
  if "//".toList.isPrefixOf url.toList then failure? (Uri.parse ("http:".toList ++ url.toList))
  else if hasSchemeEnd url.toList then failure? (Uri.parse url.toList)
  else none

def parameter? (components : Components) : ParameterUse → Option Parameter
  | .inline parameter => some parameter
  | .reference target => components.referenced? target

def namesAt (components : Components) (uses : List ParameterUse) (location : ParameterLocation) :
    List String :=
  ((uses.filterMap (parameter? components)).filter
    (fun p => p.required && p.location = location)).map Parameter.name

def effectiveAt (site : Site) : Effective :=
  .overlay (settingsOf site.item.extension) (settingsOf site.operation.extension)

/-- Whether the parameters of the path are looked at: the operation's own leave the headers or the
query to it. -/
def fallsBack (components : Components) (site : Site) : Bool :=
  (namesAt components site.operation.parameters .header).isEmpty
    || (namesAt components site.operation.parameters .query).isEmpty

/-- Something that resolution looks at and that may be wrong. -/
inductive Check where
  | server (server : Server)
  | path (path : String) (item : PathItem)
  | operation (site : Site)
  | parameter (use : ParameterUse)

def Check.failure? (components : Components) : Check → Option GenerationError
  | .server first => (urlFault? first.render).map (.invalidServerUrl first.render)
  | .path template item =>
    (ApiManifest.failure? (readNode item.extension)).map (.invalidExtension (.path template))
  | .operation site =>
    (ApiManifest.failure? (readNode site.operation.extension)).map
      (.invalidExtension (.operation site.path site.method.name))
  | .parameter (.inline _) => none
  | .parameter (.reference target) =>
    if (components.referenced? target).isNone then some (.unresolvedReference target) else none

/-- An operation's extension, and if that leaves it enabled its parameters, then perhaps those of
its path. -/
def siteChecks (components : Components) (site : Site) : List Check :=
  .operation site ::
    if (effectiveAt site).disabled then []
    else site.operation.parameters.map .parameter ++
      if fallsBack components site then site.item.parameters.map .parameter else []

def pathSites (path : String) (item : PathItem) : List Site :=
  item.operations.map (fun (method, operation) => ⟨path, item, method, operation⟩)

def pathChecks (components : Components) (path : String) (item : PathItem) : List Check :=
  .path path item :: (pathSites path item).flatMap (siteChecks components)

/-- The first server, then each path followed by its operations. -/
def checks (document : Document) : List Check :=
  document.servers.head?.toList.map .server ++
    document.paths.entries.flatMap (fun (path, item) => pathChecks document.components path item)

theorem pathFailure_eq (components : Components) (path : String) (item : PathItem) :
    Check.failure? components (.path path item) =
      (failure? (readNode item.extension)).map (.invalidExtension (.path path)) := rfl

theorem operationFailure_eq (components : Components) (site : Site) :
    Check.failure? components (.operation site) =
      (failure? (readNode site.operation.extension)).map
        (.invalidExtension (.operation site.path site.method.name)) := rfl

/-! ### What resolution yields -/

def namesFor (components : Components) (site : Site) (location : ParameterLocation) : List String :=
  let own := namesAt components site.operation.parameters location
  if own.isEmpty then namesAt components site.item.parameters location else own

def prefixOf (document : Document) : String :=
  document.pathPrefix.toOption.getD ""

def record (document : Document) (site : Site) : Resolved where
  path := site.path
  method := site.method
  operation := site.operation
  name := Naming.operationName site.path site.method site.operation
  pathMatchType := (effectiveAt site).pathMatchType
  backendRefs := (effectiveAt site).backendRefs
  rateLimit := (effectiveAt site).rateLimit
  security := site.operation.effectiveSecurity document
  matcher := {
    path := some ⟨some (effectiveAt site).pathMatchType, some (prefixOf document ++ site.path)⟩
    headers := RequestMatch.conditions (namesFor document.components site .header)
    queryParams := RequestMatch.conditions (namesFor document.components site .query)
    method := some site.method }

def record? (document : Document) (site : Site) : Option Resolved :=
  if (effectiveAt site).disabled then none else some (record document site)

def records (document : Document) : List Resolved :=
  document.sites.filterMap (record? document)

def enabledSites (document : Document) : List Site :=
  document.sites.filter (fun site => !(effectiveAt site).disabled)

theorem records_eq_map (document : Document) :
    records document = (enabledSites document).map (record document) := by
  unfold records enabledSites
  induction document.sites with
  | nil => rfl
  | cons site rest ih =>
    rw [List.filterMap_cons, List.filter_cons]
    unfold record?
    cases (effectiveAt site).disabled
    · exact congrArg (record document site :: ·) ih
    · exact ih

theorem prefixOf_eq {document : Document} {pathPrefix : String}
    (located : document.pathPrefix = .ok pathPrefix) : prefixOf document = pathPrefix := by
  unfold prefixOf
  rw [located]
  rfl

/-! ### Each part concludes -/

theorem readNode_some {value : Json} (given : value ≠ .null) :
    readNode (some value) = (Settings.reader (.json value) 0).map Prod.fst := by
  cases value <;> first | rfl | exact absurd rfl given

theorem ofJson_eq (place : ExtensionPlace) (node : Option Json) :
    Settings.ofJson place node = (readNode node).mapError (.invalidExtension place) := by
  unfold Settings.ofJson Extension.read
  split
  · rfl
  · rfl
  · next value given =>
    rw [readNode_some given]
    cases Settings.reader (.json value) 0 <;> rfl

theorem ofJson_conclude (place : ExtensionPlace) (node : Option Json) :
    Settings.ofJson place node =
      conclude ((failure? (readNode node)).map (.invalidExtension place)) (settingsOf node) := by
  rw [ofJson_eq]
  unfold settingsOf
  cases readNode node <;> rfl

theorem locate_failure (server : Server) :
    failure? server.locate = (urlFault? server.render).map (.invalidServerUrl server.render) := by
  unfold Server.locate splitUrl splitAbsolute urlFault?
  simp only
  split
  · cases Uri.parse ("http:".toList ++ server.render.toList) <;> rfl
  · split
    · cases Uri.parse server.render.toList <;> rfl
    · rfl

theorem pathPrefix_conclude (document : Document) :
    document.pathPrefix =
      conclude ((document.servers.head?.toList.map Check.server).findSome?
        (Check.failure? document.components)) (prefixOf document) := by
  unfold prefixOf Document.pathPrefix Document.basePath
  cases document.servers with
  | nil => rfl
  | cons server rest =>
    have failure := locate_failure server
    simp only [List.head?_cons, Option.toList_some, List.map_cons, List.map_nil,
      List.findSome?_cons, List.findSome?_nil, Check.failure?, ← failure]
    cases server.locate <;> rfl

def referenceFault? (components : Components) (uses : List ParameterUse) : Option GenerationError :=
  (uses.map Check.parameter).findSome? (Check.failure? components)

theorem resolve_conclude (components : Components) (uses : List ParameterUse) :
    uses.mapM (RequestMatch.resolve components) =
      conclude (referenceFault? components uses) (uses.filterMap (parameter? components)) := by
  unfold referenceFault?
  rw [List.findSome?_map]
  refine mapM_conclude (fun use absent => ?_) (fun use parameter found => ?_)
  · cases use with
    | inline parameter => cases absent
    | reference target =>
      simp only [parameter?] at absent
      refine ⟨.unresolvedReference target, ?_, ?_⟩
      · simp [Check.failure?, absent]
      · simp [RequestMatch.resolve, absent]
  · cases use with
    | inline other =>
      cases found
      exact ⟨rfl, rfl⟩
    | reference target =>
      simp only [parameter?] at found
      exact ⟨by simp [Check.failure?, found], by simp [RequestMatch.resolve, found]⟩

theorem requiredNames_conclude (components : Components) (uses : List ParameterUse)
    (location : ParameterLocation) :
    RequestMatch.requiredNames components uses location =
      conclude (referenceFault? components uses) (namesAt components uses location) := by
  unfold RequestMatch.requiredNames namesAt
  rw [resolve_conclude]
  cases referenceFault? components uses <;> rfl

/-- The path's parameters are looked at for the headers or for the query if the operation has none
that is required there. -/
def fallbackFault? (components : Components) (site : Site) (location : ParameterLocation) :
    Option GenerationError :=
  if (namesAt components site.operation.parameters location).isEmpty then
    referenceFault? components site.item.parameters
  else none

theorem overriding_conclude (components : Components) (site : Site) (location : ParameterLocation) :
    RequestMatch.overriding components site.item site.operation location =
      conclude ((referenceFault? components site.operation.parameters).or
        (fallbackFault? components site location)) (namesFor components site location) := by
  unfold RequestMatch.overriding
  rw [requiredNames_conclude]
  refine conclude_bind fun _ => ?_
  unfold fallbackFault? namesFor
  simp only
  split
  · exact requiredNames_conclude components site.item.parameters location
  · rfl

/-- The parameters are gone through once for the headers and once for the query, which fails where
going through them once does. -/
theorem build_conclude (components : Components) (pathPrefix : String) (site : Site)
    (type : Gateway.PathMatchType) :
    RequestMatch.build components pathPrefix site type =
      conclude ((referenceFault? components site.operation.parameters).or
        (if fallsBack components site then referenceFault? components site.item.parameters
          else none))
        { path := some ⟨some type, some (pathPrefix ++ site.path)⟩
          headers := RequestMatch.conditions (namesFor components site .header)
          queryParams := RequestMatch.conditions (namesFor components site .query)
          method := some site.method } := by
  unfold RequestMatch.build
  rw [overriding_conclude, overriding_conclude]
  unfold fallbackFault? fallsBack
  cases referenceFault? components site.operation.parameters with
  | some error => rfl
  | none =>
    cases (namesAt components site.operation.parameters .header).isEmpty <;>
      cases (namesAt components site.operation.parameters .query).isEmpty <;>
      cases referenceFault? components site.item.parameters <;> rfl

theorem siteChecks_failure (components : Components) (site : Site) :
    (siteChecks components site).findSome? (Check.failure? components) =
      (Check.failure? components (.operation site)).or
        (if (effectiveAt site).disabled then none
        else (referenceFault? components site.operation.parameters).or
          (if fallsBack components site then referenceFault? components site.item.parameters
            else none)) := by
  unfold siteChecks
  rw [List.findSome?_cons]
  cases Check.failure? components (.operation site) with
  | some error => rfl
  | none =>
    simp only [Option.none_or]
    split
    · rfl
    · rw [List.findSome?_append]
      split <;> rfl

def outcome (document : Document) (site : Site) : Outcome :=
  if (effectiveAt site).disabled then
    .disabled site.path site.method (Naming.operationName site.path site.method site.operation)
  else .enabled (record document site)

theorem resolve_operation_conclude (document : Document) (site : Site) :
    resolve document (prefixOf document) (settingsOf site.item.extension) site =
      conclude ((siteChecks document.components site).findSome?
        (Check.failure? document.components)) (outcome document site) := by
  unfold resolve
  rw [siteChecks_failure, ofJson_conclude]
  refine conclude_bind fun _ => ?_
  change (if (effectiveAt site).disabled then _ else _) = _
  unfold outcome
  split
  · rfl
  · rw [build_conclude]
    generalize Option.or _ _ = failure
    cases failure <;> rfl

theorem walkPath_conclude (document : Document) (path : String) (item : PathItem) :
    (walkPath document (prefixOf document) path item).results =
      conclude ((pathChecks document.components path item).findSome?
        (Check.failure? document.components)) ((pathSites path item).map (outcome document)) := by
  unfold walkPath pathChecks
  rw [ofJson_conclude, List.findSome?_cons, pathFailure_eq]
  cases failure? (readNode item.extension) with
  | some error => rfl
  | none =>
    have steps : item.operations.map (fun (method, operation) =>
        resolve document (prefixOf document) (settingsOf item.extension)
          ⟨path, item, method, operation⟩) =
        (pathSites path item).map (fun site =>
          resolve document (prefixOf document) (settingsOf site.item.extension) site) := by
      unfold pathSites
      rw [List.map_map]
      rfl
    rw [findSome?_flatMap]
    exact (congrArg Walk.results steps).trans
      (results_map fun site _ => resolve_operation_conclude document site)

theorem walk_conclude (document : Document) :
    (walk document).results =
      conclude ((checks document).findSome? (Check.failure? document.components))
        (document.sites.map (outcome document)) := by
  unfold walk checks Document.sites
  rw [pathPrefix_conclude, List.findSome?_append]
  cases (document.servers.head?.toList.map Check.server).findSome?
      (Check.failure? document.components) with
  | some error => rfl
  | none =>
    rw [Option.none_or, findSome?_flatMap, List.map_flatMap]
    exact results_flatMap fun entry _ => walkPath_conclude document entry.1 entry.2

theorem operations_conclude (document : Document) :
    Resolution.operations document =
      conclude ((checks document).findSome? (Check.failure? document.components))
        (records document) := by
  have kept : (document.sites.map (outcome document)).filterMap Outcome.enabled? =
      records document := by
    unfold records
    rw [List.filterMap_map]
    refine List.filterMap_congr fun site _ => ?_
    simp only [Function.comp_apply, outcome, record?]
    split <;> rfl
  unfold Resolution.operations
  rw [walk_conclude, conclude_map, kept]

/-- A resolution that fails nowhere yields the record of every enabled operation. -/
theorem operations_eq_records {document : Document} {operations : List Resolved}
    (resolved : Resolution.operations document = .ok operations) :
    operations = (enabledSites document).map (record document) := by
  rw [operations_conclude, records_eq_map] at resolved
  cases failed : (checks document).findSome? (Check.failure? document.components) with
  | some error =>
    rw [failed] at resolved
    cases resolved
  | none =>
    rw [failed] at resolved
    exact (Except.ok.inj resolved).symm

def verbText : Method → String
  | .get => "get"
  | .put => "put"
  | .post => "post"
  | .delete => "delete"
  | .options => "options"
  | .head => "head"
  | .patch => "patch"
  | .trace => "trace"
  | .connect => "connect"

theorem operation_message (path : String) (method : Method) :
    (ExtensionPlace.operation path method.name).message =
      "paths." ++ path ++ "." ++ verbText method := by
  have lowered : Text.lower method.name = verbText method := by
    cases method <;> decide
  exact congrArg ("paths." ++ path ++ "." ++ ·) lowered

end Resolution

end ApiManifest
