import ApiManifest.Proofs.FirstFailure
import ApiManifest.Proofs.Generation

/-!
What manifests depend on. They are made from the title, the root extension, the security schemes and
the resolved operations, and of an operation as the document writes it they see no more than what
resolution made of it. So two documents have the same manifests if their operations resolve alike.
-/

namespace ApiManifest.Generate

open Extension (Settings)
open Gateway (Method)
open OpenApi
open RequestMatch (Site)
open Resolution (Effective Resolved)

/-- Two documents of which every manifest is the same, or fails to be made for the same reason. -/
structure SameManifests (first second : Document) : Prop where
  httpRoute : httpRoute first = httpRoute second
  authPolicy : authPolicy first = authPolicy second
  rateLimitPolicy : rateLimitPolicy first = rateLimitPolicy second
  authConfig : ∀ publicHost, authConfig first publicHost = authConfig second publicHost
  virtualService : ∀ config, virtualService first config = virtualService second config
  authorizationPolicy : ∀ config,
    authorizationPolicy first config = authorizationPolicy second config

def bare (operation : Resolved) : Resolved :=
  { operation with operation := ⟨none, [], none, none⟩ }

/-! ### Manifests show nothing of an operation but what is resolved -/

theorem bind_bare {α : Type} {first second : Except GenerationError (List Resolved)}
    {next : List Resolved → Except GenerationError α}
    (same : first.map (List.map bare) = second.map (List.map bare))
    (blind : ∀ operations, next (operations.map bare) = next operations) :
    (first >>= next) = (second >>= next) := by
  have through : ∀ resolved : Except GenerationError (List Resolved),
      (resolved >>= next) = (resolved.map (List.map bare) >>= next) := by
    intro resolved
    cases resolved with
    | error error => rfl
    | ok operations => exact (blind operations).symm
  rw [through first, same, ← through second]

theorem filter_isSecured_bare (operations : List Resolved) :
    (operations.map bare).filter Resolved.isSecured =
      (operations.filter Resolved.isSecured).map bare :=
  List.filter_map

theorem walkSecurity_bare {ρ : Type} (document : Document)
    {settle : Resolved → Demand → Except GenerationError (AuthOutcome ρ)}
    (blind : ∀ operation demanded, settle (bare operation) demanded = settle operation demanded)
    (operations : List Resolved) :
    walkSecurity document settle (operations.map bare) =
      walkSecurity document settle operations := by
  unfold walkSecurity
  rw [List.flatMap_map]
  refine List.flatMap_congr fun operation _ => ?_
  have same : settle (bare operation) = settle operation := funext (blind operation)
  unfold walkRequirements
  rw [same]
  rfl

theorem settlePolicy_bare (operation : Resolved) (demanded : Demand) :
    settlePolicy (bare operation) demanded = settlePolicy operation demanded := by
  cases demanded with
  | declared scheme meaning => cases meaning <;> rfl
  | _ => rfl

theorem settleIdentity_bare (app : String) (operation : Resolved) (demanded : Demand) :
    settleIdentity app (bare operation) demanded = settleIdentity app operation demanded := by
  cases demanded with
  | declared scheme meaning => cases meaning <;> rfl
  | _ => rfl

theorem walkSecurity_congr {ρ : Type} {first second : Document}
    (schemes : first.components.securitySchemes.get? = second.components.securitySchemes.get?)
    (settle : Resolved → Demand → Except GenerationError (AuthOutcome ρ)) :
    walkSecurity first settle = walkSecurity second settle := by
  have demands : demand first = demand second := by
    unfold demand
    rw [schemes]
  unfold walkSecurity walkRequirements
  rw [demands]

theorem sameManifests_of_operations {first second : Document}
    (title : first.info.title = second.info.title)
    (components : first.components = second.components)
    (extension : first.extension = second.extension)
    (operations : (Resolution.operations first).map (List.map bare) =
      (Resolution.operations second).map (List.map bare)) :
    SameManifests first second := by
  have identity : RouteIdentity.ofDocument first = RouteIdentity.ofDocument second := by
    unfold RouteIdentity.ofDocument
    rw [extension]
  have schemes : first.components.securitySchemes.get? = second.components.securitySchemes.get? := by
    rw [components]
  constructor
  case httpRoute =>
    unfold httpRoute
    rw [identity]
    refine bind_congr fun route => bind_bare operations fun resolved => ?_
    rw [List.map_map]
    rfl
  case authPolicy =>
    unfold authPolicy walkPolicy
    rw [identity, walkSecurity_congr schemes]
    refine bind_congr fun route => bind_bare operations fun resolved => ?_
    rw [walkSecurity_bare second settlePolicy_bare, filter_isSecured_bare, List.map_map]
    rfl
  case rateLimitPolicy =>
    unfold rateLimitPolicy
    rw [identity]
    refine bind_congr fun route => bind_bare operations fun resolved => ?_
    rw [List.filterMap_map]
    rfl
  case authConfig =>
    intro publicHost
    unfold authConfig walkIdentities
    rw [title]
    refine bind_congr fun name => ?_
    rw [walkSecurity_congr schemes]
    refine bind_bare operations fun resolved => ?_
    rw [walkSecurity_bare second (settleIdentity_bare name)]
  case virtualService =>
    intro config
    unfold virtualService
    rw [title]
    refine bind_congr fun name => bind_bare operations fun resolved => ?_
    rw [List.map_map]
    rfl
  case authorizationPolicy =>
    intro config
    unfold authorizationPolicy
    rw [title]
    refine bind_congr fun name => bind_bare operations fun resolved => ?_
    simp only [filter_isSecured_bare, List.map_map]
    rfl

/-! ### Operations that resolve alike -/

open Resolution

theorem findSome?_filterMap {α β γ : Type} (sources : List α) (change : α → Option β)
    (found : β → Option γ) :
    (sources.filterMap change).findSome? found =
      sources.findSome? (fun source => (change source).bind found) := by
  induction sources with
  | nil => rfl
  | cons source rest ih =>
    rw [List.filterMap_cons, List.findSome?_cons]
    cases change source with
    | none => exact ih
    | some value => rw [List.findSome?_cons, ih, Option.bind_some]

def faultAt (components : Components) (path : String) (item : PathItem) (method : Method) :
    Option GenerationError :=
  (item.operation? method).bind (fun operation =>
    (siteChecks components ⟨path, item, method, operation⟩).findSome? (Check.failure? components))

def recordAt (document : Document) (path : String) (item : PathItem) (method : Method) :
    Option Resolved :=
  (item.operation? method).bind (fun operation =>
    (record? document ⟨path, item, method, operation⟩).map bare)

theorem pathChecks_failure (components : Components) (path : String) (item : PathItem) :
    (pathChecks components path item).findSome? (Check.failure? components) =
      ((failure? (readNode item.extension)).map (.invalidExtension (.path path))).or
        (PathItem.verbs.findSome? (faultAt components path item)) := by
  have operations : ((pathSites path item).flatMap (siteChecks components)).findSome?
      (Check.failure? components) = PathItem.verbs.findSome? (faultAt components path item) := by
    unfold pathSites PathItem.operations
    rw [findSome?_flatMap, List.findSome?_map, findSome?_filterMap]
    refine congrArg (List.findSome? · PathItem.verbs) (funext fun method => ?_)
    unfold faultAt
    cases item.operation? method <;> rfl
  unfold pathChecks
  rw [List.findSome?_cons, operations, pathFailure_eq]
  cases failure? (readNode item.extension) <;> rfl

theorem records_bare (document : Document) :
    (records document).map bare = document.paths.entries.flatMap (fun entry =>
      PathItem.verbs.filterMap (recordAt document entry.1 entry.2)) := by
  unfold records Document.sites
  rw [List.filterMap_flatMap, List.map_flatMap]
  refine List.flatMap_congr fun entry _ => ?_
  unfold PathItem.operations
  rw [List.filterMap_map, List.filterMap_filterMap, List.map_filterMap]
  refine List.filterMap_congr fun method _ => ?_
  unfold recordAt
  cases entry.2.operation? method <;> rfl

structure SameItem (first second : Document) (path : String) (left right : PathItem) : Prop where
  node : failure? (readNode left.extension) = failure? (readNode right.extension)
  faults : ∀ method, faultAt first.components path left method =
    faultAt second.components path right method
  records : ∀ method, recordAt first path left method = recordAt second path right method

theorem operations_bare {first second : Document} (servers : first.servers = second.servers)
    (components : first.components = second.components)
    (items : List.Forall₂ (fun left right => left.1 = right.1 ∧
      SameItem first second left.1 left.2 right.2) first.paths.entries second.paths.entries) :
    (Resolution.operations first).map (List.map bare) =
      (Resolution.operations second).map (List.map bare) := by
  have checked : (checks first).findSome? (Check.failure? first.components) =
      (checks second).findSome? (Check.failure? second.components) := by
    unfold checks
    rw [servers, List.findSome?_append, List.findSome?_append, findSome?_flatMap,
      findSome?_flatMap, components]
    refine congrArg _ ?_
    generalize first.paths.entries = lefts, second.paths.entries = rights at items
    induction items with
    | nil => rfl
    | @cons left right _ _ same _ ih =>
      obtain ⟨key, alike⟩ := same
      rw [List.findSome?_cons, List.findSome?_cons, ih]
      have here : (pathChecks second.components left.1 left.2).findSome?
          (Check.failure? second.components) =
          (pathChecks second.components right.1 right.2).findSome?
            (Check.failure? second.components) := by
        rw [pathChecks_failure, pathChecks_failure, ← key, alike.node]
        refine congrArg _ (congrArg (List.findSome? · PathItem.verbs) (funext fun method => ?_))
        rw [← alike.faults method, components]
      rw [here]
  have recorded : (records first).map bare = (records second).map bare := by
    rw [records_bare, records_bare]
    generalize first.paths.entries = lefts, second.paths.entries = rights at items
    induction items with
    | nil => rfl
    | @cons left right _ _ same _ ih =>
      obtain ⟨key, alike⟩ := same
      rw [List.flatMap_cons, List.flatMap_cons, ih, ← key]
      refine congrArg (· ++ _) (List.filterMap_congr fun method _ => alike.records method)
  rw [operations_conclude, operations_conclude, conclude_map, conclude_map, checked, recorded]

structure SameSite (first second : Document) (left right : Site) : Prop where
  path : left.path = right.path
  method : left.method = right.method
  operationId : left.operation.operationId = right.operation.operationId
  parameters : left.operation.parameters = right.operation.parameters
  sharedParameters : left.item.parameters = right.item.parameters
  node : failure? (readNode left.operation.extension) =
    failure? (readNode right.operation.extension)
  effective : effectiveAt left = effectiveAt right
  security : left.operation.effectiveSecurity first = right.operation.effectiveSecurity second

/-- The extensions of the path and of the operation can be read, and this is what they make of the
operation. -/
def Reads (site : Site) (effective : Effective) : Prop :=
  ∃ inherited own, Settings.ofJson (.path site.path) site.item.extension = .ok inherited ∧
    Settings.ofJson (.operation site.path site.method.name) site.operation.extension = .ok own ∧
    Effective.overlay inherited own = effective

theorem readNode_of_ofJson {place : ExtensionPlace} {node : Option Json} {settings : Settings}
    (read : Settings.ofJson place node = .ok settings) :
    failure? (readNode node) = none ∧ settingsOf node = settings := by
  rw [ofJson_conclude] at read
  cases failed : failure? (readNode node) with
  | some cause =>
    rw [failed] at read
    cases read
  | none =>
    rw [failed] at read
    exact ⟨rfl, Except.ok.inj read⟩

theorem effectiveAt_of_reads {site : Site} {effective : Effective} (reads : Reads site effective) :
    failure? (readNode site.item.extension) = none ∧
      failure? (readNode site.operation.extension) = none ∧ effectiveAt site = effective := by
  obtain ⟨inherited, own, path, operation, overlaid⟩ := reads
  obtain ⟨pathReads, inheritedIs⟩ := readNode_of_ofJson path
  obtain ⟨operationReads, ownIs⟩ := readNode_of_ofJson operation
  refine ⟨pathReads, operationReads, ?_⟩
  unfold effectiveAt
  rw [inheritedIs, ownIs, overlaid]

theorem siteFault_eq {first second : Document} {left right : Site}
    (same : SameSite first second left right) (components : Components) :
    (siteChecks components left).findSome? (Check.failure? components) =
      (siteChecks components right).findSome? (Check.failure? components) := by
  have own : Check.failure? components (.operation left) =
      Check.failure? components (.operation right) := by
    rw [operationFailure_eq, operationFailure_eq, same.node, same.path, same.method]
  rw [siteChecks_failure, siteChecks_failure, own]
  unfold fallsBack
  rw [same.effective, same.parameters, same.sharedParameters]

theorem siteRecord_eq {first second : Document} {left right : Site}
    (same : SameSite first second left right) (servers : first.servers = second.servers)
    (components : first.components = second.components) :
    (record? first left).map bare = (record? second right).map bare := by
  have before : prefixOf first = prefixOf second := by
    unfold prefixOf Document.pathPrefix Document.basePath
    rw [servers]
  have name : Naming.operationName right.path right.method left.operation =
      Naming.operationName right.path right.method right.operation := by
    unfold Naming.operationName
    rw [same.operationId]
  have names : namesFor first.components left = namesFor second.components right := by
    unfold namesFor
    rw [components, same.parameters, same.sharedParameters]
  unfold record? record
  rw [same.effective]
  split
  · rfl
  · simp only [Option.map_some, bare, same.path, same.method, same.security, name, names, before]

/-- The same is found under a verb where the operations are the same to resolution, or missing
from both paths. -/
theorem operationAt_eq {first second : Document} (servers : first.servers = second.servers)
    (components : first.components = second.components) {path : String} {left right : PathItem}
    {method : Method}
    (same : Option.Rel (fun own other =>
      SameSite first second ⟨path, left, method, own⟩ ⟨path, right, method, other⟩)
      (left.operation? method) (right.operation? method)) :
    faultAt first.components path left method = faultAt second.components path right method ∧
      recordAt first path left method = recordAt second path right method := by
  unfold faultAt recordAt
  generalize left.operation? method = own, right.operation? method = other at same
  cases same with
  | none => exact ⟨rfl, rfl⟩
  | some alike =>
    rw [← components]
    exact ⟨siteFault_eq alike _, siteRecord_eq alike servers components⟩

theorem operationAt_of_disabled {document : Document} {path : String} {item : PathItem}
    {method : Method} {operation : Operation} {effective : Effective}
    (declared : item.operation? method = some operation)
    (reads : Reads ⟨path, item, method, operation⟩ effective)
    (disabled : effective.disabled = true) :
    faultAt document.components path item method = none ∧
      recordAt document path item method = none := by
  obtain ⟨_, node, effectiveIs⟩ := effectiveAt_of_reads reads
  unfold faultAt recordAt record?
  rw [declared, Option.bind_some, Option.bind_some, siteChecks_failure, operationFailure_eq, node,
    effectiveIs, if_pos disabled, if_pos disabled]
  exact ⟨rfl, rfl⟩

end ApiManifest.Generate
