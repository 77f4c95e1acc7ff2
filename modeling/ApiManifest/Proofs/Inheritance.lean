import ApiManifest.Proofs.Dependence
import ApiManifest.Proofs.WrittenSettings

/-!
Inheritance can be flattened. Manifests show what holds for an operation after inheritance and never
where it came from, so two documents whose operations have the same effects have the same manifests.
In particular each operation may be given explicitly what it inherits, after which nothing is left to
inherit from its path or from the document.
-/

namespace ApiManifest

open Extension (Settings)
open Gateway (Method)
open OpenApi
open RequestMatch (Site)
open Resolution (Effective Resolved)

namespace Generate

structure SameOperationEffects (first second : Document) (left right : Site) : Prop where
  operationId : left.operation.operationId = right.operation.operationId
  parameters : left.operation.parameters = right.operation.parameters
  effective : ∃ effective, Reads left effective ∧ Reads right effective
  security : left.operation.effectiveSecurity first = right.operation.effectiveSecurity second

structure SameItemEffects (first second : Document) (path : String) (left right : PathItem) :
    Prop where
  parameters : left.parameters = right.parameters
  leftReads : ∃ settings, Settings.ofJson (.path path) left.extension = .ok settings
  rightReads : ∃ settings, Settings.ofJson (.path path) right.extension = .ok settings
  operations : ∀ method, Option.Rel (fun own other =>
    SameOperationEffects first second ⟨path, left, method, own⟩ ⟨path, right, method, other⟩)
    (left.operation? method) (right.operation? method)

/-- Two documents that differ at most in where their operations have their settings from. -/
structure SameEffects (first second : Document) : Prop where
  title : first.info.title = second.info.title
  servers : first.servers = second.servers
  components : first.components = second.components
  extension : first.extension = second.extension
  paths : List.Forall₂ (fun left right => left.1 = right.1 ∧
    SameItemEffects first second left.1 left.2 right.2) first.paths.entries second.paths.entries

theorem sameSite_of_effects {first second : Document} {path : String} {left right : PathItem}
    {method : Method} {own other : Operation} (shared : left.parameters = right.parameters)
    (same : SameOperationEffects first second ⟨path, left, method, own⟩
      ⟨path, right, method, other⟩) :
    SameSite first second ⟨path, left, method, own⟩ ⟨path, right, method, other⟩ := by
  obtain ⟨effective, leftReads, rightReads⟩ := same.effective
  obtain ⟨_, leftNode, leftIs⟩ := effectiveAt_of_reads leftReads
  obtain ⟨_, rightNode, rightIs⟩ := effectiveAt_of_reads rightReads
  exact {
    path := rfl
    method := rfl
    operationId := same.operationId
    parameters := same.parameters
    sharedParameters := shared
    node := leftNode.trans rightNode.symm
    effective := leftIs.trans rightIs.symm
    security := same.security }

theorem rel_imp {α β : Type} {weak strong : α → β → Prop}
    (imp : ∀ left right, strong left right → weak left right) {left : Option α} {right : Option β}
    (related : Option.Rel strong left right) : Option.Rel weak left right := by
  cases related with
  | none => exact .none
  | some holds => exact .some (imp _ _ holds)

theorem sameManifests_of_effects {first second : Document} (same : SameEffects first second) :
    SameManifests first second := by
  refine sameManifests_of_operations same.title same.components same.extension
    (operations_bare same.servers same.components (same.paths.imp fun left right alike => ?_))
  obtain ⟨key, alike⟩ := alike
  obtain ⟨_, leftReads⟩ := alike.leftReads
  obtain ⟨_, rightReads⟩ := alike.rightReads
  have found := fun method => operationAt_eq same.servers same.components
    (rel_imp (fun _ _ => sameSite_of_effects alike.parameters) (alike.operations method))
  refine ⟨key, ?_, fun method => (found method).1, fun method => (found method).2⟩
  rw [(readNode_of_ofJson leftReads).1, (readNode_of_ofJson rightReads).1]

end Generate

/-! ### Explicit settings -/

def Extension.Settings.overlay (path own : Settings) : Settings where
  disable := own.disable.or path.disable
  pathMatchType := own.pathMatchType.or path.pathMatchType
  backendRefs := if own.backendRefs.isEmpty then path.backendRefs else own.backendRefs
  rateLimit := own.rateLimit.or path.rateLimit

theorem Resolution.Effective.overlay_nothing (path own : Settings) :
    Effective.overlay .nothing (Settings.overlay path own) = Effective.overlay path own := by
  unfold Effective.overlay Settings.overlay Settings.nothing
  simp only [Option.or_none, Effective.mk.injEq, and_true, true_and]
  split
  · cases path.backendRefs <;> rfl
  · rfl

namespace OpenApi

/-- The operation with its requirements, and with what it sets over these settings of its path. -/
def Operation.flatten (document : Document) (inherited : Settings) (operation : Operation) :
    Operation :=
  { operation with
    security := some (operation.effectiveSecurity document)
    extension :=
      some (Settings.overlay inherited (Resolution.settingsOf operation.extension)).toJson }

def PathItem.flatten (document : Document) (item : PathItem) : PathItem :=
  let flat := Operation.flatten document (Resolution.settingsOf item.extension)
  { parameters := item.parameters
    get := item.get.map flat
    put := item.put.map flat
    post := item.post.map flat
    delete := item.delete.map flat
    options := item.options.map flat
    head := item.head.map flat
    patch := item.patch.map flat
    trace := item.trace.map flat
    extension := none }

/-- The document whose operations inherit nothing. -/
def Document.flatten (document : Document) : Document :=
  { document with
    paths := document.paths.mapValues (fun _ item => item.flatten document)
    security := none }

theorem PathItem.operation?_flatten (document : Document) (item : PathItem) (method : Method) :
    (item.flatten document).operation? method = (item.operation? method).map
      (Operation.flatten document (Resolution.settingsOf item.extension)) := by
  cases method <;> rfl

theorem PathItem.mem_operations {item : PathItem} {method : Method} {operation : Operation}
    (declared : item.operation? method = some operation) :
    (method, operation) ∈ item.operations := by
  have listed : method ∈ PathItem.verbs := by
    cases method with
    | connect => cases declared
    | _ => decide
  refine List.mem_filterMap.2 ⟨method, listed, ?_⟩
  rw [declared]
  rfl

end OpenApi

namespace Generate

structure Readable (document : Document) : Prop where
  paths : ∀ path item, (path, item) ∈ document.paths.entries →
    ∃ settings, Settings.ofJson (.path path) item.extension = .ok settings
  operations : ∀ site ∈ document.sites, ∃ settings,
    Settings.ofJson (.operation site.path site.method.name) site.operation.extension = .ok settings

theorem sameOperationEffects_flatten {document : Document} {path : String} {item : PathItem}
    {method : Method} {operation : Operation} {inherited own : Settings}
    (pathReads : Settings.ofJson (.path path) item.extension = .ok inherited)
    (ownReads : Settings.ofJson (.operation path method.name) operation.extension = .ok own) :
    SameOperationEffects document document.flatten ⟨path, item, method, operation⟩
      ⟨path, item.flatten document, method,
        operation.flatten document (Resolution.settingsOf item.extension)⟩ where
  operationId := rfl
  parameters := rfl
  effective := by
    refine ⟨Effective.overlay inherited own, ⟨inherited, own, pathReads, ownReads, rfl⟩,
      .nothing, Settings.overlay inherited own, rfl, ?_, Effective.overlay_nothing inherited own⟩
    unfold Operation.flatten
    rw [(readNode_of_ofJson pathReads).2, (readNode_of_ofJson ownReads).2]
    exact Extension.ofJson_toJson _ _
  security := rfl

theorem sameEffects_flatten {document : Document} (readable : Readable document) :
    SameEffects document document.flatten where
  title := rfl
  servers := rfl
  components := rfl
  extension := rfl
  paths := by
    refine List.forall₂_map_right_iff.2 (List.forall₂_same.2 fun entry member => ⟨rfl, ?_⟩)
    obtain ⟨path, item⟩ := entry
    obtain ⟨inherited, pathReads⟩ := readable.paths path item member
    refine ⟨rfl, ⟨inherited, pathReads⟩, ⟨.nothing, rfl⟩, fun method => ?_⟩
    rw [PathItem.operation?_flatten]
    cases declared : item.operation? method with
    | none => exact Option.Rel.none
    | some operation =>
      have stands : ⟨path, item, method, operation⟩ ∈ document.sites :=
        List.mem_flatMap.2 ⟨(path, item), member,
          List.mem_map.2 ⟨(method, operation), PathItem.mem_operations declared, rfl⟩⟩
      obtain ⟨own, ownReads⟩ := readable.operations _ stands
      exact Option.Rel.some (sameOperationEffects_flatten pathReads ownReads)

/-- Documents whose operations have the same effects have the same manifests. So have a document and
the one in which each operation is given what it inherits, while the paths and the document itself
are left with nothing to be inherited. -/
theorem inheritance_flattens :
    (∀ first second, SameEffects first second → SameManifests first second) ∧
      ∀ document, Readable document → SameManifests document document.flatten :=
  ⟨fun _ _ => sameManifests_of_effects,
    fun _ readable => sameManifests_of_effects (sameEffects_flatten readable)⟩

def inheriting : Document :=
  { petstore with
    paths := .ofList [("/pets",
      { readItem ⟨some "listPets", [], none, some (limitExtension 5 10)⟩ with
        extension := some (.object [("backendRefs", .array [.object
          [("name", .string "petstore"), ("port", .int 80)]])]) })]
    security := some [.ofList [("apiKey", [])]] }

theorem inheriting_readable : Readable inheriting := by
  refine ⟨fun path item member => ?_, fun site member => ?_⟩
  · cases List.mem_singleton.1 member
    exact ⟨_, rfl⟩
  · cases List.mem_singleton.1 member
    exact ⟨_, rfl⟩

theorem inheriting_flattens :
    (SameEffects inheriting inheriting.flatten ∧ SameManifests inheriting inheriting.flatten) ∧
      Readable inheriting ∧ SameManifests inheriting inheriting.flatten := by
  have effects := sameEffects_flatten inheriting_readable
  exact ⟨⟨effects, inheritance_flattens.1 _ _ effects⟩, inheriting_readable,
    inheritance_flattens.2 _ inheriting_readable⟩

end Generate

end ApiManifest
