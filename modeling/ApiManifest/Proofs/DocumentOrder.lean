import Mathlib.Data.Option.Basic
import ApiManifest.Proofs.AuthenticationRules
import ApiManifest.Proofs.Dependence

/-!
The order in which a document gives its entries. Paths in another order give the same route but for
the order of its rules, and the same policies wherever no two operations compete for one name. What
the components hold is only looked up, so their order does not show at all.
-/

namespace ApiManifest

/-- Both were made and are related, or neither was made. -/
inductive MadeAlike {ε α : Type} (relates : α → α → Prop) : Except ε α → Except ε α → Prop
  | made {first second : α} (related : relates first second) :
      MadeAlike relates (.ok first) (.ok second)
  | refused (error other : ε) : MadeAlike relates (.error error) (.error other)

namespace MadeAlike

variable {ε α β : Type} {relates : α → α → Prop} {relatesNext : β → β → Prop}

theorem of_eq (result : Except ε α) : MadeAlike Eq result result := by
  cases result with
  | error error => exact .refused error error
  | ok value => exact .made rfl

theorem of_ok {first second : Except ε α} (alike : MadeAlike relates first second) {here : α}
    (made : first = .ok here) : ∃ there, second = .ok there ∧ relates here there := by
  cases alike with
  | refused error other => cases made
  | made related =>
    cases made
    exact ⟨_, rfl, related⟩

theorem trans {first second third : Except ε (List α)} (here : MadeAlike List.Perm first second)
    (there : MadeAlike List.Perm second third) : MadeAlike List.Perm first third := by
  cases here with
  | refused error other =>
    cases there
    exact .refused _ _
  | made same =>
    cases there with
    | made next => exact .made (same.trans next)

theorem map {first second : Except ε α} (alike : MadeAlike relates first second)
    {change : α → β} (next : ∀ left right, relates left right →
      relatesNext (change left) (change right)) :
    MadeAlike relatesNext (first.map change) (second.map change) := by
  cases alike with
  | refused error other => exact .refused error other
  | made related => exact .made (next _ _ related)

theorem bind {first second : Except ε α} (alike : MadeAlike relates first second)
    {left right : α → Except ε β} (next : ∀ here there, first = .ok here → second = .ok there →
      relates here there → MadeAlike relatesNext (left here) (right there)) :
    MadeAlike relatesNext (first >>= left) (second >>= right) := by
  cases alike with
  | refused error other => exact .refused error other
  | made related => exact next _ _ rfl rfl related

end MadeAlike

/-- A walk with its steps in another order fails if the walk does, and yields the same otherwise. -/
theorem Walk.results_alike {ε α : Type} {first second : Walk ε α} (reordered : first.Perm second) :
    MadeAlike List.Perm first.results second.results := by
  induction reordered with
  | nil => exact .made .nil
  | cons step _ ih =>
    cases step with
    | error error => exact .refused error error
    | ok value => exact ih.map fun _ _ same => same.cons value
  | swap left right rest =>
    cases left with
    | error error =>
      cases right with
      | error other => exact .refused other error
      | ok value => exact .refused error error
    | ok value =>
      cases right with
      | error other => exact .refused other other
      | ok other =>
        cases done : Walk.results rest with
        | error error =>
          simp only [Walk.results, done]
          exact .refused error error
        | ok values =>
          simp only [Walk.results, done]
          exact .made (.swap value other values)
  | trans _ _ here there => exact here.trans there

theorem Nonempty.list?_alike {α : Type} {left right : List α} (reordered : left.Perm right) :
    Option.Rel List.Perm (list? left) (list? right) := by
  cases left with
  | nil =>
    cases reordered.nil_eq
    exact .none
  | cons first rest =>
    cases right with
    | nil => exact absurd reordered.eq_nil (List.cons_ne_nil _ _)
    | cons other others => exact .some reordered

namespace Generate

open Gateway OpenApi Policy
open Resolution (Resolved)

def PathsReordered (first second : Document) : Prop :=
  ∃ paths : Dict PathItem, second = { first with paths } ∧
    first.paths.entries.Perm paths.entries

def ComponentsReordered (first second : Document) : Prop :=
  ∃ components : Components, second = { first with components } ∧
    first.components.parameters.entries.Perm components.parameters.entries ∧
    first.components.securitySchemes.entries.Perm components.securitySchemes.entries

/-- The same HTTPRoute but for the order of its rules. -/
structure SameRoute (first second : HttpRoute) : Prop where
  metadata : first.metadata = second.metadata
  parentRefs : first.spec.parentRefs = second.spec.parentRefs
  hostnames : first.spec.hostnames = second.spec.hostnames
  rules : Option.Rel List.Perm first.spec.rules second.spec.rules

/-- The same AuthPolicy but for the order of its top-level selectors. -/
structure SamePolicy (first second : AuthPolicy) : Prop where
  metadata : first.metadata = second.metadata
  targetRef : first.spec.targetRef = second.spec.targetRef
  routeSelectors : Option.Rel List.Perm first.spec.routeSelectors second.spec.routeSelectors
  rules : first.spec.rules = second.spec.rules

/-- Operations with rate limits have different names. -/
def LimitsApart (document : Document) : Prop :=
  ∀ operations, Resolution.operations document = .ok operations →
    ((operations.filter (fun operation => operation.rateLimit.isSome)).map Resolved.name).Nodup

/-- Different operations never claim the same key. -/
def KeysApart (document : Document) : Prop :=
  ∀ operations, Resolution.operations document = .ok operations →
    ∀ operation ∈ operations, ∀ other ∈ operations, ∀ key,
      Claims document operation key → Claims document other key → operation = other

/-! ### Paths -/

section Paths

variable {document : Document} {paths : Dict PathItem}

theorem walk_reordered (reordered : document.paths.entries.Perm paths.entries) :
    (Resolution.walk document).Perm (Resolution.walk { document with paths }) := by
  have same : ({ document with paths } : Document).pathPrefix = document.pathPrefix := rfl
  unfold Resolution.walk
  rw [same]
  cases document.pathPrefix with
  | error error => exact .refl _
  | ok pathPrefix => exact reordered.flatMap_right _

theorem operations_reordered (reordered : document.paths.entries.Perm paths.entries) :
    MadeAlike List.Perm (Resolution.operations document)
      (Resolution.operations { document with paths }) :=
  (Walk.results_alike (walk_reordered reordered)).map fun _ _ same => same.filterMap _

theorem httpRoute_reordered (reordered : document.paths.entries.Perm paths.entries) :
    MadeAlike SameRoute (httpRoute document) (httpRoute { document with paths }) := by
  refine (MadeAlike.of_eq (RouteIdentity.ofDocument document)).bind fun route _ _ _ same => ?_
  subst same
  refine (operations_reordered reordered).bind fun operations others _ _ related => .made ?_
  exact ⟨rfl, rfl, rfl, Nonempty.list?_alike (related.map routeRule)⟩

theorem limits_reordered {operations others : List Resolved} (related : operations.Perm others)
    (apart : ((operations.filter (fun operation => operation.rateLimit.isSome)).map
      Resolved.name).Nodup) :
    SortedDict.ofList (operations.filterMap limit?) =
      SortedDict.ofList (others.filterMap limit?) := by
  refine SortedDict.ofList_congr (fun entry => (related.filterMap limit?).mem_iff) ?_
  intro key first second here there
  obtain ⟨operation, stands, made⟩ := List.mem_filterMap.1 here
  obtain ⟨other, otherStands, otherMade⟩ := List.mem_filterMap.1 there
  obtain ⟨limit, limited, made⟩ := Option.map_eq_some_iff.1 made
  obtain ⟨otherLimit, otherLimited, otherMade⟩ := Option.map_eq_some_iff.1 otherMade
  cases made
  have names : other.name = operation.name := (Prod.mk.inj otherMade).1
  have same : other = operation := List.inj_on_of_nodup_map apart
    (List.mem_filter.2 ⟨otherStands, by rw [otherLimited]; rfl⟩)
    (List.mem_filter.2 ⟨stands, by rw [limited]; rfl⟩) names
  subst same
  cases limited.symm.trans otherLimited
  exact (Prod.mk.inj otherMade).2

theorem rateLimitPolicy_reordered (reordered : document.paths.entries.Perm paths.entries)
    (apart : LimitsApart document) :
    MadeAlike Eq (rateLimitPolicy document) (rateLimitPolicy { document with paths }) := by
  refine (MadeAlike.of_eq (RouteIdentity.ofDocument document)).bind fun route _ _ _ same => ?_
  subst same
  refine (operations_reordered reordered).bind fun operations others resolved _ related => .made ?_
  rw [limits_reordered related (apart operations resolved)]

theorem rules_reordered {operations : List Resolved}
    {outcomes others : List (AuthOutcome (String × Authentication))}
    (walked : (walkPolicy document operations).results = .ok outcomes)
    (related : outcomes.Perm others)
    (apart : ∀ operation ∈ operations, ∀ other ∈ operations, ∀ key,
      Claims document operation key → Claims document other key → operation = other) :
    SortedDict.ofList (outcomes.filterMap AuthOutcome.rule?) =
      SortedDict.ofList (others.filterMap AuthOutcome.rule?) := by
  refine SortedDict.ofList_congr (fun entry => (related.filterMap _).mem_iff) ?_
  rw [rules_of_results walked]
  intro key first second here there
  obtain ⟨operation, stands, inside⟩ := List.mem_flatMap.1 here
  obtain ⟨other, otherStands, otherInside⟩ := List.mem_flatMap.1 there
  have same := apart operation stands other otherStands key (claims_of_mem inside).1
    (claims_of_mem otherInside).1
  subst same
  obtain ⟨requirement, _, made⟩ := List.mem_filterMap.1 inside
  obtain ⟨name, scheme, names, joined, own⟩ := names_of_stepRule made
  dsimp only at joined
  subst joined
  exact own.unique (rule_of_mem names.2.1 otherInside)

theorem authPolicy_reordered (reordered : document.paths.entries.Perm paths.entries)
    (apart : KeysApart document) :
    MadeAlike SamePolicy (authPolicy document) (authPolicy { document with paths }) := by
  refine (MadeAlike.of_eq (RouteIdentity.ofDocument document)).bind fun route _ _ _ same => ?_
  subst same
  refine (operations_reordered reordered).bind fun operations others resolved _ related => ?_
  have walks : (walkPolicy document operations).Perm (walkPolicy { document with paths } others) :=
    related.flatMap_right _
  refine (Walk.results_alike walks).bind fun outcomes _ walked _ alike => .made ?_
  refine ⟨rfl, rfl, Nonempty.list?_alike ((related.filter _).map _), ?_⟩
  rw [rules_reordered walked alike (apart operations resolved)]

end Paths

/-! ### Components -/

section ComponentOrder

variable {document : Document} {components : Components}

theorem build_congr {first second : Components}
    (same : first.parameters.get? = second.parameters.get?) :
    RequestMatch.build first = RequestMatch.build second := by
  have referenced : first.referenced? = second.referenced? := by
    unfold Components.referenced?
    rw [same]
  have resolve : RequestMatch.resolve first = RequestMatch.resolve second := by
    unfold RequestMatch.resolve
    rw [referenced]
  unfold RequestMatch.build RequestMatch.overriding RequestMatch.requiredNames
  rw [resolve]

theorem operations_congr (same : document.components.parameters.get? = components.parameters.get?) :
    Resolution.operations { document with components } = Resolution.operations document := by
  have resolve : Resolution.resolve { document with components } = Resolution.resolve document := by
    unfold Resolution.resolve
    rw [← build_congr same]
    rfl
  have pathPrefix :
      ({ document with components } : Document).pathPrefix = document.pathPrefix := rfl
  unfold Resolution.operations Resolution.walk Resolution.walkPath
  rw [resolve, pathPrefix]

/-- The three resources look declared parameters and schemes up, whatever their order. -/
theorem components_reordered
    (parameters : document.components.parameters.get? = components.parameters.get?)
    (schemes : document.components.securitySchemes.get? = components.securitySchemes.get?) :
    httpRoute { document with components } = httpRoute document ∧
      rateLimitPolicy { document with components } = rateLimitPolicy document ∧
      authPolicy { document with components } = authPolicy document := by
  have operations : Resolution.operations { document with components } =
      Resolution.operations document := operations_congr parameters
  have identity : RouteIdentity.ofDocument { document with components } =
      RouteIdentity.ofDocument document := rfl
  have walk : walkSecurity (ρ := String × Authentication) { document with components } =
      walkSecurity document :=
    funext fun settle => walkSecurity_congr schemes.symm settle
  refine ⟨?_, ?_, ?_⟩
  · unfold httpRoute
    rw [operations, identity]
  · unfold rateLimitPolicy
    rw [operations, identity]
  · unfold authPolicy walkPolicy
    rw [operations, identity, walk]

end ComponentOrder

/-- The order of the paths shows only in the order of the rules and selectors, as long as no two
operations give a limit or a rule the same name, and the order of the components does not show. -/
theorem document_order_irrelevant (first second : Document) :
    (PathsReordered first second →
      MadeAlike SameRoute (httpRoute first) (httpRoute second) ∧
      (LimitsApart first →
        MadeAlike Eq (rateLimitPolicy first) (rateLimitPolicy second)) ∧
      (KeysApart first → MadeAlike SamePolicy (authPolicy first) (authPolicy second))) ∧
    (ComponentsReordered first second →
      httpRoute second = httpRoute first ∧ rateLimitPolicy second = rateLimitPolicy first ∧
        authPolicy second = authPolicy first) := by
  constructor
  · rintro ⟨paths, rfl, reordered⟩
    exact ⟨httpRoute_reordered reordered, rateLimitPolicy_reordered reordered,
      authPolicy_reordered reordered⟩
  · rintro ⟨components, rfl, parameters, schemes⟩
    exact components_reordered (Dict.get?_of_perm parameters) (Dict.get?_of_perm schemes)

def reversed {α : Type} (dict : Dict α) : Dict α where
  entries := dict.entries.reverse
  distinct := by
    rw [List.map_reverse, List.nodup_reverse]
    exact dict.distinct

def petstoreBackwards : Document :=
  { petstore with paths := reversed petstore.paths }

def ambiguousBackwards : Document :=
  { ambiguous with components := ⟨.empty, reversed ambiguous.components.securitySchemes⟩ }

theorem petstore_names_apart : LimitsApart petstore ∧ KeysApart petstore := by
  obtain ⟨operations, resolved, shown⟩ := exists_ok_of_map
    (show (Resolution.operations petstore).toOption.map (fun operations =>
      operations.map (fun own => (own.name, own.rateLimit.isSome, own.security))) =
      some [("listPets", true, []), ("showPetById", false, [.ofList [("apiKey", [])]])] by
      decide +kernel)
  obtain ⟨first, rest, rfl, firstIs, shown⟩ := List.map_eq_cons_iff.1 shown
  obtain ⟨second, rest, rfl, secondIs, shown⟩ := List.map_eq_cons_iff.1 shown
  cases List.map_eq_nil_iff.1 shown
  simp only [Prod.mk.injEq] at firstIs secondIs
  constructor
  · intro operations resolved'
    cases resolved.symm.trans resolved'
    simp [firstIs.2.1, secondIs.2.1]
  · intro operations resolved'
    cases resolved.symm.trans resolved'
    have only : ∀ operation ∈ [first, second], ∀ key, Claims petstore operation key →
        operation = second := by
      intro operation member key claims
      rcases List.mem_cons.1 member with rfl | later
      · obtain ⟨requirement, asked, _⟩ := claims
        rw [firstIs.2.2] at asked
        cases asked
      · exact List.mem_singleton.1 later
    intro operation member other otherMember key claims otherClaims
    exact (only operation member key claims).trans (only other otherMember key otherClaims).symm

theorem petstore_order_irrelevant :
    (∃ route backwards, httpRoute petstore = .ok route ∧
      httpRoute petstoreBackwards = .ok backwards ∧ SameRoute route backwards) ∧
    (∃ limits, rateLimitPolicy petstore = .ok limits ∧
      rateLimitPolicy petstoreBackwards = .ok limits) ∧
    (∃ policy backwards, authPolicy petstore = .ok policy ∧
      authPolicy petstoreBackwards = .ok backwards ∧ SamePolicy policy backwards) ∧
    authPolicy ambiguousBackwards = authPolicy ambiguous := by
  obtain ⟨route, routed⟩ := exists_ok_of_isSome
    (show (httpRoute petstore).toOption.isSome by decide +kernel)
  obtain ⟨limits, limited⟩ := exists_ok_of_isSome
    (show (rateLimitPolicy petstore).toOption.isSome by decide +kernel)
  obtain ⟨policy, secured⟩ := exists_ok_of_isSome
    (show (authPolicy petstore).toOption.isSome by decide +kernel)
  have reordered : PathsReordered petstore petstoreBackwards :=
    ⟨_, rfl, (List.reverse_perm _).symm⟩
  have renamed : ComponentsReordered ambiguous ambiguousBackwards :=
    ⟨_, rfl, .refl _, (List.reverse_perm _).symm⟩
  obtain ⟨routes, limitPolicies, policies⟩ :=
    (document_order_irrelevant petstore petstoreBackwards).1 reordered
  obtain ⟨backwards, routedBackwards, sameRoute⟩ := routes.of_ok routed
  obtain ⟨_, limitedBackwards, rfl⟩ := (limitPolicies petstore_names_apart.1).of_ok limited
  obtain ⟨other, securedBackwards, samePolicy⟩ := (policies petstore_names_apart.2).of_ok secured
  exact ⟨⟨route, backwards, routed, routedBackwards, sameRoute⟩, ⟨limits, limited, limitedBackwards⟩,
    ⟨policy, other, secured, securedBackwards, samePolicy⟩,
    ((document_order_irrelevant ambiguous ambiguousBackwards).2 renamed).2.2⟩

end Generate

end ApiManifest
