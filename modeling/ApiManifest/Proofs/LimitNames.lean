import Mathlib.Data.List.Dedup
import ApiManifest.Proofs.FirstFailure
import ApiManifest.Proofs.Generation

/-!
Whether every limited operation keeps its limit. Limits stand under the names of operations. Where
all identifiers differ, two names can still meet: an operation without an identifier is named by its
verb and its path, and this name may be that of another operation. The later limit then takes the
place of the earlier one, so there is one limit for each limited operation exactly if no such names
meet.
-/

namespace ApiManifest

open Extension (RateLimit)
open OpenApi (Document)
open Policy (Limit RateLimitPolicy RouteSelector)
open RequestMatch (Site)

namespace SortedDict

variable {α : Type}

theorem mem_keys_ofList_iff (entries : List (String × α)) (key : String) :
    key ∈ (ofList entries).entries.map Prod.fst ↔ key ∈ entries.map Prod.fst := by
  constructor
  · intro member
    obtain ⟨entry, stands, rfl⟩ := List.mem_map.1 member
    exact List.mem_map_of_mem (mem_of_mem_ofList stands)
  · intro member
    obtain ⟨entry, stands, rfl⟩ := List.mem_map.1 member
    exact mem_keys_ofList stands

theorem length_ofList_eq_iff (entries : List (String × α)) :
    (ofList entries).entries.length = entries.length ↔ (entries.map Prod.fst).Nodup := by
  have keys : ((ofList entries).entries.map Prod.fst).Perm (entries.map Prod.fst).dedup := by
    apply (List.perm_ext_iff_of_nodup (nodup_of_sorted (ofList entries).sorted)
      (List.nodup_dedup _)).2
    intro key
    rw [mem_keys_ofList_iff, List.mem_dedup]
  have count : (ofList entries).entries.length = (entries.map Prod.fst).dedup.length := by
    rw [← keys.length_eq, List.length_map]
  rw [count, ← List.dedup_eq_self]
  constructor
  · intro same
    apply (List.dedup_sublist _).eq_of_length
    rw [same, List.length_map]
  · intro same
    rw [same, List.length_map]

end SortedDict

namespace Resolution

def nameOf (site : Site) : String :=
  Naming.operationName site.path site.method site.operation

def identifier? (site : Site) : Option String :=
  Nonempty.text? site.operation.operationId

theorem nameOf_eq (site : Site) :
    nameOf site = (identifier? site).getD (Naming.fallbackName site.path site.method) := by
  unfold nameOf identifier? Naming.operationName Nonempty.text?
  cases site.operation.operationId with
  | none => rfl
  | some id => cases empty : id.isEmpty <;> simp [Option.filter, empty]

def IdentifiersApart (document : Document) : Prop :=
  (document.sites.filterMap identifier?).Nodup

instance (document : Document) : Decidable (IdentifiersApart document) :=
  inferInstanceAs (Decidable (List.Nodup _))

/-- One of the operations has no identifier, and its verb and path make up the name of the other. -/
def NamesMeet (first second : Site) : Prop :=
  identifier? first = none ∧ nameOf second = Naming.fallbackName first.path first.method ∨
    identifier? second = none ∧ nameOf first = Naming.fallbackName second.path second.method

instance (first second : Site) : Decidable (NamesMeet first second) :=
  inferInstanceAs (Decidable (_ ∨ _))

def limitedSites (document : Document) : List Site :=
  (enabledSites document).filter (fun site => (effectiveAt site).rateLimit.isSome)

theorem limitedSites_sublist (document : Document) :
    (limitedSites document).Sublist document.sites :=
  List.filter_sublist.trans List.filter_sublist

/-- Operations with different identifiers have the same name exactly if their names meet. -/
theorem nameOf_eq_iff_meet {first second : Site}
    (apart : ∀ id, identifier? first = some id → identifier? second ≠ some id) :
    nameOf first = nameOf second ↔ NamesMeet first second := by
  unfold NamesMeet
  rw [nameOf_eq first, nameOf_eq second]
  cases own : identifier? first with
  | none => cases other : identifier? second <;> simp [eq_comm]
  | some id =>
    cases other : identifier? second with
    | none => simp
    | some otherId =>
      have different : id ≠ otherId := by
        rintro rfl
        exact apart id own other
      simpa using different

theorem names_nodup_iff {document : Document} (apart : IdentifiersApart document) :
    ((limitedSites document).map nameOf).Nodup ↔
      (limitedSites document).Pairwise (fun first second => ¬ NamesMeet first second) := by
  have different : (limitedSites document).Pairwise (fun first second =>
      ∀ id, identifier? first = some id → identifier? second ≠ some id) := by
    have all := (List.pairwise_filterMap.1 apart).sublist (limitedSites_sublist document)
    apply all.imp
    intro first second distinct id own other
    exact distinct id own id other rfl
  unfold List.Nodup
  rw [List.pairwise_map]
  constructor
  · intro names
    apply (names.and different).imp
    rintro first second ⟨unequal, ids⟩ meet
    exact unequal ((nameOf_eq_iff_meet ids).2 meet)
  · intro names
    apply (names.and different).imp
    rintro first second ⟨alone, ids⟩ same
    exact alone ((nameOf_eq_iff_meet ids).1 same)

end Resolution

namespace Generate

open Resolution (IdentifiersApart NamesMeet effectiveAt limitedSites nameOf)
open Resolution (names_nodup_iff operations_eq_records record)

variable {document : Document} {policy : RateLimitPolicy}

/-- What a limit takes from the settings of an operation. -/
def content (limit : Limit) : RateLimit :=
  ⟨limit.conditions, limit.counters, limit.rates⟩

/-- The limit is the operation's own: it selects the operation's requests alone, and it takes the
rest from what holds for the operation. -/
structure IsLimitOf (document : Document) (site : Site) (limit : Limit) : Prop where
  selectors : limit.routeSelectors = some [RouteSelector.ofMatch (record document site).matcher]
  effective : (effectiveAt site).rateLimit = some (content limit)

def limitAt? (document : Document) (site : Site) : Option (String × Limit) :=
  limit? (record document site)

theorem limitAt?_eq_some_iff {site : Site} {key : String} {limit : Limit} :
    limitAt? document site = some (key, limit) ↔
      nameOf site = key ∧ IsLimitOf document site limit := by
  have set : (record document site).rateLimit = (effectiveAt site).rateLimit := rfl
  unfold limitAt? limit?
  rw [set, Option.map_eq_some_iff]
  constructor
  · rintro ⟨rateLimit, effective, made⟩
    cases made
    exact ⟨rfl, rfl, effective⟩
  · rintro ⟨rfl, selectors, effective⟩
    refine ⟨content limit, effective, ?_⟩
    obtain ⟨own, conditions, counters, rates⟩ := limit
    cases selectors
    rfl

theorem exists_isLimitOf {site : Site} (limited : site ∈ limitedSites document) :
    ∃ limit, IsLimitOf document site limit := by
  obtain ⟨_, isSet⟩ := List.mem_filter.1 limited
  obtain ⟨rateLimit, set⟩ := Option.isSome_iff_exists.1 isSet
  exact ⟨⟨_, rateLimit.conditions, rateLimit.counters, rateLimit.rates⟩, rfl, set⟩

theorem limits_eq (made : rateLimitPolicy document = .ok policy) :
    policy.spec.allLimits = .ofList ((limitedSites document).filterMap (limitAt? document)) := by
  obtain ⟨_, operations, _, resolved, _, _, limits⟩ := rateLimitPolicy_ok made
  rw [allLimits_eq limits, operations_eq_records resolved, List.filterMap_map]
  unfold limitedSites
  rw [List.filterMap_filter]
  refine congrArg SortedDict.ofList (List.filterMap_congr fun site _ => ?_)
  change limitAt? document site = _
  cases unlimited : (effectiveAt site).rateLimit with
  | some rateLimit => rfl
  | none =>
    have none : (record document site).rateLimit = none := unlimited
    unfold limitAt? limit?
    rw [none]
    rfl

theorem limit_keys (document : Document) :
    ((limitedSites document).filterMap (limitAt? document)).map Prod.fst =
      (limitedSites document).map nameOf := by
  rw [List.map_filterMap]
  apply List.filterMap_eq_map_iff_forall_eq_some.2
  intro site limited
  obtain ⟨limit, own⟩ := exists_isLimitOf limited
  rw [limitAt?_eq_some_iff.2 ⟨rfl, own⟩]
  rfl

structure OneLimitEach (document : Document) (policy : RateLimitPolicy) : Prop where
  count : policy.spec.allLimits.entries.length = (limitedSites document).length
  own : ∀ site ∈ limitedSites document, ∃ limit,
    policy.spec.allLimits.get? (nameOf site) = some limit ∧ IsLimitOf document site limit

theorem own_limit (made : rateLimitPolicy document = .ok policy)
    (names : ((limitedSites document).map nameOf).Nodup) {site : Site}
    (limited : site ∈ limitedSites document) : ∃ limit,
      policy.spec.allLimits.get? (nameOf site) = some limit ∧ IsLimitOf document site limit := by
  obtain ⟨limit, own⟩ := exists_isLimitOf limited
  have asks : limitAt? document site = some (nameOf site, limit) :=
    limitAt?_eq_some_iff.2 ⟨rfl, own⟩
  refine ⟨limit, ?_, own⟩
  rw [limits_eq made, SortedDict.get?_ofList_of_nodup]
  · apply Dict.lookup_of_mem
    · rw [limit_keys]
      exact names
    · exact List.mem_filterMap.2 ⟨site, limited, asks⟩
  · rw [limit_keys]
    exact names

def limitedShop (operations : List (String × Option String)) : Document :=
  { petstore with
    paths := .ofList (operations.map fun (path, id) =>
      (path, readItem ⟨id, [], none, some (limitExtension 5 10)⟩)) }

def likePaths : Document :=
  limitedShop [("/pet-food", none), ("/petfood", none)]

def unlikeNames : Document :=
  limitedShop [("/toys", none), ("/toys/\x7bid\x7d", some "getToy")]

end Generate

end ApiManifest
