import ApiManifest.Proofs.Dependence
import ApiManifest.Proofs.LimitNames
import ApiManifest.Proofs.WrittenBack
import ApiManifest.Proofs.WrittenSettings

/-!
What a RateLimitPolicy holds. Under a name stands the limit of the last limited operation with that
name. When it applies, what it counts by and how many requests it lets pass come whole from one
place of the document: from what stands for the rate limit at the operation, unless that is null or
there is nothing, and else from what stands at its path. Written as JSON they are what stands there,
where operators and units are given by their names.
-/

namespace ApiManifest

open Extension (RateLimit Settings)
open OpenApi (Document)
open Policy (Condition Limit Rate RateLimitPolicy RateLimitPolicySpec RouteSelector)
open RequestMatch (Site)

/-! ### Conditions and rates as they are written -/

namespace Policy

open Codec WireField

/-- An object with just the fields of a condition, and its operator given by its name. -/
def Condition.IsPlain : Json → Prop :=
  IsObjectOf ["selector", "operator", "value"] (fun name json => name = "operator" → IsText json)

theorem Condition.preserves : Condition.codec.Preserves Condition.IsPlain :=
  record_preserves
    (.cons (required_preserves text_preserves) <|
      .cons (required_preserves (choice_preserves.of_imp fun _ plain => plain rfl)) <|
      .cons (required_preserves text_preserves) .nil)
    (by decide) (fun _ => rfl) (fun _ => rfl)

def Rate.IsPlain : Json → Prop :=
  IsObjectOf ["limit", "duration", "unit"] (fun name json => name = "unit" → IsText json)

theorem Rate.preserves : Rate.codec.Preserves Rate.IsPlain :=
  record_preserves
    (.cons (required_preserves int32_preserves) <|
      .cons (required_preserves int32_preserves) <|
      .cons (required_preserves (choice_preserves.of_imp fun _ plain => plain rfl)) .nil)
    (by decide) (fun _ => rfl) (fun _ => rfl)

end Policy

namespace Extension

open Codec WireField

/-- What stands under a name in a rate limit is a list of plain conditions or of plain rates, where
it is to be one. -/
def IsPlainField (name : String) (json : Json) : Prop :=
  (name = "when" → ItemsAre Condition.IsPlain json) ∧
    (name = "rates" → ItemsAre Rate.IsPlain json)

theorem RateLimit.preserve : RateLimit.fields.Preserve IsPlainField :=
  .cons (option_preserves ((list_preserves Condition.preserves).of_imp fun _ plain => plain.1 rfl)
    rfl rfl rfl) <|
  .cons (option_preserves texts_preserves rfl rfl rfl) <|
  .cons (option_preserves ((list_preserves Rate.preserves).of_imp fun _ plain => plain.2 rfl)
    rfl rfl rfl) .nil

def rateLimitNode? (extension : Option Json) : Option Json :=
  (extension.bind (fun json => json.field? Settings.fields.names "rate_limit")).filter (· ≠ .null)

theorem rateLimit_of_gives {json : Json} {settings : Settings}
    (gives : Settings.reader.Gives json settings) :
    Option.Rel RateLimit.reader.Gives (rateLimitNode? (some json)) settings.rateLimit := by
  obtain ⟨values, given, rfl⟩ := Reader.map_gives gives
  have takes : Settings.fields.Takes (json.field? Settings.fields.names) values :=
    Fields.takes_of_gives (by decide) given
  obtain ⟨disable, pathMatchType, backendRefs, rateLimit, _⟩ := values
  have taken := takes.2.2.2.1
  have bound : rateLimitNode? (some json) =
      (json.field? Settings.fields.names "rate_limit").filter (· ≠ .null) := rfl
  rw [bound]
  change Field.Takes _ (json.field? Settings.fields.names "rate_limit") rateLimit at taken
  cases found : json.field? Settings.fields.names "rate_limit" with
  | none =>
    rw [found] at taken
    cases taken
    exact .none
  | some node =>
    rw [found] at taken
    rcases Reader.option_gives taken with ⟨rfl, rfl⟩ | ⟨filled, given, rfl, read⟩
    · exact .none
    · have kept : (some node).filter (· ≠ .null) = some node := by
        simp [Option.filter, filled]
      rw [kept]
      exact .some read

theorem rateLimit_of_ofJson {place : ExtensionPlace} {extension : Option Json}
    {settings : Settings} (read : Settings.ofJson place extension = .ok settings) :
    Option.Rel RateLimit.reader.Gives (rateLimitNode? extension) settings.rateLimit := by
  unfold Settings.ofJson Extension.read at read
  split at read
  · cases read
    exact .none
  · cases read
    exact .none
  · split at read
    · next result rest done =>
      cases read
      exact rateLimit_of_gives ⟨0, rest, done⟩
    · cases read

end Extension

namespace Generate

open Extension (IsPlainField rateLimitNode? rateLimit_of_ofJson)
open Resolution (Effective Resolved bind_eq_ok effectiveAt enabledSites)
open Resolution (limitedSites nameOf operations_ok record)

/-! ### Where a rate limit comes from -/

/-- What stands for the rate limit at an operation, or else at its path. -/
def limitNode? (site : Site) : Option Json :=
  (rateLimitNode? site.operation.extension).or (rateLimitNode? site.item.extension)

theorem reads_of_operations {document : Document} {operations : List Resolved}
    (resolved : Resolution.operations document = .ok operations) {site : Site}
    (declared : site ∈ document.sites) : ∃ effective, Reads site effective := by
  obtain ⟨pathPrefix, outcomes, _, _, settled⟩ := operations_ok resolved
  obtain ⟨outcome, _, settles⟩ := exists_of_mem_right (List.Forall₂.flip settled) declared
  obtain ⟨inherited, path, settles⟩ := bind_eq_ok settles
  obtain ⟨own, operation, _⟩ := bind_eq_ok settles
  exact ⟨_, inherited, own, path, operation, rfl⟩

/-- The rate limit of an operation is what stands for it at one place. -/
theorem rateLimit_of_reads {site : Site} {effective : Effective} (reads : Reads site effective) :
    Option.Rel RateLimit.reader.Gives (limitNode? site) effective.rateLimit := by
  obtain ⟨inherited, own, path, operation, rfl⟩ := reads
  have ownGives := rateLimit_of_ofJson operation
  have pathGives := rateLimit_of_ofJson path
  unfold limitNode? Effective.overlay
  dsimp only
  generalize rateLimitNode? site.operation.extension = ownNode at ownGives
  generalize own.rateLimit = ownLimit at ownGives
  cases ownGives with
  | some gives => exact .some gives
  | none =>
    rw [Option.none_or, Option.none_or]
    exact pathGives

section Content

variable {document : Document} {policy : RateLimitPolicy}

theorem rateLimit_of_made (made : rateLimitPolicy document = .ok policy) {site : Site}
    (enabled : site ∈ enabledSites document) :
    Option.Rel RateLimit.reader.Gives (limitNode? site) (effectiveAt site).rateLimit := by
  obtain ⟨_, operations, _, resolved, _⟩ := rateLimitPolicy_ok made
  obtain ⟨effective, reads⟩ := reads_of_operations resolved (List.mem_filter.1 enabled).1
  rw [(effectiveAt_of_reads reads).2.2]
  exact rateLimit_of_reads reads

/-- The operation is the last limited one with that name. -/
def LastLimited (document : Document) (key : String) (site : Site) : Prop :=
  ∃ before after, limitedSites document = before ++ site :: after ∧ nameOf site = key ∧
    ∀ later ∈ after, nameOf later ≠ key

theorem LastLimited.limited {key : String} {site : Site} (last : LastLimited document key site) :
    site ∈ limitedSites document := by
  obtain ⟨before, after, whole, _⟩ := last
  rw [whole]
  exact List.mem_append_right _ List.mem_cons_self

/-- The limit under a name is that of the last limited operation with the name. -/
theorem limit_iff_lastLimited (made : rateLimitPolicy document = .ok policy) (key : String)
    (limit : Limit) :
    policy.spec.allLimits.get? key = some limit ↔
      ∃ site, LastLimited document key site ∧ IsLimitOf document site limit := by
  rw [limits_eq made, SortedDict.get?_ofList_filterMap]
  constructor
  · rintro ⟨before, site, after, whole, gives, last⟩
    obtain ⟨named, own⟩ := limitAt?_eq_some_iff.1 gives
    refine ⟨site, ⟨before, after, whole, named, fun later member same => ?_⟩, own⟩
    have limited : later ∈ limitedSites document := by
      rw [whole]
      exact List.mem_append_right _ (List.mem_cons_of_mem _ member)
    obtain ⟨other, isOther⟩ := exists_isLimitOf limited
    exact last later member other (limitAt?_eq_some_iff.2 ⟨same, isOther⟩)
  · rintro ⟨site, ⟨before, after, whole, named, last⟩, own⟩
    refine ⟨before, site, after, whole, limitAt?_eq_some_iff.2 ⟨named, own⟩, ?_⟩
    intro later member other gives
    exact last later member (limitAt?_eq_some_iff.1 gives).1

theorem isSome_iff_limited (made : rateLimitPolicy document = .ok policy) (key : String) :
    (policy.spec.allLimits.get? key).isSome ↔
      ∃ site ∈ limitedSites document, nameOf site = key := by
  constructor
  · intro there
    obtain ⟨limit, found⟩ := Option.isSome_iff_exists.1 there
    obtain ⟨site, last, _⟩ := (limit_iff_lastLimited made key limit).1 found
    have limited := last.limited
    obtain ⟨before, after, _, named, _⟩ := last
    exact ⟨site, limited, named⟩
  · rintro ⟨site, limited, rfl⟩
    obtain ⟨limit, own⟩ := exists_isLimitOf limited
    by_contra absent
    rw [Option.not_isSome_iff_eq_none, limits_eq made, SortedDict.get?_ofList,
      SortedDict.lookup_reverse_eq_none_iff] at absent
    exact absent limit (List.mem_filterMap.2 ⟨site, limited, limitAt?_eq_some_iff.2 ⟨rfl, own⟩⟩)

/-! ### What is written -/

theorem under?_limit (limit : Limit) {name : String} (other : name ≠ "routeSelectors") :
    (Limit.codec.write limit).toJson.under? name =
      ((RateLimit.fields.write (limit.conditions, limit.counters, limit.rates, ())).lookup
        name).map Wire.toJson := by
  let fields : Fields WireField _ := .cons (.optional "routeSelectors" (.list RouteSelector.codec))
    RateLimit.fields
  have distinct : fields.names.Nodup := by decide
  have keys : ((fields.write (limit.routeSelectors, limit.conditions, limit.counters,
      limit.rates, ())).map Prod.fst).Nodup := distinct.sublist (fields.write_names _)
  refine (Json.under?_record keys name).trans ?_
  rw [Fields.lookup_write_cons distinct]
  exact congrArg (Option.map Wire.toJson) (if_neg other)

theorem at?_limit {key : String} {limit : Limit}
    (found : policy.spec.allLimits.get? key = some limit) (path : List String) :
    policy.toWire.toJson.at? ("spec" :: "limits" :: key :: path) =
      (Limit.codec.write limit).toJson.at? path := by
  have spec : policy.toWire.toJson.under? "spec" =
      some (RateLimitPolicySpec.codec.write policy.spec).toJson := by
    change (Wire.record [("apiVersion", _), ("kind", _), ("metadata", _),
      ("spec", RateLimitPolicySpec.codec.write policy.spec)]).toJson.under? "spec" = _
    apply Json.under?_of_mem
    · change ["apiVersion", "kind", "metadata", "spec"].Nodup
      decide
    · simp
  have limits : (RateLimitPolicySpec.codec.write policy.spec).toJson.under? "limits" =
      some ((Codec.sorted Limit.codec).write policy.spec.allLimits).toJson := by
    obtain ⟨metadata, target, limits⟩ := policy
    cases limits with
    | none => cases found
    | some limits =>
      change (Wire.record [("targetRef", _),
        ("limits", (Codec.sorted Limit.codec).write limits)]).toJson.under? "limits" = _
      apply Json.under?_of_mem
      · change ["targetRef", "limits"].Nodup
        decide
      · exact List.mem_cons_of_mem _ List.mem_cons_self
  have own := Json.under?_sorted Limit.codec policy.spec.allLimits key
  rw [found] at own
  rw [Json.at?, spec, Option.bind_some, Json.at?, limits, Option.bind_some, Json.at?, own]
  rfl

theorem at?_field (made : rateLimitPolicy document = .ok policy) {key : String} {site : Site}
    (last : LastLimited document key site) {entries : List (String × Json)}
    (stands : limitNode? site = some (.object entries))
    (plain : ∀ name json, entries.lookup name = some json → IsPlainField name json)
    {name : String} (known : name ∈ ["when", "counters", "rates"]) :
    policy.toWire.toJson.at? ["spec", "limits", key, name] =
      (entries.lookup name).filter (· ≠ .null) := by
  obtain ⟨limit, own⟩ := exists_isLimitOf last.limited
  have found : policy.spec.allLimits.get? key = some limit :=
    (limit_iff_lastLimited made key limit).2 ⟨site, last, own⟩
  have gives := rateLimit_of_made made (List.mem_filter.1 last.limited).1
  rw [stands, own.effective] at gives
  cases gives with
  | some gives =>
    obtain ⟨⟨conditions, counters, rates, _⟩, given, same⟩ := Reader.map_gives gives
    have takes : RateLimit.fields.Takes ((Json.object entries).field? RateLimit.fields.names)
        (conditions, counters, rates, ()) := Fields.takes_of_gives (by decide) given
    cases same
    have written := Fields.lookup_written RateLimit.preserve (by decide) plain takes known
    have other : name ≠ "routeSelectors" := by
      rintro rfl
      exact absurd known (by decide)
    rw [at?_limit found, Json.at?, under?_limit limit other, written]
    exact Option.bind_fun_some _

end Content

def headerCondition (operator : Json) : Json :=
  .object [("operator", operator), ("selector", .string "context.request.http.headers.x-user"),
    ("value", .string "")]

def conditionEntries (operator : Json) : List (String × Json) :=
  [("rates", .null), ("when", .array [headerCondition operator])]

def conditionOperation (operator : Json) : OpenApi.Operation :=
  ⟨some "listPets", [], none, some (.object [("rate_limit", .object (conditionEntries operator))])⟩

def conditionShop (operator : Json) : Document :=
  { petstore with paths := .ofList [("/pets", readItem (conditionOperation operator))] }

def conditionSite (operator : Json) : Site :=
  ⟨"/pets", readItem (conditionOperation operator), .get, conditionOperation operator⟩

theorem headerCondition_object (operator : Json) :
    Codec.IsObjectOf ["selector", "operator", "value"]
      (fun name json => name = "operator" → json = operator) (headerCondition operator) := by
  have keys : ["operator", "selector", "value"].Pairwise (· < ·) := by decide
  have sorted : [("operator", operator),
      ("selector", .string "context.request.http.headers.x-user"), ("value", .string "")].Pairwise
        (fun left right => left.1 < right.1) :=
    List.pairwise_map.1 keys
  refine ⟨⟨_, sorted⟩, rfl, fun name value found => ?_⟩
  have member := Dict.mem_of_lookup found
  rcases List.mem_cons.1 member with first | later
  · cases first
    exact ⟨by decide, fun _ => rfl⟩
  · rcases List.mem_cons.1 later with second | last
    · cases second
      exact ⟨by decide, fun same => absurd same (by decide)⟩
    · cases List.mem_singleton.1 last
      exact ⟨by decide, fun same => absurd same (by decide)⟩

end Generate

end ApiManifest
