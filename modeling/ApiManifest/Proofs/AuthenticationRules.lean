import ApiManifest.Proofs.Demands
import ApiManifest.Proofs.Generation

/-!
The authentication rules of an AuthPolicy. Every requirement of an enabled operation that names one
declared scheme gets a rule under the operation's name and the scheme's. Joined names may agree where
their parts do not, and then the rule of the last operation stands.
-/

namespace ApiManifest.Generate

open OpenApi (Document Requirement SecurityScheme)
open Policy
open Resolution (Resolved bind_eq_ok)
open Security (Scheme)
open SortedDict (lookup_reverse_append lookup_reverse_eq_none_iff)

inductive Expresses (name : String) (scheme : SecurityScheme) :
    Option Policy.Credentials → AuthenticationMethod → Prop
  | header {key : String} (kind : scheme.kind = "apiKey") (location : scheme.location = some "header")
      (keyName : scheme.name = some key) :
      Expresses name scheme (some (.customHeader ⟨key⟩)) (.apiKey (.forScheme name))
  | query {key : String} (kind : scheme.kind = "apiKey") (location : scheme.location = some "query")
      (keyName : scheme.name = some key) :
      Expresses name scheme (some (.queryString ⟨key⟩)) (.apiKey (.forScheme name))
  | cookie {key : String} (kind : scheme.kind = "apiKey") (location : scheme.location = some "cookie")
      (keyName : scheme.name = some key) :
      Expresses name scheme (some (.cookie ⟨key⟩)) (.apiKey (.forScheme name))
  | issuer {url : String} (kind : scheme.kind = "openIdConnect")
      (given : scheme.openIdConnectUrl = some url) :
      Expresses name scheme none (.jwt ⟨url⟩)

/-- The requirement names that scheme alone, and the scheme is declared with a type that rules can
express. -/
def Names (document : Document) (requirement : Requirement) (name : String)
    (scheme : SecurityScheme) : Prop :=
  requirement.keys = [name] ∧ document.components.securitySchemes.get? name = some scheme ∧
    (scheme.kind = "apiKey" ∨ scheme.kind = "openIdConnect")

/-- The operation has a requirement whose rule would stand under that key. -/
def Claims (document : Document) (operation : Resolved) (key : String) : Prop :=
  ∃ requirement ∈ operation.security, ∃ name scheme, Names document requirement name scheme ∧
    operation.name ++ "_" ++ name = key

/-- The rule is the operation's own: it selects the operation's requests alone and expresses the
scheme. -/
def IsRuleOf (operation : Resolved) (name : String) (scheme : SecurityScheme)
    (rule : Authentication) : Prop :=
  rule.routeSelectors = some [.ofMatch operation.matcher] ∧
    Expresses name scheme rule.credentials rule.method

theorem Expresses.unique {name : String} {scheme : SecurityScheme}
    {credentials otherCredentials : Option Policy.Credentials}
    {method otherMethod : AuthenticationMethod} (first : Expresses name scheme credentials method)
    (second : Expresses name scheme otherCredentials otherMethod) :
    credentials = otherCredentials ∧ method = otherMethod := by
  cases first <;> cases second <;> simp_all

theorem IsRuleOf.unique {operation : Resolved} {name : String} {scheme : SecurityScheme}
    {rule other : Authentication} (first : IsRuleOf operation name scheme rule)
    (second : IsRuleOf operation name scheme other) : rule = other := by
  obtain ⟨rule, credentials, method⟩ := rule
  obtain ⟨other, otherCredentials, otherMethod⟩ := other
  have selectors : rule = other := first.1.trans second.1.symm
  obtain ⟨credential, way⟩ := first.2.unique second.2
  dsimp only at credential way
  rw [selectors, credential, way]

theorem settlePolicy_declared (operation : Resolved) {name : String} {scheme : SecurityScheme}
    {meaning : Scheme} (means : Means name scheme (.ok meaning))
    (supported : scheme.kind = "apiKey" ∨ scheme.kind = "openIdConnect") :
    ∃ rule, stepRule? (settlePolicy operation (.declared name meaning)) =
      some (ruleName operation name, rule) ∧ IsRuleOf operation name scheme rule := by
  cases means with
  | unsupported notKey notIssuer =>
    rcases supported with isKey | isIssuer
    · exact absurd isKey notKey
    · exact absurd isIssuer notIssuer
  | openIdConnect kind given _ => exact ⟨_, rfl, rfl, .issuer kind given⟩
  | @apiKey location key kind given keyName _ =>
    cases location with
    | header => exact ⟨_, rfl, rfl, .header kind given keyName⟩
    | query => exact ⟨_, rfl, rfl, .query kind given keyName⟩
    | cookie => exact ⟨_, rfl, rfl, .cookie kind given keyName⟩

theorem stepRule_of_names {document : Document} {operation : Resolved} {requirement : Requirement}
    {name : String} {scheme : SecurityScheme} (names : Names document requirement name scheme)
    (passes : ∃ outcome,
      (demand document operation requirement >>= settlePolicy operation) = .ok outcome) :
    ∃ rule, stepRule? (demand document operation requirement >>= settlePolicy operation) =
      some (ruleName operation name, rule) ∧ IsRuleOf operation name scheme rule := by
  obtain ⟨outcome, passes⟩ := passes
  obtain ⟨demanded, wanted, _⟩ := bind_eq_ok passes
  rw [demand_of_declared names.1 names.2.1] at wanted ⊢
  cases classified : Security.classify name scheme with
  | error error =>
    rw [classified] at wanted
    cases wanted
  | ok meaning => exact settlePolicy_declared operation (classify_eq_iff.1 classified) names.2.2

theorem names_of_stepRule {document : Document} {operation : Resolved} {requirement : Requirement}
    {entry : String × Authentication}
    (made : stepRule? (demand document operation requirement >>= settlePolicy operation) =
      some entry) :
    ∃ name scheme, Names document requirement name scheme ∧
      entry.1 = ruleName operation name ∧ IsRuleOf operation name scheme entry.2 := by
  cases wanted : demand document operation requirement with
  | error error =>
    rw [wanted] at made
    cases made
  | ok demanded =>
    rw [wanted] at made
    change stepRule? (settlePolicy operation demanded) = some entry at made
    cases demand_eq_iff.1 wanted with
    | anyone free => cases made
    | undeclared alone absent => cases made
    | @declared name scheme meaning alone declared means =>
      have supported : scheme.kind = "apiKey" ∨ scheme.kind = "openIdConnect" := by
        cases means with
        | unsupported notKey notIssuer => cases made
        | apiKey kind given keyName filled => exact Or.inl kind
        | openIdConnect kind given filled => exact Or.inr kind
      obtain ⟨rule, same, own⟩ := settlePolicy_declared operation means supported
      cases same.symm.trans made
      exact ⟨name, scheme, ⟨alone, declared, supported⟩, rfl, own⟩

section Kept

variable {document : Document}

def operationRules (document : Document) (operation : Resolved) : List (String × Authentication) :=
  operation.security.filterMap (fun requirement =>
    stepRule? (demand document operation requirement >>= settlePolicy operation))

theorem claims_of_mem {operation : Resolved} {entry : String × Authentication}
    (member : entry ∈ operationRules document operation) :
    Claims document operation entry.1 ∧
      entry.2.routeSelectors = some [.ofMatch operation.matcher] := by
  obtain ⟨requirement, asked, made⟩ := List.mem_filterMap.1 member
  obtain ⟨name, scheme, names, key, own⟩ := names_of_stepRule made
  exact ⟨⟨requirement, asked, name, scheme, names, key.symm⟩, own.1⟩

theorem rule_of_mem {operation : Resolved} {name : String} {scheme : SecurityScheme}
    (declared : document.components.securitySchemes.get? name = some scheme)
    {rule : Authentication}
    (member : (ruleName operation name, rule) ∈ operationRules document operation) :
    IsRuleOf operation name scheme rule := by
  obtain ⟨requirement, _, made⟩ := List.mem_filterMap.1 member
  obtain ⟨other, otherScheme, names, key, own⟩ := names_of_stepRule made
  have same : name = other := by
    unfold ruleName at key
    exact (String.append_right_inj _).1 key
  subst same
  cases declared.symm.trans names.2.1
  exact own

theorem mem_of_names {operations : List Resolved}
    {outcomes : List (AuthOutcome (String × Authentication))}
    (walked : (walkPolicy document operations).results = .ok outcomes) {operation : Resolved}
    (stands : operation ∈ operations) {requirement : Requirement}
    (asked : requirement ∈ operation.security) {name : String} {scheme : SecurityScheme}
    (names : Names document requirement name scheme) :
    ∃ rule, (ruleName operation name, rule) ∈ operationRules document operation := by
  obtain ⟨rule, made, _⟩ := stepRule_of_names names (step_of_results walked stands asked)
  exact ⟨rule, List.mem_filterMap.2 ⟨requirement, asked, made⟩⟩

theorem authentications_of_walk {policy : AuthPolicy} {operations : List Resolved}
    (made : authPolicy document = .ok policy)
    (resolved : Resolution.operations document = .ok operations) :
    policy.spec.authentications = .ofList (operations.flatMap (operationRules document)) ∧
      ∃ outcomes, (walkPolicy document operations).results = .ok outcomes := by
  obtain ⟨_, others, outcomes, _, resolved', walked, _, _, _, rules⟩ := authPolicy_ok made
  cases resolved.symm.trans resolved'
  refine ⟨?_, outcomes, walked⟩
  rw [authentications_eq rules, rules_of_results walked]
  rfl

/-- A rule of a later operation is no rule of an earlier one, for their matches differ. -/
theorem not_isRuleOf_of_later {operations before after : List Resolved} {operation later : Resolved}
    (resolved : Resolution.operations document = .ok operations)
    (stands : operations = before ++ operation :: after) (follows : later ∈ after)
    {rule : Authentication} (selects : rule.routeSelectors = some [.ofMatch later.matcher])
    (name : String) (scheme : SecurityScheme) : ¬ IsRuleOf operation name scheme rule := by
  intro own
  have distinct := Resolution.matchers_nodup resolved
  rw [stands, List.map_append, List.map_cons] at distinct
  have fresh := (List.nodup_cons.1 (List.nodup_append.1 distinct).2.1).1
  have same := selects.symm.trans own.1
  simp only [RouteSelector.ofMatch, Option.some.injEq, List.cons.injEq, and_true,
    RouteSelector.mk.injEq, true_and] at same
  exact fresh (List.mem_map.2 ⟨later, follows, same⟩)

/-- Under the joined name of an operation and a scheme that it requires stands a rule, which is
the operation's own exactly when no later operation claims the same name. -/
theorem rule_under_joined_name {policy : AuthPolicy} {operations before after : List Resolved}
    {operation : Resolved} (made : authPolicy document = .ok policy)
    (resolved : Resolution.operations document = .ok operations)
    (stands : operations = before ++ operation :: after) {requirement : Requirement}
    (asked : requirement ∈ operation.security) {name : String} {scheme : SecurityScheme}
    (names : Names document requirement name scheme) :
    ∃ rule, policy.spec.authentications.get? (operation.name ++ "_" ++ name) = some rule ∧
      (IsRuleOf operation name scheme rule ↔
        ∀ later ∈ after, ¬ Claims document later (operation.name ++ "_" ++ name)) := by
  obtain ⟨rules, outcomes, walked⟩ := authentications_of_walk made resolved
  have member : operation ∈ operations := stands ▸ List.mem_append_right _ List.mem_cons_self
  obtain ⟨own, inside⟩ := mem_of_names walked member asked names
  rw [rules, SortedDict.get?_ofList, stands, List.flatMap_append, List.flatMap_cons,
    lookup_reverse_append, lookup_reverse_append]
  cases found : (after.flatMap (operationRules document)).reverse.lookup
      (operation.name ++ "_" ++ name) with
  | some rule =>
    have entry := List.mem_reverse.1 (Dict.mem_of_lookup found)
    obtain ⟨later, follows, laterRule⟩ := List.mem_flatMap.1 entry
    obtain ⟨claimed, selects⟩ := claims_of_mem laterRule
    refine ⟨rule, rfl, ?_⟩
    constructor
    · intro isOwn
      exact absurd isOwn (not_isRuleOf_of_later resolved stands follows selects name scheme)
    · intro unclaimed
      exact absurd claimed (unclaimed later follows)
  | none =>
    have absent := (lookup_reverse_eq_none_iff _ _).1 found
    cases ownFound : (operationRules document operation).reverse.lookup
        (operation.name ++ "_" ++ name) with
    | none => exact absurd inside ((lookup_reverse_eq_none_iff _ _).1 ownFound own)
    | some rule =>
      have entry := List.mem_reverse.1 (Dict.mem_of_lookup ownFound)
      have isOwn : IsRuleOf operation name scheme rule := rule_of_mem names.2.1 entry
      refine ⟨rule, rfl, fun _ later follows claimed => ?_, fun _ => isOwn⟩
      obtain ⟨laterRequirement, laterAsked, laterName, laterScheme, laterNames, joined⟩ := claimed
      have laterMember : later ∈ operations :=
        stands ▸ List.mem_append_right _ (List.mem_cons_of_mem _ follows)
      obtain ⟨laterRule, laterInside⟩ := mem_of_names walked laterMember laterAsked laterNames
      unfold ruleName at laterInside
      rw [joined] at laterInside
      exact absent laterRule (List.mem_flatMap.2 ⟨later, follows, laterInside⟩)

end Kept

def ambiguous : Document where
  version := "3.0.2"
  info := ⟨"Ambiguous", "1.0.0"⟩
  servers := []
  paths := .ofList [
    ("/first", readItem ⟨some "a", [], some [.ofList [("b_c", [])]], none⟩),
    ("/second", readItem ⟨some "a_b", [], some [.ofList [("c", [])]], none⟩)]
  components := ⟨.empty, .ofList [("b_c", ⟨"apiKey", some "header", some "X-First", none⟩),
    ("c", ⟨"apiKey", some "header", some "X-Second", none⟩)]⟩
  security := none
  extension := some (.object [("route", .object [("name", .string "ambiguous")])])

def readMatch (path : String) : Gateway.RouteMatch :=
  ⟨some ⟨some .exact, some path⟩, none, none, some .get⟩

theorem ambiguous_operations : ∃ first second,
    Resolution.operations ambiguous = .ok [first, second] ∧
    (first.name, first.security, first.matcher) =
      ("a", [.ofList [("b_c", [])]], readMatch "/first") ∧
    (second.name, second.security, second.matcher) =
      ("a_b", [.ofList [("c", [])]], readMatch "/second") := by
  obtain ⟨operations, resolved, shown⟩ := exists_ok_of_map
    (show (Resolution.operations ambiguous).toOption.map
      (fun operations => operations.map (fun own => (own.name, own.security, own.matcher))) =
      some [("a", [.ofList [("b_c", [])]], readMatch "/first"),
        ("a_b", [.ofList [("c", [])]], readMatch "/second")] by decide +kernel)
  obtain ⟨first, rest, rfl, firstIs, shown⟩ := List.map_eq_cons_iff.1 shown
  obtain ⟨second, rest, rfl, secondIs, shown⟩ := List.map_eq_cons_iff.1 shown
  cases List.map_eq_nil_iff.1 shown
  exact ⟨first, second, resolved, firstIs, secondIs⟩

theorem ambiguous_names (name header : String) (inside : (name, header) ∈
      [("b_c", "X-First"), ("c", "X-Second")]) :
    Names ambiguous (.ofList [(name, [])]) name ⟨"apiKey", some "header", some header, none⟩ := by
  rcases List.mem_cons.1 inside with same | later
  · cases same
    exact ⟨by decide +kernel, by decide +kernel, Or.inl rfl⟩
  · cases List.mem_singleton.1 later
    exact ⟨by decide +kernel, by decide +kernel, Or.inl rfl⟩

/-- The operations have different names, and yet one of them loses its rule to the other. -/
theorem joined_names_collide : ∃ policy operations, authPolicy ambiguous = .ok policy ∧
    Resolution.operations ambiguous = .ok operations ∧ (operations.map Resolved.name).Nodup ∧
    ∃ operation ∈ operations, ∃ requirement ∈ operation.security, ∃ name scheme,
      Names ambiguous requirement name scheme ∧
      ¬ ∃ rule, policy.spec.authentications.get? (operation.name ++ "_" ++ name) = some rule ∧
        IsRuleOf operation name scheme rule := by
  obtain ⟨policy, made, kept⟩ := exists_ok_of_map
    (show (authPolicy ambiguous).toOption.map (fun policy =>
      (policy.spec.authentications.get? "a_b_c").map Authentication.routeSelectors) =
      some (some (some [.ofMatch (readMatch "/second")])) by decide +kernel)
  obtain ⟨first, second, resolved, firstIs, secondIs⟩ := ambiguous_operations
  simp only [Prod.mk.injEq] at firstIs secondIs
  have distinct : ([first, second].map Resolved.name).Nodup := by
    rw [List.map_cons, List.map_cons, List.map_nil, firstIs.1, secondIs.1]
    decide
  refine ⟨policy, [first, second], made, resolved, distinct, first, List.mem_cons_self, _, ?_, _, _,
    ambiguous_names "b_c" "X-First" List.mem_cons_self, ?_⟩
  · rw [firstIs.2.1]
    exact List.mem_cons_self
  · rintro ⟨rule, found, selects, _⟩
    have joined : first.name ++ "_" ++ "b_c" = "a_b_c" := by
      rw [firstIs.1]
      decide
    rw [joined] at found
    rw [found, Option.map_some, selects, firstIs.2.2] at kept
    exact absurd kept (by decide +kernel)

theorem ambiguous_rule_of_last : ∃ policy first second rule,
    authPolicy ambiguous = .ok policy ∧ Resolution.operations ambiguous = .ok [first, second] ∧
    policy.spec.authentications.get? "a_b_c" = some rule ∧
    IsRuleOf second "c" ⟨"apiKey", some "header", some "X-Second", none⟩ rule ∧
    ¬ IsRuleOf first "b_c" ⟨"apiKey", some "header", some "X-First", none⟩ rule := by
  obtain ⟨policy, made⟩ := exists_ok_of_isSome
    (show (authPolicy ambiguous).toOption.isSome by decide +kernel)
  obtain ⟨first, second, resolved, firstIs, secondIs⟩ := ambiguous_operations
  simp only [Prod.mk.injEq] at firstIs secondIs
  have firstAsked : .ofList [("b_c", [])] ∈ first.security := firstIs.2.1 ▸ List.mem_cons_self
  have secondAsked : .ofList [("c", [])] ∈ second.security := secondIs.2.1 ▸ List.mem_cons_self
  have firstNames := ambiguous_names "b_c" "X-First" List.mem_cons_self
  have secondNames := ambiguous_names "c" "X-Second" (List.mem_cons_of_mem _ List.mem_cons_self)
  have secondStands : [first, second] = [first] ++ second :: [] := rfl
  have firstStands : [first, second] = [] ++ first :: [second] := rfl
  obtain ⟨rule, found, last⟩ :=
    rule_under_joined_name made resolved secondStands secondAsked secondNames
  obtain ⟨same, foundSame, lost⟩ :=
    rule_under_joined_name made resolved firstStands firstAsked firstNames
  have firstKey : first.name ++ "_" ++ "b_c" = "a_b_c" := by
    rw [firstIs.1]
    decide
  have secondKey : second.name ++ "_" ++ "c" = "a_b_c" := by
    rw [secondIs.1]
    decide
  rw [secondKey] at found
  rw [firstKey] at foundSame lost
  cases found.symm.trans foundSame
  refine ⟨policy, first, second, rule, made, resolved, found, last.2 (by simp), fun own => ?_⟩
  exact lost.1 own second List.mem_cons_self ⟨_, secondAsked, "c", _, secondNames, secondKey⟩

end ApiManifest.Generate
