import ApiManifest.Proofs.AuthenticationRules

/-!
The AuthPolicy and the AuthConfig of a document express the same authentication. The two walks through
the security requirements go in step: wherever the walk of identities passes, the walk of rules does,
and it yields a rule exactly where the other yields an identity, under the same name. The walk of
identities passes in fewer places, for it refuses what the walk of rules passes over.
-/

namespace ApiManifest.Generate

open AuthConfig (Identity IdentityMethod)
open OpenApi (Document Requirement)
open Policy (Authentication AuthenticationMethod)
open Resolution (Resolved)
open Security (Scheme)

/-- Credentials and methods of a rule and of an identity that accept the same: a key of the same name
in the same place, or a token of the same issuer from wherever tokens are read by default. -/
inductive Alike : Option Policy.Credentials → AuthenticationMethod →
    Option AuthConfig.Credentials → IdentityMethod → Prop
  | header (name : String) (left : Policy.ApiKeyAuthentication) (right : AuthConfig.ApiKey) :
      Alike (some (.customHeader ⟨name⟩)) (.apiKey left) (some ⟨.customHeader, name⟩) (.apiKey right)
  | query (name : String) (left : Policy.ApiKeyAuthentication) (right : AuthConfig.ApiKey) :
      Alike (some (.queryString ⟨name⟩)) (.apiKey left) (some ⟨.query, name⟩) (.apiKey right)
  | cookie (name : String) (left : Policy.ApiKeyAuthentication) (right : AuthConfig.ApiKey) :
      Alike (some (.cookie ⟨name⟩)) (.apiKey left) (some ⟨.cookie, name⟩) (.apiKey right)
  | issuer (url : String) : Alike none (.jwt ⟨url⟩) none (.oidc ⟨url⟩)

def Agrees (rule : Authentication) (identity : Identity) : Prop :=
  Alike rule.credentials rule.method identity.credentials identity.method

def EntryAgrees (entry : String × Authentication) (identity : Identity) : Prop :=
  entry.1 = identity.name ∧ Agrees entry.2 identity

def OutcomeAgrees (left : AuthOutcome (String × Authentication)) (right : AuthOutcome Identity) :
    Prop :=
  Option.Rel EntryAgrees left.rule? right.rule?

/-- Wherever the step of identities passes, so does the step of rules, and to the same end. -/
def StepAgrees (left : Except GenerationError (AuthOutcome (String × Authentication)))
    (right : Except GenerationError (AuthOutcome Identity)) : Prop :=
  ∀ outcome, right = .ok outcome → ∃ other, left = .ok other ∧ OutcomeAgrees other outcome

theorem settle_agrees (app : String) (operation : Resolved) (demanded : Demand) :
    StepAgrees (settlePolicy operation demanded) (settleIdentity app operation demanded) := by
  intro outcome passes
  cases demanded with
  | anonymous =>
    cases passes
    exact ⟨_, rfl, Option.Rel.none⟩
  | undeclared scheme => cases passes
  | declared scheme meaning =>
    cases meaning with
    | unsupported kind => cases passes
    | openIdConnect url =>
      cases passes
      exact ⟨_, rfl, Option.Rel.some ⟨rfl, .issuer url⟩⟩
    | apiKey location name =>
      cases passes
      refine ⟨_, rfl, Option.Rel.some ⟨rfl, ?_⟩⟩
      cases location with
      | header => exact .header name _ _
      | query => exact .query name _ _
      | cookie => exact .cookie name _ _

section Steps

variable (document : Document) (app : String)

theorem step_agrees (operation : Resolved) (requirement : Requirement) :
    StepAgrees (demand document operation requirement >>= settlePolicy operation)
      (demand document operation requirement >>= settleIdentity app operation) := by
  cases demand document operation requirement with
  | error error =>
    intro outcome passes
    cases passes
  | ok demanded => exact settle_agrees app operation demanded

theorem walkRequirements_agree (operation : Resolved) :
    List.Forall₂ StepAgrees (walkRequirements document settlePolicy operation)
      (walkRequirements document (settleIdentity app) operation) := by
  unfold walkRequirements
  split
  · refine List.Forall₂.cons (fun outcome passes => ?_) List.Forall₂.nil
    cases passes
    exact ⟨_, rfl, Option.Rel.none⟩
  · rw [List.forall₂_map_left_iff, List.forall₂_map_right_iff, List.forall₂_same]
    exact fun requirement _ => step_agrees document app operation requirement

theorem walks_agree (operations : List Resolved) :
    List.Forall₂ StepAgrees (walkPolicy document operations)
      (walkIdentities document app operations) := by
  unfold walkPolicy walkIdentities walkSecurity
  induction operations with
  | nil => exact List.Forall₂.nil
  | cons operation rest ih =>
    rw [List.flatMap_cons, List.flatMap_cons]
    exact List.rel_append (walkRequirements_agree document app operation) ih

end Steps

theorem results_agree {lefts : Walk GenerationError (AuthOutcome (String × Authentication))}
    {rights : Walk GenerationError (AuthOutcome Identity)}
    (agree : List.Forall₂ StepAgrees lefts rights) {outcomes : List (AuthOutcome Identity)}
    (passes : Walk.results rights = .ok outcomes) :
    ∃ others, Walk.results lefts = .ok others ∧ List.Forall₂ OutcomeAgrees others outcomes := by
  rw [Walk.results_eq_ok_iff] at passes
  subst passes
  rw [List.forall₂_map_right_iff] at agree
  induction agree with
  | nil => exact ⟨[], rfl, List.Forall₂.nil⟩
  | @cons left outcome lefts outcomes here _ ih =>
    obtain ⟨other, rfl, alike⟩ := here outcome rfl
    obtain ⟨others, done, rest⟩ := ih
    refine ⟨other :: others, ?_, List.Forall₂.cons alike rest⟩
    rw [Walk.results, done]
    rfl

theorem rules_agree {lefts : List (AuthOutcome (String × Authentication))}
    {rights : List (AuthOutcome Identity)} (agree : List.Forall₂ OutcomeAgrees lefts rights) :
    List.Forall₂ EntryAgrees (lefts.filterMap AuthOutcome.rule?)
      (rights.filterMap AuthOutcome.rule?) := by
  induction agree with
  | nil => exact List.Forall₂.nil
  | @cons left right lefts rights here _ ih =>
    rw [List.filterMap_cons, List.filterMap_cons]
    unfold OutcomeAgrees at here
    generalize left.rule? = entry, right.rule? = identity at here
    cases here with
    | none => exact ih
    | some alike => exact List.Forall₂.cons alike ih

theorem lookup_agrees {entries : List (String × Authentication)} {identities : List Identity}
    (agree : List.Forall₂ EntryAgrees entries identities) (key : String) :
    Option.Rel Agrees (entries.lookup key)
      (identities.find? (fun identity => identity.name = key)) := by
  induction agree with
  | nil => exact Option.Rel.none
  | @cons entry identity entries identities here _ ih =>
    obtain ⟨name, rule⟩ := entry
    obtain ⟨rfl, alike⟩ := here
    rw [Dict.lookup_entry, List.find?_cons]
    by_cases same : key = identity.name
    · subst same
      simpa using Option.Rel.some alike
    · have different : identity.name ≠ key := fun equal => same equal.symm
      simpa [same, different] using ih

def lastIdentity? (spec : AuthConfig.AuthConfigSpec) (name : String) : Option Identity :=
  spec.identity.reverse.find? (fun identity => identity.name = name)

theorem lastIdentity_isSome_iff (spec : AuthConfig.AuthConfigSpec) (name : String) :
    (lastIdentity? spec name).isSome ↔ name ∈ spec.identity.map Identity.name := by
  unfold lastIdentity?
  rw [List.find?_isSome]
  simp

theorem authentications_agree {document : Document} {publicHost : String}
    {config : AuthConfig.Config} {policy : Policy.AuthPolicy}
    (made : authConfig document publicHost = .ok config)
    (written : authPolicy document = .ok policy) (key : String) :
    Option.Rel Agrees (policy.spec.authentications.get? key) (lastIdentity? config.spec key) := by
  obtain ⟨app, operations, outcomes, resolved, walked, identities⟩ := authConfig_ok made
  obtain ⟨_, others, rules, _, again, passed, _, _, _, kept⟩ := authPolicy_ok written
  cases resolved.symm.trans again
  obtain ⟨lefts, done, agree⟩ := results_agree (walks_agree document app operations) walked
  cases passed.symm.trans done
  unfold lastIdentity?
  rw [authentications_eq kept, identities, SortedDict.get?_ofList]
  exact lookup_agrees (List.forall₂_reverse_iff.2 (rules_agree agree)) key

/-- An AuthPolicy can be made wherever an AuthConfig can, if only the route is named. -/
theorem exists_authPolicy {document : Document} {publicHost : String} {config : AuthConfig.Config}
    {route : RouteIdentity} (made : authConfig document publicHost = .ok config)
    (named : RouteIdentity.ofDocument document = .ok route) :
    ∃ policy, authPolicy document = .ok policy := by
  obtain ⟨app, operations, outcomes, resolved, walked, _⟩ := authConfig_ok made
  obtain ⟨lefts, done, _⟩ := results_agree (walks_agree document app operations) walked
  unfold authPolicy
  rw [named, resolved]
  simp only [bind, Except.bind, done]
  exact ⟨_, rfl⟩

/-- Where an AuthConfig can be made and the route is named, so can an AuthPolicy, and its rules stand
under the names of the identities, each agreeing with the last identity of its name. -/
theorem authPolicy_agrees_authConfig {document : Document} {publicHost : String}
    {config : AuthConfig.Config} {route : RouteIdentity}
    (made : authConfig document publicHost = .ok config)
    (named : RouteIdentity.ofDocument document = .ok route) :
    ∃ policy, authPolicy document = .ok policy ∧
      (∀ key, (policy.spec.authentications.get? key).isSome ↔
        key ∈ config.spec.identity.map Identity.name) ∧
      ∀ key rule, policy.spec.authentications.get? key = some rule →
        ∃ identity, lastIdentity? config.spec key = some identity ∧ Agrees rule identity := by
  obtain ⟨policy, written⟩ := exists_authPolicy made named
  refine ⟨policy, written, fun key => ?_, fun key rule found => ?_⟩
  · have agree := authentications_agree made written key
    rw [← lastIdentity_isSome_iff]
    generalize policy.spec.authentications.get? key = rule, lastIdentity? config.spec key = identity
      at agree
    cases agree <;> simp
  · have agree := authentications_agree made written key
    rw [found] at agree
    generalize lastIdentity? config.spec key = identity at agree
    cases agree with
    | some alike => exact ⟨_, rfl, alike⟩

theorem petstore_authentication_agrees : ∃ config policy rule identity,
    authConfig petstore "api.example.com" = .ok config ∧ authPolicy petstore = .ok policy ∧
    policy.spec.authentications.get? "showPetById_apiKey" = some rule ∧
    lastIdentity? config.spec "showPetById_apiKey" = some identity ∧ Agrees rule identity := by
  obtain ⟨config, made, names⟩ := exists_ok_of_map
    (show (authConfig petstore "api.example.com").toOption.map
      (fun config => config.spec.identity.map Identity.name) = some ["showPetById_apiKey"] by
        decide +kernel)
  obtain ⟨route, named⟩ := exists_ok_of_isSome
    (show (RouteIdentity.ofDocument petstore).toOption.isSome by decide +kernel)
  obtain ⟨policy, written, keys, agree⟩ := authPolicy_agrees_authConfig made named
  have stands : (policy.spec.authentications.get? "showPetById_apiKey").isSome := by
    rw [keys, names]
    exact List.mem_singleton_self _
  obtain ⟨rule, found⟩ := Option.isSome_iff_exists.1 stands
  obtain ⟨identity, last, alike⟩ := agree _ _ found
  exact ⟨config, policy, rule, identity, made, written, found, last, alike⟩

end ApiManifest.Generate
