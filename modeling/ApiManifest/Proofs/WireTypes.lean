import ApiManifest.AuthConfig
import ApiManifest.Descriptor
import ApiManifest.Mesh.AuthorizationPolicy
import ApiManifest.Mesh.VirtualService
import ApiManifest.Policy.Auth
import ApiManifest.Proofs.WrittenSettings

/-!
Whatever is written of a manifest as JSON is read back, from the manifests themselves down to the
names that stand for the values of an enumeration. Each codec is lawful because those it is put
together from are.
-/

namespace ApiManifest

open Codec WireField

namespace Gateway

theorem ParentRef.lawful : ParentRef.codec.Lawful :=
  record_lawful
    (.cons (optional_lawful text_lawful) <|
      .cons (optional_lawful text_lawful) <|
      .cons (required_lawful text_lawful) <|
      .cons (optional_lawful text_lawful) <|
      .cons (optional_lawful int32_lawful) <|
      .cons (optional_lawful text_lawful) .nil)
    (by decide) (fun _ => rfl)

theorem PathMatch.lawful : PathMatch.codec.Lawful :=
  record_lawful
    (.cons (optional_lawful PathMatchType.lawful) <|
      .cons (optional_lawful text_lawful) .nil)
    (by decide) (fun _ => rfl)

theorem ValueMatchType.lawful : ValueMatchType.codec.Lawful :=
  choice_lawful fun type => by cases type <;> rfl

theorem ValueMatch.lawful (recordName : String) : (ValueMatch.codec recordName).Lawful :=
  record_lawful
    (.cons (optional_lawful ValueMatchType.lawful) <|
      .cons (required_lawful text_lawful) <|
      .cons textAlways_lawful .nil)
    (by decide) (fun _ => rfl)

theorem Method.lawful : Method.codec.Lawful :=
  choice_lawful fun method => by cases method <;> rfl

theorem RouteMatch.lawful : RouteMatch.codec.Lawful :=
  record_lawful
    (.cons (optional_lawful PathMatch.lawful) <|
      .cons (optional_lawful (list_lawful (ValueMatch.lawful _))) <|
      .cons (optional_lawful (list_lawful (ValueMatch.lawful _))) <|
      .cons (optional_lawful Method.lawful) .nil)
    (by decide) (fun _ => rfl)

theorem RouteRule.lawful : RouteRule.codec.Lawful :=
  record_lawful
    (.cons (optional_lawful (list_lawful RouteMatch.lawful)) <|
      .cons (optional_lawful (list_lawful BackendRef.lawful)) .nil)
    (by decide) (fun _ => rfl)

theorem RouteSpec.lawful : RouteSpec.codec.Lawful :=
  record_lawful
    (.cons (optional_lawful (list_lawful ParentRef.lawful)) <|
      .cons (optional_lawful (list_lawful text_lawful)) <|
      .cons (optional_lawful (list_lawful RouteRule.lawful)) .nil)
    (by decide) (fun _ => rfl)

end Gateway

namespace Policy

open Gateway

theorem TargetRef.lawful : TargetRef.codec.Lawful :=
  record_lawful
    (.cons (required_lawful text_lawful) <|
      .cons (required_lawful text_lawful) <|
      .cons (required_lawful text_lawful) <|
      .cons (optional_lawful text_lawful) .nil)
    (by decide) (fun _ => rfl)

theorem RouteSelector.lawful : RouteSelector.codec.Lawful :=
  record_lawful
    (.cons (optional_lawful (list_lawful text_lawful)) <|
      .cons (optional_lawful (list_lawful RouteMatch.lawful)) .nil)
    (by decide) (fun _ => rfl)

theorem LabelSelector.lawful : LabelSelector.codec.Lawful :=
  record_lawful
    (.cons (optional_lawful (sorted_lawful text_lawful)) .nil)
    (by decide) (fun _ => rfl)

theorem Named.lawful : Named.codec.Lawful :=
  record_lawful
    (.cons (required_lawful text_lawful) .nil)
    (by decide) (fun _ => rfl)

theorem Credentials.lawful : Credentials.codec.Lawful :=
  variants_lawful fun credentials => by
    cases credentials <;> exact ⟨_, rfl, Reader.map_yields (Named.lawful _) _⟩

theorem ApiKeyAuthentication.lawful : ApiKeyAuthentication.codec.Lawful :=
  record_lawful
    (.cons (required_lawful LabelSelector.lawful) <|
      .cons (optional_lawful flag_lawful) .nil)
    (by decide) (fun _ => rfl)

theorem JwtAuthentication.lawful : JwtAuthentication.codec.Lawful :=
  record_lawful
    (.cons (required_lawful text_lawful) .nil)
    (by decide) (fun _ => rfl)

theorem AuthenticationMethod.variants_lawful : AuthenticationMethod.variants.Lawful := by
  intro method
  cases method with
  | apiKey key => exact ⟨_, rfl, Reader.map_yields (ApiKeyAuthentication.lawful key) _⟩
  | jwt token => exact ⟨_, rfl, Reader.map_yields (JwtAuthentication.lawful token) _⟩

theorem Authentication.lawful : Authentication.codec.Lawful := by
  refine recordWith_lawful
    (.cons (optional_lawful (list_lawful RouteSelector.lawful)) <|
      .cons (optional_lawful Credentials.lawful) .nil)
    (by decide) AuthenticationMethod.variants_lawful (fun method => ?_) (fun _ => rfl)
  change _ ∉ ["routeSelectors", "credentials"]
  cases method with
  | apiKey key => exact show "apiKey" ∉ _ by decide
  | jwt token => exact show "jwt" ∉ _ by decide

theorem AuthRules.lawful : AuthRules.codec.Lawful :=
  record_lawful
    (.cons (optional_lawful (sorted_lawful Authentication.lawful)) .nil)
    (by decide) (fun _ => rfl)

theorem AuthPolicySpec.lawful : AuthPolicySpec.codec.Lawful :=
  record_lawful
    (.cons (required_lawful TargetRef.lawful) <|
      .cons (optional_lawful (list_lawful RouteSelector.lawful)) <|
      .cons (optional_lawful AuthRules.lawful) .nil)
    (by decide) (fun _ => rfl)

theorem Limit.lawful : Limit.codec.Lawful :=
  record_lawful
    (.cons (optional_lawful (list_lawful RouteSelector.lawful)) <|
      .cons (optional_lawful (list_lawful Condition.lawful)) <|
      .cons (optional_lawful (list_lawful text_lawful)) <|
      .cons (optional_lawful (list_lawful Rate.lawful)) .nil)
    (by decide) (fun _ => rfl)

theorem RateLimitPolicySpec.lawful : RateLimitPolicySpec.codec.Lawful :=
  record_lawful
    (.cons (required_lawful TargetRef.lawful) <|
      .cons (optional_lawful (sorted_lawful Limit.lawful)) .nil)
    (by decide) (fun _ => rfl)

end Policy

namespace Mesh

theorem StringMatch.lawful : StringMatch.codec.Lawful :=
  variants_lawful fun condition => by
    cases condition <;> exact ⟨_, rfl, Reader.map_yields (text_lawful _) _⟩

theorem RequestMatch.lawful : RequestMatch.codec.Lawful :=
  record_lawful
    (.cons (optional_lawful StringMatch.lawful) <|
      .cons (optional_lawful StringMatch.lawful) .nil)
    (by decide) (fun _ => rfl)

theorem Port.lawful : Port.codec.Lawful :=
  record_lawful
    (.cons (required_lawful nat32_lawful) .nil)
    (by decide) (fun _ => rfl)

theorem Destination.lawful : Destination.codec.Lawful :=
  record_lawful
    (.cons (required_lawful text_lawful) <|
      .cons (optional_lawful text_lawful) <|
      .cons (optional_lawful Port.lawful) .nil)
    (by decide) (fun _ => rfl)

theorem WeightedDestination.lawful : WeightedDestination.codec.Lawful :=
  record_lawful
    (.cons (required_lawful Destination.lawful) <|
      .cons (optional_lawful int32_lawful) .nil)
    (by decide) (fun _ => rfl)

theorem ServiceRoute.lawful : ServiceRoute.codec.Lawful :=
  record_lawful
    (.cons textOrEmpty_lawful <|
      .cons (items_lawful RequestMatch.lawful) <|
      .cons (items_lawful WeightedDestination.lawful) .nil)
    (by decide) (fun _ => rfl)

theorem VirtualServiceSpec.lawful : VirtualServiceSpec.codec.Lawful :=
  record_lawful
    (.cons (items_lawful text_lawful) <|
      .cons (items_lawful text_lawful) <|
      .cons (items_lawful ServiceRoute.lawful) .nil)
    (by decide) (fun _ => rfl)

theorem WorkloadSelector.lawful : WorkloadSelector.codec.Lawful :=
  record_lawful
    (.cons (required_lawful (sorted_lawful text_lawful)) .nil)
    (by decide) (fun _ => rfl)

theorem RequestSet.lawful : RequestSet.codec.Lawful :=
  record_lawful
    (.cons (items_lawful text_lawful) <|
      .cons (items_lawful text_lawful) <|
      .cons (items_lawful text_lawful) .nil)
    (by decide) (fun _ => rfl)

theorem RuleTarget.lawful : RuleTarget.codec.Lawful :=
  record_lawful
    (.cons (required_lawful RequestSet.lawful) .nil)
    (by decide) (fun _ => rfl)

theorem AuthorizationRule.lawful : AuthorizationRule.codec.Lawful :=
  record_lawful
    (.cons (items_lawful RuleTarget.lawful) .nil)
    (by decide) (fun _ => rfl)

theorem Action.lawful : Action.codec.Lawful :=
  choice_lawful fun action => by cases action <;> rfl

theorem Provider.lawful : Provider.codec.Lawful :=
  record_lawful
    (.cons (required_lawful text_lawful) .nil)
    (by decide) (fun _ => rfl)

theorem AuthorizationPolicySpec.lawful : AuthorizationPolicySpec.codec.Lawful :=
  record_lawful
    (.cons (optional_lawful WorkloadSelector.lawful) <|
      .cons (items_lawful AuthorizationRule.lawful) <|
      .cons (required_lawful Action.lawful) <|
      .cons (optional_lawful Provider.lawful) .nil)
    (by decide) (fun _ => rfl)

end Mesh

namespace AuthConfig

theorem PatternOperator.lawful : PatternOperator.codec.Lawful :=
  choice_lawful fun operator => by cases operator <;> rfl

theorem Pattern.lawful : Pattern.codec.Lawful :=
  record_lawful
    (.cons (required_lawful text_lawful) <|
      .cons (required_lawful PatternOperator.lawful) <|
      .cons (required_lawful text_lawful) .nil)
    (by decide) (fun _ => rfl)

theorem CredentialsLocation.lawful : CredentialsLocation.codec.Lawful :=
  choice_lawful fun location => by cases location <;> rfl

theorem Credentials.lawful : Credentials.codec.Lawful :=
  record_lawful
    (.cons (required_lawful CredentialsLocation.lawful) <|
      .cons (required_lawful text_lawful) .nil)
    (by decide) (fun _ => rfl)

theorem ApiKey.lawful : ApiKey.codec.Lawful :=
  record_lawful
    (.cons (required_lawful (sorted_lawful text_lawful)) .nil)
    (by decide) (fun _ => rfl)

theorem Oidc.lawful : Oidc.codec.Lawful :=
  record_lawful
    (.cons (required_lawful text_lawful) .nil)
    (by decide) (fun _ => rfl)

theorem IdentityMethod.variants_lawful : IdentityMethod.variants.Lawful := by
  intro method
  cases method with
  | apiKey key => exact ⟨_, rfl, Reader.map_yields (ApiKey.lawful key) _⟩
  | oidc issuer => exact ⟨_, rfl, Reader.map_yields (Oidc.lawful issuer) _⟩

theorem Identity.lawful : Identity.codec.Lawful := by
  refine recordWith_lawful
    (.cons (required_lawful text_lawful) <|
      .cons (items_lawful Pattern.lawful) <|
      .cons (optional_lawful Credentials.lawful) .nil)
    (by decide) IdentityMethod.variants_lawful (fun method => ?_) (fun _ => rfl)
  change _ ∉ ["name", "when", "credentials"]
  cases method with
  | apiKey key => exact show "apiKey" ∉ _ by decide
  | oidc issuer => exact show "oidc" ∉ _ by decide

theorem AuthConfigSpec.lawful : AuthConfigSpec.codec.Lawful :=
  record_lawful
    (.cons (required_lawful (list_lawful text_lawful)) <|
      .cons (items_lawful Identity.lawful) .nil)
    (by decide) (fun _ => rfl)

end AuthConfig

namespace Descriptor

theorem Operation.lawful : Operation.codec.Lawful :=
  record_lawful
    (.cons (required_lawful text_lawful) <|
      .cons (required_lawful text_lawful) <|
      .cons (required_lawful text_lawful) .nil)
    (by decide) (fun _ => rfl)

theorem ApiKeyAuth.lawful : ApiKeyAuth.codec.Lawful :=
  record_lawful
    (.cons (required_lawful text_lawful) <|
      .cons (required_lawful text_lawful) .nil)
    (by decide) (fun _ => rfl)

theorem OpenIdAuth.lawful : OpenIdAuth.codec.Lawful :=
  record_lawful
    (.cons (required_lawful text_lawful) .nil)
    (by decide) (fun _ => rfl)

theorem SecurityScheme.lawful : SecurityScheme.codec.Lawful :=
  record_lawful
    (.cons (required_lawful text_lawful) <|
      .cons (optional_lawful ApiKeyAuth.lawful) <|
      .cons (optional_lawful OpenIdAuth.lawful) .nil)
    (by decide) (fun _ => rfl)

theorem ApiSpec.lawful : ApiSpec.codec.Lawful :=
  record_lawful
    (.cons (items_lawful text_lawful) <|
      .cons (items_lawful Operation.lawful) <|
      .cons (items_lawful SecurityScheme.lawful) .nil)
    (by decide) (fun _ => rfl)

end Descriptor

theorem Metadata.lawful : Metadata.codec.Lawful := by
  intro metadata form
  have lawful : Metadata.fields.Lawful :=
    .cons (optional_lawful (sorted_lawful text_lawful)) <|
      .cons (optional_lawful text_lawful) <|
      .cons (optional_lawful text_lawful) .nil
  have read := Reader.namedFields_yields lawful (by decide) "ObjectMeta" true
    (Fields.among_self Metadata.fields (metadata.labels, metadata.name, metadata.nameSpace, ())) form
  unfold Metadata.codec
  dsimp only
  rw [read, pure_bind]

/-- A manifest is lawful if its specification is; the kind that it says is passed over. -/
theorem Manifest.lawful {σ : Type} [Specification σ]
    (lawful : (Specification.codec (σ := σ)).Lawful) : (Manifest.codec (σ := σ)).Lawful := by
  intro manifest form
  have parts : (Manifest.fields (σ := σ)).Lawful :=
    .cons (required_lawful Metadata.lawful) <| .cons (required_lawful lawful) .nil
  have among : (Manifest.fields (σ := σ)).Among (manifest.metadata, manifest.spec, ())
      (("apiVersion", .string (Specification.kind σ).apiVersion) ::
        ("kind", .string (Specification.kind σ).kind) ::
        Manifest.fields.write (manifest.metadata, manifest.spec, ())) := by
    refine ⟨fun entry member => .tail _ (.tail _ member), fun entry member known => ?_⟩
    change entry.1 ∈ ["metadata", "spec"] at known
    rcases List.mem_cons.1 member with rfl | later
    · exact absurd known (show "apiVersion" ∉ _ by decide)
    · rcases List.mem_cons.1 later with rfl | inside
      · exact absurd known (show "kind" ∉ _ by decide)
      · exact inside
  have read := Reader.fields_yields parts (show ["metadata", "spec"].Nodup by decide)
    (Specification.kind σ).recordName among form
  unfold Manifest.codec
  dsimp only
  rw [read, pure_bind]

/-! ### The types that are written -/

/-- A type whose values are written to JSON: a manifest, or something that stands in one. -/
inductive WireType where
  | httpRoute
  | authPolicy
  | rateLimitPolicy
  | virtualService
  | authorizationPolicy
  | authConfig
  | api
  | metadata
  | routeSpec
  | parentRef
  | routeRule
  | routeMatch
  | pathMatch
  | pathMatchType
  | headerMatch
  | queryParamMatch
  | valueMatchType
  | method
  | backendRef
  | targetRef
  | routeSelector
  | labelSelector
  | authPolicySpec
  | authRules
  | authentication
  | credentials
  | named
  | authenticationMethod
  | apiKeyAuthentication
  | jwtAuthentication
  | rateLimitPolicySpec
  | limit
  | condition
  | conditionOperator
  | rate
  | timeUnit
  | virtualServiceSpec
  | serviceRoute
  | requestMatch
  | stringMatch
  | weightedDestination
  | destination
  | port
  | authorizationPolicySpec
  | workloadSelector
  | authorizationRule
  | ruleTarget
  | requestSet
  | action
  | provider
  | authConfigSpec
  | identity
  | pattern
  | patternOperator
  | configCredentials
  | credentialsLocation
  | identityMethod
  | apiKey
  | oidc
  | apiSpec
  | operation
  | securityScheme
  | apiKeyAuth
  | openIdAuth

namespace WireType

open Gateway Policy Mesh

def Value : WireType → Type
  | httpRoute => HttpRoute
  | authPolicy => AuthPolicy
  | rateLimitPolicy => RateLimitPolicy
  | virtualService => VirtualService
  | authorizationPolicy => AuthorizationPolicy
  | authConfig => AuthConfig.Config
  | api => Descriptor.Api
  | metadata => Metadata
  | routeSpec => RouteSpec
  | parentRef => ParentRef
  | routeRule => RouteRule
  | routeMatch => RouteMatch
  | pathMatch => PathMatch
  | pathMatchType => PathMatchType
  | headerMatch => ValueMatch
  | queryParamMatch => ValueMatch
  | valueMatchType => ValueMatchType
  | method => Method
  | backendRef => BackendRef
  | targetRef => TargetRef
  | routeSelector => RouteSelector
  | labelSelector => LabelSelector
  | authPolicySpec => AuthPolicySpec
  | authRules => AuthRules
  | authentication => Authentication
  | credentials => Policy.Credentials
  | named => Named
  | authenticationMethod => AuthenticationMethod
  | apiKeyAuthentication => ApiKeyAuthentication
  | jwtAuthentication => JwtAuthentication
  | rateLimitPolicySpec => RateLimitPolicySpec
  | limit => Limit
  | condition => Condition
  | conditionOperator => ConditionOperator
  | rate => Rate
  | timeUnit => TimeUnit
  | virtualServiceSpec => VirtualServiceSpec
  | serviceRoute => ServiceRoute
  | requestMatch => Mesh.RequestMatch
  | stringMatch => StringMatch
  | weightedDestination => WeightedDestination
  | destination => Destination
  | port => Port
  | authorizationPolicySpec => AuthorizationPolicySpec
  | workloadSelector => WorkloadSelector
  | authorizationRule => AuthorizationRule
  | ruleTarget => RuleTarget
  | requestSet => RequestSet
  | action => Action
  | provider => Provider
  | authConfigSpec => AuthConfig.AuthConfigSpec
  | identity => AuthConfig.Identity
  | pattern => AuthConfig.Pattern
  | patternOperator => AuthConfig.PatternOperator
  | configCredentials => AuthConfig.Credentials
  | credentialsLocation => AuthConfig.CredentialsLocation
  | identityMethod => AuthConfig.IdentityMethod
  | apiKey => AuthConfig.ApiKey
  | oidc => AuthConfig.Oidc
  | apiSpec => Descriptor.ApiSpec
  | operation => Descriptor.Operation
  | securityScheme => Descriptor.SecurityScheme
  | apiKeyAuth => Descriptor.ApiKeyAuth
  | openIdAuth => Descriptor.OpenIdAuth

def codec : (type : WireType) → Codec type.Value
  | httpRoute => (Manifest.codec : Codec HttpRoute)
  | authPolicy => (Manifest.codec : Codec AuthPolicy)
  | rateLimitPolicy => (Manifest.codec : Codec RateLimitPolicy)
  | virtualService => (Manifest.codec : Codec VirtualService)
  | authorizationPolicy => (Manifest.codec : Codec AuthorizationPolicy)
  | authConfig => (Manifest.codec : Codec AuthConfig.Config)
  | api => (Manifest.codec : Codec Descriptor.Api)
  | metadata => Metadata.codec
  | routeSpec => RouteSpec.codec
  | parentRef => ParentRef.codec
  | routeRule => RouteRule.codec
  | routeMatch => RouteMatch.codec
  | pathMatch => PathMatch.codec
  | pathMatchType => PathMatchType.codec
  | headerMatch => ValueMatch.codec "HttpHeaderMatch"
  | queryParamMatch => ValueMatch.codec "HttpQueryParamMatch"
  | valueMatchType => ValueMatchType.codec
  | method => Method.codec
  | backendRef => BackendRef.codec
  | targetRef => TargetRef.codec
  | routeSelector => RouteSelector.codec
  | labelSelector => LabelSelector.codec
  | authPolicySpec => AuthPolicySpec.codec
  | authRules => AuthRules.codec
  | authentication => Authentication.codec
  | credentials => Policy.Credentials.codec
  | named => Named.codec
  | authenticationMethod => Codec.variants AuthenticationMethod.variants
  | apiKeyAuthentication => ApiKeyAuthentication.codec
  | jwtAuthentication => JwtAuthentication.codec
  | rateLimitPolicySpec => RateLimitPolicySpec.codec
  | limit => Limit.codec
  | condition => Condition.codec
  | conditionOperator => ConditionOperator.codec
  | rate => Rate.codec
  | timeUnit => TimeUnit.codec
  | virtualServiceSpec => VirtualServiceSpec.codec
  | serviceRoute => ServiceRoute.codec
  | requestMatch => Mesh.RequestMatch.codec
  | stringMatch => StringMatch.codec
  | weightedDestination => WeightedDestination.codec
  | destination => Destination.codec
  | port => Port.codec
  | authorizationPolicySpec => AuthorizationPolicySpec.codec
  | workloadSelector => WorkloadSelector.codec
  | authorizationRule => AuthorizationRule.codec
  | ruleTarget => RuleTarget.codec
  | requestSet => RequestSet.codec
  | action => Action.codec
  | provider => Provider.codec
  | authConfigSpec => AuthConfig.AuthConfigSpec.codec
  | identity => AuthConfig.Identity.codec
  | pattern => AuthConfig.Pattern.codec
  | patternOperator => AuthConfig.PatternOperator.codec
  | configCredentials => AuthConfig.Credentials.codec
  | credentialsLocation => AuthConfig.CredentialsLocation.codec
  | identityMethod => Codec.variants AuthConfig.IdentityMethod.variants
  | apiKey => AuthConfig.ApiKey.codec
  | oidc => AuthConfig.Oidc.codec
  | apiSpec => Descriptor.ApiSpec.codec
  | operation => Descriptor.Operation.codec
  | securityScheme => Descriptor.SecurityScheme.codec
  | apiKeyAuth => Descriptor.ApiKeyAuth.codec
  | openIdAuth => Descriptor.OpenIdAuth.codec

theorem lawful (type : WireType) : type.codec.Lawful := by
  cases type with
  | httpRoute => exact Manifest.lawful RouteSpec.lawful
  | authPolicy => exact Manifest.lawful AuthPolicySpec.lawful
  | rateLimitPolicy => exact Manifest.lawful RateLimitPolicySpec.lawful
  | virtualService => exact Manifest.lawful VirtualServiceSpec.lawful
  | authorizationPolicy => exact Manifest.lawful AuthorizationPolicySpec.lawful
  | authConfig => exact Manifest.lawful AuthConfig.AuthConfigSpec.lawful
  | api => exact Manifest.lawful Descriptor.ApiSpec.lawful
  | metadata => exact Metadata.lawful
  | routeSpec => exact RouteSpec.lawful
  | parentRef => exact ParentRef.lawful
  | routeRule => exact RouteRule.lawful
  | routeMatch => exact RouteMatch.lawful
  | pathMatch => exact PathMatch.lawful
  | pathMatchType => exact PathMatchType.lawful
  | headerMatch => exact ValueMatch.lawful _
  | queryParamMatch => exact ValueMatch.lawful _
  | valueMatchType => exact ValueMatchType.lawful
  | method => exact Method.lawful
  | backendRef => exact BackendRef.lawful
  | targetRef => exact TargetRef.lawful
  | routeSelector => exact RouteSelector.lawful
  | labelSelector => exact LabelSelector.lawful
  | authPolicySpec => exact AuthPolicySpec.lawful
  | authRules => exact AuthRules.lawful
  | authentication => exact Authentication.lawful
  | credentials => exact Policy.Credentials.lawful
  | named => exact Named.lawful
  | authenticationMethod => exact variants_lawful AuthenticationMethod.variants_lawful
  | apiKeyAuthentication => exact ApiKeyAuthentication.lawful
  | jwtAuthentication => exact JwtAuthentication.lawful
  | rateLimitPolicySpec => exact RateLimitPolicySpec.lawful
  | limit => exact Limit.lawful
  | condition => exact Condition.lawful
  | conditionOperator => exact ConditionOperator.lawful
  | rate => exact Rate.lawful
  | timeUnit => exact TimeUnit.lawful
  | virtualServiceSpec => exact VirtualServiceSpec.lawful
  | serviceRoute => exact ServiceRoute.lawful
  | requestMatch => exact Mesh.RequestMatch.lawful
  | stringMatch => exact StringMatch.lawful
  | weightedDestination => exact WeightedDestination.lawful
  | destination => exact Destination.lawful
  | port => exact Port.lawful
  | authorizationPolicySpec => exact AuthorizationPolicySpec.lawful
  | workloadSelector => exact WorkloadSelector.lawful
  | authorizationRule => exact AuthorizationRule.lawful
  | ruleTarget => exact RuleTarget.lawful
  | requestSet => exact RequestSet.lawful
  | action => exact Action.lawful
  | provider => exact Provider.lawful
  | authConfigSpec => exact AuthConfig.AuthConfigSpec.lawful
  | identity => exact AuthConfig.Identity.lawful
  | pattern => exact AuthConfig.Pattern.lawful
  | patternOperator => exact AuthConfig.PatternOperator.lawful
  | configCredentials => exact AuthConfig.Credentials.lawful
  | credentialsLocation => exact AuthConfig.CredentialsLocation.lawful
  | identityMethod => exact variants_lawful AuthConfig.IdentityMethod.variants_lawful
  | apiKey => exact AuthConfig.ApiKey.lawful
  | oidc => exact AuthConfig.Oidc.lawful
  | apiSpec => exact Descriptor.ApiSpec.lawful
  | operation => exact Descriptor.Operation.lawful
  | securityScheme => exact Descriptor.SecurityScheme.lawful
  | apiKeyAuth => exact Descriptor.ApiKeyAuth.lawful
  | openIdAuth => exact Descriptor.OpenIdAuth.lawful

/-- Of any type, the JSON of a value is read as just that value, so different values have
different JSON. -/
theorem json_read_back (type : WireType) :
    (∀ value left, type.codec.read (.json (type.codec.write value).toJson) left =
      .ok (value, left)) ∧
    Function.Injective (fun value => (type.codec.write value).toJson) := by
  have read : ∀ value left, type.codec.read (.json (type.codec.write value).toJson) left =
      .ok (value, left) := fun value left => congrFun (type.lawful value .plain) left
  refine ⟨read, fun first second same => ?_⟩
  dsimp only at same
  have again := read first 0
  rw [same, read second 0] at again
  cases again
  rfl

end WireType

end ApiManifest
