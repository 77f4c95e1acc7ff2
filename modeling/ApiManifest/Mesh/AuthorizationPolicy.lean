import ApiManifest.Manifest

/-!
The AuthorizationPolicy of a service mesh: which requests to the selected workloads an action
applies to.
-/

namespace ApiManifest.Mesh

/-- The provider that decides for the gateway whether a request may pass. -/
def authorizationProvider : String :=
  "kuadrant-authorization"

structure WorkloadSelector where
  matchLabels : SortedDict String
  deriving DecidableEq

def WorkloadSelector.codec : Codec WorkloadSelector :=
  .record "WorkloadSelector" (.cons (.required "matchLabels" (.sorted .text)) .nil)
    (fun (matchLabels, ()) => { matchLabels }) (fun selector => (selector.matchLabels, ()))

/-- The requests of a rule: those to one of the hosts, with one of the methods and paths. -/
structure RequestSet where
  hosts : List String
  methods : List String
  paths : List String
  deriving DecidableEq

def RequestSet.codec : Codec RequestSet :=
  .record "Operation"
    (.cons (.items "hosts" .text) <|
      .cons (.items "methods" .text) <|
      .cons (.items "paths" .text) .nil)
    (fun (hosts, methods, paths, ()) => { hosts, methods, paths })
    (fun requests => (requests.hosts, requests.methods, requests.paths, ()))

structure RuleTarget where
  operation : RequestSet
  deriving DecidableEq

def RuleTarget.codec : Codec RuleTarget :=
  .record "RuleTo" (.cons (.required "operation" RequestSet.codec) .nil)
    (fun (operation, ()) => { operation }) (fun target => (target.operation, ()))

structure AuthorizationRule where
  targets : List RuleTarget
  deriving DecidableEq

def AuthorizationRule.codec : Codec AuthorizationRule :=
  .record "Rule" (.cons (.items "to" RuleTarget.codec) .nil)
    (fun (targets, ()) => { targets }) (fun rule => (rule.targets, ()))

inductive Action where
  | allow
  | deny
  | audit
  | custom
  deriving DecidableEq

namespace Action

def name : Action → String
  | .allow => "ALLOW"
  | .deny => "DENY"
  | .audit => "AUDIT"
  | .custom => "CUSTOM"

def codec : Codec Action :=
  .choice [("ALLOW", .allow), ("DENY", .deny), ("AUDIT", .audit), ("CUSTOM", .custom)] name

end Action

structure Provider where
  name : String
  deriving DecidableEq

def Provider.codec : Codec Provider :=
  .record "ExtensionProvider" (.cons (.required "name" .text) .nil) (fun (name, ()) => { name })
    (fun provider => (provider.name, ()))

structure AuthorizationPolicySpec where
  selector : Option WorkloadSelector
  rules : List AuthorizationRule
  action : Action
  provider : Option Provider
  deriving DecidableEq

def AuthorizationPolicySpec.codec : Codec AuthorizationPolicySpec :=
  .record "AuthorizationPolicySpec"
    (.cons (.optional "selector" WorkloadSelector.codec) <|
      .cons (.items "rules" AuthorizationRule.codec) <|
      .cons (.required "action" Action.codec) <|
      .cons (.optional "provider" Provider.codec) .nil)
    (fun (selector, rules, action, provider, ()) => { selector, rules, action, provider })
    (fun spec => (spec.selector, spec.rules, spec.action, spec.provider, ()))

instance : Specification AuthorizationPolicySpec where
  kind := ⟨"security.istio.io", "v1beta1", "AuthorizationPolicy", "authorizationpolicies",
    "AuthorizationPolicy"⟩
  codec := AuthorizationPolicySpec.codec

abbrev AuthorizationPolicy := Manifest AuthorizationPolicySpec

end ApiManifest.Mesh
