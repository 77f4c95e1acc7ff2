import ApiManifest.Gateway.Route

/-!
What a policy attaches to, and which rules of it: a route by name, and rules by their matches.
-/

namespace ApiManifest.Policy

open Gateway

structure TargetRef where
  group : String
  kind : String
  name : String
  nameSpace : Option String
  deriving DecidableEq

namespace TargetRef

def codec : Codec TargetRef :=
  .record "PolicyTargetReference"
    (.cons (.required "group" .text) <|
      .cons (.required "kind" .text) <|
      .cons (.required "name" .text) <|
      .cons (.optional "namespace" .text) .nil)
    (fun (group, kind, name, nameSpace, ()) => { group, kind, name, nameSpace })
    (fun target => (target.group, target.kind, target.name, target.nameSpace, ()))

/-- The HTTPRoute of that name. -/
def httpRoute (name : String) (nameSpace : Option String) : TargetRef :=
  let kind := Specification.kind RouteSpec
  ⟨kind.group, kind.kind, name, nameSpace⟩

end TargetRef

structure RouteSelector where
  hostnames : Option (List String)
  matchers : Option (List RouteMatch)
  deriving DecidableEq

namespace RouteSelector

def codec : Codec RouteSelector :=
  .record "RouteSelector"
    (.cons (.optional "hostnames" (.list .text)) <|
      .cons (.optional "matches" (.list RouteMatch.codec)) .nil)
    (fun (hostnames, matchers, ()) => { hostnames, matchers })
    (fun selector => (selector.hostnames, selector.matchers, ()))

/-- Selects the rules with that match. -/
def ofMatch (condition : RouteMatch) : RouteSelector :=
  ⟨none, some [condition]⟩

end RouteSelector

/-- Selects objects by labels. -/
structure LabelSelector where
  matchLabels : Option (SortedDict String)
  deriving DecidableEq

def LabelSelector.codec : Codec LabelSelector :=
  .record "Selector"
    (.cons (.optional "matchLabels" (.sorted .text)) .nil)
    (fun (matchLabels, ()) => { matchLabels })
    (fun selector => (selector.matchLabels, ()))

end ApiManifest.Policy
