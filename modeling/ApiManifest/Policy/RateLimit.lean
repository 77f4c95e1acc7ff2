import ApiManifest.Policy.Target

/-!
The RateLimitPolicy: named limits, each with the requests it applies to, the conditions under
which it is enforced, what it counts by, and its rates.
-/

namespace ApiManifest.Policy

open Gateway

inductive ConditionOperator where
  | equal
  | notEqual
  | startsWith
  | endsWith
  | includes
  | excludes
  | matching
  deriving DecidableEq

namespace ConditionOperator

def name : ConditionOperator → String
  | .equal => "eq"
  | .notEqual => "neq"
  | .startsWith => "startswith"
  | .endsWith => "endswith"
  | .includes => "incl"
  | .excludes => "excl"
  | .matching => "matches"

def all : List ConditionOperator :=
  [.equal, .notEqual, .startsWith, .endsWith, .includes, .excludes, .matching]

def codec : Codec ConditionOperator :=
  .choice (all.map (fun operator => (operator.name, operator))) name

end ConditionOperator

structure Condition where
  selector : String
  operator : ConditionOperator
  value : String
  deriving DecidableEq

def Condition.codec : Codec Condition :=
  .record "WhenCondition"
    (.cons (.required "selector" .text) <|
      .cons (.required "operator" ConditionOperator.codec) <|
      .cons (.required "value" .text) .nil)
    (fun (selector, operator, value, ()) => { selector, operator, value })
    (fun condition => (condition.selector, condition.operator, condition.value, ()))

inductive TimeUnit where
  | second
  | minute
  | hour
  | day
  deriving DecidableEq

namespace TimeUnit

def name : TimeUnit → String
  | .second => "second"
  | .minute => "minute"
  | .hour => "hour"
  | .day => "day"

def all : List TimeUnit :=
  [.second, .minute, .hour, .day]

def codec : Codec TimeUnit :=
  .choice (all.map (fun unit => (unit.name, unit))) name

end TimeUnit

/-- So many requests in so many units of time. -/
structure Rate where
  limit : Int32
  duration : Int32
  unit : TimeUnit
  deriving DecidableEq

def Rate.codec : Codec Rate :=
  .record "Rate"
    (.cons (.required "limit" .int32) <|
      .cons (.required "duration" .int32) <|
      .cons (.required "unit" TimeUnit.codec) .nil)
    (fun (limit, duration, unit, ()) => { limit, duration, unit })
    (fun rate => (rate.limit, rate.duration, rate.unit, ()))

structure Limit where
  routeSelectors : Option (List RouteSelector)
  conditions : Option (List Condition)
  counters : Option (List String)
  rates : Option (List Rate)
  deriving DecidableEq

def Limit.codec : Codec Limit :=
  .record "Limit"
    (.cons (.optional "routeSelectors" (.list RouteSelector.codec)) <|
      .cons (.optional "when" (.list Condition.codec)) <|
      .cons (.optional "counters" (.list .text)) <|
      .cons (.optional "rates" (.list Rate.codec)) .nil)
    (fun (routeSelectors, conditions, counters, rates, ()) =>
      { routeSelectors, conditions, counters, rates })
    (fun limit => (limit.routeSelectors, limit.conditions, limit.counters, limit.rates, ()))

structure RateLimitPolicySpec where
  targetRef : TargetRef
  limits : Option (SortedDict Limit)
  deriving DecidableEq

def RateLimitPolicySpec.codec : Codec RateLimitPolicySpec :=
  .record "RateLimitPolicySpec"
    (.cons (.required "targetRef" TargetRef.codec) <|
      .cons (.optional "limits" (.sorted Limit.codec)) .nil)
    (fun (targetRef, limits, ()) => { targetRef, limits })
    (fun spec => (spec.targetRef, spec.limits, ()))

instance : Specification RateLimitPolicySpec where
  kind := ⟨"kuadrant.io", "v1beta2", "RateLimitPolicy", "ratelimitpolicies", "RateLimitPolicy"⟩
  codec := RateLimitPolicySpec.codec

abbrev RateLimitPolicy := Manifest RateLimitPolicySpec

end ApiManifest.Policy
