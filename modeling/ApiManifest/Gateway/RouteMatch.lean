import ApiManifest.Codec

/-!
Which requests a rule of a route takes: conditions on the path, on headers, on query parameters
and on the method, all of which must hold.
-/

namespace ApiManifest.Gateway

inductive PathMatchType where
  | exact
  | pathPrefix
  | regularExpression
  deriving DecidableEq

namespace PathMatchType

def name : PathMatchType → String
  | .exact => "Exact"
  | .pathPrefix => "PathPrefix"
  | .regularExpression => "RegularExpression"

def all : List PathMatchType :=
  [.exact, .pathPrefix, .regularExpression]

def codec : Codec PathMatchType :=
  .choice (all.map (fun type => (type.name, type))) name

end PathMatchType

structure PathMatch where
  type : Option PathMatchType
  value : Option String
  deriving DecidableEq

def PathMatch.codec : Codec PathMatch :=
  .record "HttpPathMatch"
    (.cons (.optional "type" PathMatchType.codec) <|
      .cons (.optional "value" .text) .nil)
    (fun (type, value, ()) => { type, value })
    (fun path => (path.type, path.value, ()))

/-- How the value of a header or of a query parameter is compared. -/
inductive ValueMatchType where
  | exact
  | regularExpression
  deriving DecidableEq

namespace ValueMatchType

def name : ValueMatchType → String
  | .exact => "Exact"
  | .regularExpression => "RegularExpression"

def codec : Codec ValueMatchType :=
  .choice [("Exact", .exact), ("RegularExpression", .regularExpression)] name

end ValueMatchType

/-- A condition on a header or on a query parameter. -/
structure ValueMatch where
  type : Option ValueMatchType
  name : String
  value : String
  deriving DecidableEq

namespace ValueMatch

/-- Asks for an exact match of the empty value. -/
def exact (name : String) : ValueMatch :=
  ⟨some .exact, name, ""⟩

def codec (recordName : String) : Codec ValueMatch :=
  .record recordName
    (.cons (.optional "type" ValueMatchType.codec) <|
      .cons (.required "name" .text) <|
      .cons (.textAlways "value") .nil)
    (fun (type, name, value, ()) => { type, name, value })
    (fun condition => (condition.type, condition.name, condition.value, ()))

end ValueMatch

inductive Method where
  | get
  | head
  | post
  | put
  | delete
  | connect
  | options
  | trace
  | patch
  deriving DecidableEq

namespace Method

def name : Method → String
  | .get => "GET"
  | .head => "HEAD"
  | .post => "POST"
  | .put => "PUT"
  | .delete => "DELETE"
  | .connect => "CONNECT"
  | .options => "OPTIONS"
  | .trace => "TRACE"
  | .patch => "PATCH"

def all : List Method :=
  [.get, .head, .post, .put, .delete, .connect, .options, .trace, .patch]

def codec : Codec Method :=
  .choice (all.map (fun method => (method.name, method))) name

end Method

structure RouteMatch where
  path : Option PathMatch
  headers : Option (List ValueMatch)
  queryParams : Option (List ValueMatch)
  method : Option Method
  deriving DecidableEq

def RouteMatch.codec : Codec RouteMatch :=
  .record "HttpRouteMatch"
    (.cons (.optional "path" PathMatch.codec) <|
      .cons (.optional "headers" (.list (ValueMatch.codec "HttpHeaderMatch"))) <|
      .cons (.optional "queryParams" (.list (ValueMatch.codec "HttpQueryParamMatch"))) <|
      .cons (.optional "method" Method.codec) .nil)
    (fun (path, headers, queryParams, method, ()) => { path, headers, queryParams, method })
    (fun condition =>
      (condition.path, condition.headers, condition.queryParams, condition.method, ()))

end ApiManifest.Gateway
