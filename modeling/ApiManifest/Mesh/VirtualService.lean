import ApiManifest.Manifest

/-!
The VirtualService of a service mesh: routes to destinations, of which the first one that matches
a request is taken.
-/

namespace ApiManifest.Mesh

/-- How a text is compared with the path or the method of a request. -/
inductive StringMatch where
  | exact (value : String)
  | leading (value : String)
  | regex (value : String)
  deriving DecidableEq

namespace StringMatch

def variants : Codec.Variants StringMatch where
  name := "StringMatch"
  readers :=
    [("exact", Reader.text.map .exact), ("prefix", Reader.text.map .leading),
      ("regex", Reader.text.map .regex)]
  write
    | .exact value => ("exact", .string value)
    | .leading value => ("prefix", .string value)
    | .regex value => ("regex", .string value)

def codec : Codec StringMatch :=
  .variants variants

end StringMatch

structure RequestMatch where
  uri : Option StringMatch
  method : Option StringMatch
  deriving DecidableEq

def RequestMatch.codec : Codec RequestMatch :=
  .record "HttpMatchRequest"
    (.cons (.optional "uri" StringMatch.codec) <|
      .cons (.optional "method" StringMatch.codec) .nil)
    (fun (uri, method, ()) => { uri, method })
    (fun request => (request.uri, request.method, ()))

structure Port where
  number : UInt32
  deriving DecidableEq

def Port.codec : Codec Port :=
  .record "PortSelector" (.cons (.required "number" .nat32) .nil)
    (fun (number, ()) => { number }) (fun port => (port.number, ()))

/-- A service of the mesh. -/
structure Destination where
  host : String
  subset : Option String
  port : Option Port
  deriving DecidableEq

def Destination.codec : Codec Destination :=
  .record "Destination"
    (.cons (.required "host" .text) <|
      .cons (.optional "subset" .text) <|
      .cons (.optional "port" Port.codec) .nil)
    (fun (host, subset, port, ()) => { host, subset, port })
    (fun destination => (destination.host, destination.subset, destination.port, ()))

structure WeightedDestination where
  destination : Destination
  weight : Option Int32
  deriving DecidableEq

def WeightedDestination.codec : Codec WeightedDestination :=
  .record "HttpRouteDestination"
    (.cons (.required "destination" Destination.codec) <|
      .cons (.optional "weight" .int32) .nil)
    (fun (destination, weight, ()) => { destination, weight })
    (fun target => (target.destination, target.weight, ()))

structure ServiceRoute where
  name : String
  matchers : List RequestMatch
  route : List WeightedDestination
  deriving DecidableEq

def ServiceRoute.codec : Codec ServiceRoute :=
  .record "HttpRoute"
    (.cons (.textOrEmpty "name") <|
      .cons (.items "match" RequestMatch.codec) <|
      .cons (.items "route" WeightedDestination.codec) .nil)
    (fun (name, matchers, route, ()) => { name, matchers, route })
    (fun route => (route.name, route.matchers, route.route, ()))

structure VirtualServiceSpec where
  hosts : List String
  gateways : List String
  http : List ServiceRoute
  deriving DecidableEq

def VirtualServiceSpec.codec : Codec VirtualServiceSpec :=
  .record "VirtualServiceSpec"
    (.cons (.items "hosts" .text) <|
      .cons (.items "gateways" .text) <|
      .cons (.items "http" ServiceRoute.codec) .nil)
    (fun (hosts, gateways, http, ()) => { hosts, gateways, http })
    (fun spec => (spec.hosts, spec.gateways, spec.http, ()))

instance : Specification VirtualServiceSpec where
  kind := ⟨"networking.istio.io", "v1beta1", "VirtualService", "virtualservices",
    "VirtualService"⟩
  codec := VirtualServiceSpec.codec

abbrev VirtualService := Manifest VirtualServiceSpec

end ApiManifest.Mesh
