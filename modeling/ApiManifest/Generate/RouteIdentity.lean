import ApiManifest.Extension
import ApiManifest.Nonempty
import ApiManifest.OpenApi.Document
import ApiManifest.Policy.Target

/-!
The route that the root extension names. The HTTPRoute and the policies that target it share its
name and labels.
-/

namespace ApiManifest.Generate

open Gateway (ParentRef)
open OpenApi (Document)
open Policy (TargetRef)

structure RouteIdentity where
  name : String
  nameSpace : Option String
  hostnames : List String
  parentRefs : List ParentRef
  labels : SortedDict String
  deriving DecidableEq

namespace RouteIdentity

def ofDocument (document : Document) : Except GenerationError RouteIdentity := do
  let root ← Extension.Root.ofJson document.extension
  let route ← root.namedRoute
  match Nonempty.text? route.name with
  | none => .error .missingRouteName
  | some name => .ok {
      name
      nameSpace := Nonempty.text? route.nameSpace
      hostnames := route.hostnames
      parentRefs := route.parentRefs
      labels := route.labels }

def metadata (route : RouteIdentity) : Metadata where
  name := some route.name
  nameSpace := route.nameSpace
  labels := Nonempty.dict? route.labels

def targetRef (route : RouteIdentity) : TargetRef :=
  .httpRoute route.name route.nameSpace

end RouteIdentity

end ApiManifest.Generate
