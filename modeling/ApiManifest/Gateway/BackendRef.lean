import ApiManifest.Codec

/-!
Where requests are sent: references to services and to gateways, and the filters a reference may
ask for.
-/

namespace ApiManifest.Gateway

/-- The gateway a route wants to be attached to. -/
structure ParentRef where
  group : Option String
  kind : Option String
  name : String
  nameSpace : Option String
  port : Option Int32
  sectionName : Option String
  deriving DecidableEq

def ParentRef.codec : Codec ParentRef :=
  .record "HTTPRouteParentRefs"
    (.cons (.optional "group" .text) <|
      .cons (.optional "kind" .text) <|
      .cons (.required "name" .text) <|
      .cons (.optional "namespace" .text) <|
      .cons (.optional "port" .int32) <|
      .cons (.optional "sectionName" .text) .nil)
    (fun (group, kind, name, nameSpace, port, sectionName, ()) =>
      { group, kind, name, nameSpace, port, sectionName })
    (fun ref => (ref.group, ref.kind, ref.name, ref.nameSpace, ref.port, ref.sectionName, ()))

structure ExtensionRef where
  group : String
  kind : String
  name : String
  deriving DecidableEq

def ExtensionRef.codec : Codec ExtensionRef :=
  .record "HTTPRouteRulesBackendRefsFiltersExtensionRef"
    (.cons (.required "group" .text) <|
      .cons (.required "kind" .text) <|
      .cons (.required "name" .text) .nil)
    (fun (group, kind, name, ()) => { group, kind, name })
    (fun ref => (ref.group, ref.kind, ref.name, ()))

structure Header where
  name : String
  value : String
  deriving DecidableEq

def Header.codec (recordName : String) : Codec Header :=
  .record recordName
    (.cons (.required "name" .text) <| .cons (.required "value" .text) .nil)
    (fun (name, value, ()) => { name, value })
    (fun header => (header.name, header.value, ()))

/-- Headers to add, to remove and to set. -/
structure HeaderModifier where
  add : Option (List Header)
  remove : Option (List String)
  set : Option (List Header)
  deriving DecidableEq

def HeaderModifier.codec (recordName : String) : Codec HeaderModifier :=
  .record recordName
    (.cons (.optional "add" (.list (Header.codec (recordName ++ "Add")))) <|
      .cons (.optional "remove" (.list .text)) <|
      .cons (.optional "set" (.list (Header.codec (recordName ++ "Set")))) .nil)
    (fun (add, remove, set, ()) => { add, remove, set })
    (fun modifier => (modifier.add, modifier.remove, modifier.set, ()))

structure MirrorTarget where
  group : Option String
  kind : Option String
  name : String
  nameSpace : Option String
  port : Option Int32
  deriving DecidableEq

def MirrorTarget.codec : Codec MirrorTarget :=
  .record "HTTPRouteRulesBackendRefsFiltersRequestMirrorBackendRef"
    (.cons (.optional "group" .text) <|
      .cons (.optional "kind" .text) <|
      .cons (.required "name" .text) <|
      .cons (.optional "namespace" .text) <|
      .cons (.optional "port" .int32) .nil)
    (fun (group, kind, name, nameSpace, port, ()) => { group, kind, name, nameSpace, port })
    (fun target => (target.group, target.kind, target.name, target.nameSpace, target.port, ()))

structure Mirror where
  backendRef : MirrorTarget
  deriving DecidableEq

def Mirror.codec : Codec Mirror :=
  .record "HTTPRouteRulesBackendRefsFiltersRequestMirror"
    (.cons (.required "backendRef" MirrorTarget.codec) .nil)
    (fun (backendRef, ()) => { backendRef })
    (fun mirror => (mirror.backendRef, ()))

inductive PathModifierType where
  | replaceFullPath
  | replacePrefixMatch
  deriving DecidableEq

namespace PathModifierType

def name : PathModifierType → String
  | .replaceFullPath => "ReplaceFullPath"
  | .replacePrefixMatch => "ReplacePrefixMatch"

def codec : Codec PathModifierType :=
  .choice [("ReplaceFullPath", .replaceFullPath), ("ReplacePrefixMatch", .replacePrefixMatch)] name

end PathModifierType

structure PathModifier where
  replaceFullPath : Option String
  replacePrefixMatch : Option String
  type : PathModifierType
  deriving DecidableEq

def PathModifier.codec (recordName : String) : Codec PathModifier :=
  .record recordName
    (.cons (.optional "replaceFullPath" .text) <|
      .cons (.optional "replacePrefixMatch" .text) <|
      .cons (.required "type" PathModifierType.codec) .nil)
    (fun (replaceFullPath, replacePrefixMatch, type, ()) =>
      { replaceFullPath, replacePrefixMatch, type })
    (fun path => (path.replaceFullPath, path.replacePrefixMatch, path.type, ()))

inductive RedirectScheme where
  | http
  | https
  deriving DecidableEq

namespace RedirectScheme

def name : RedirectScheme → String
  | .http => "http"
  | .https => "https"

def codec : Codec RedirectScheme :=
  .choice [("http", .http), ("https", .https)] name

end RedirectScheme

structure Redirect where
  hostname : Option String
  path : Option PathModifier
  port : Option Int32
  scheme : Option RedirectScheme
  statusCode : Option Int64
  deriving DecidableEq

def Redirect.codec : Codec Redirect :=
  .record "HTTPRouteRulesBackendRefsFiltersRequestRedirect"
    (.cons (.optional "hostname" .text) <|
      .cons (.optional "path"
        (PathModifier.codec "HTTPRouteRulesBackendRefsFiltersRequestRedirectPath")) <|
      .cons (.optional "port" .int32) <|
      .cons (.optional "scheme" RedirectScheme.codec) <|
      .cons (.optional "statusCode" .int64) .nil)
    (fun (hostname, path, port, scheme, statusCode, ()) =>
      { hostname, path, port, scheme, statusCode })
    (fun redirect =>
      (redirect.hostname, redirect.path, redirect.port, redirect.scheme, redirect.statusCode, ()))

structure UrlModifier where
  hostname : Option String
  path : Option PathModifier
  deriving DecidableEq

def UrlModifier.codec : Codec UrlModifier :=
  .record "HTTPRouteRulesBackendRefsFiltersUrlRewrite"
    (.cons (.optional "hostname" .text) <|
      .cons (.optional "path"
        (PathModifier.codec "HTTPRouteRulesBackendRefsFiltersUrlRewritePath")) .nil)
    (fun (hostname, path, ()) => { hostname, path })
    (fun modifier => (modifier.hostname, modifier.path, ()))

inductive FilterType where
  | requestHeaderModifier
  | responseHeaderModifier
  | requestMirror
  | requestRedirect
  | urlModifier
  | extensionRef
  deriving DecidableEq

namespace FilterType

def name : FilterType → String
  | .requestHeaderModifier => "RequestHeaderModifier"
  | .responseHeaderModifier => "ResponseHeaderModifier"
  | .requestMirror => "RequestMirror"
  | .requestRedirect => "RequestRedirect"
  | .urlModifier => "URLRewrite"
  | .extensionRef => "ExtensionRef"

def all : List FilterType :=
  [.requestHeaderModifier, .responseHeaderModifier, .requestMirror, .requestRedirect, .urlModifier,
    .extensionRef]

def codec : Codec FilterType :=
  .choice (all.map (fun type => (type.name, type))) name

end FilterType

/-- What is done to a request on its way to a backend. -/
structure Filter where
  extensionRef : Option ExtensionRef
  requestHeaderModifier : Option HeaderModifier
  requestMirror : Option Mirror
  requestRedirect : Option Redirect
  responseHeaderModifier : Option HeaderModifier
  type : FilterType
  urlModifier : Option UrlModifier
  deriving DecidableEq

def Filter.codec : Codec Filter :=
  .record "HTTPRouteRulesBackendRefsFilters"
    (.cons (.optional "extensionRef" ExtensionRef.codec) <|
      .cons (.optional "requestHeaderModifier"
        (HeaderModifier.codec "HTTPRouteRulesBackendRefsFiltersRequestHeaderModifier")) <|
      .cons (.optional "requestMirror" Mirror.codec) <|
      .cons (.optional "requestRedirect" Redirect.codec) <|
      .cons (.optional "responseHeaderModifier"
        (HeaderModifier.codec "HTTPRouteRulesBackendRefsFiltersResponseHeaderModifier")) <|
      .cons (.required "type" FilterType.codec) <|
      .cons (.optional "urlRewrite" UrlModifier.codec) .nil)
    (fun (extensionRef, requestHeaderModifier, requestMirror, requestRedirect,
        responseHeaderModifier, type, urlModifier, ()) =>
      { extensionRef, requestHeaderModifier, requestMirror, requestRedirect,
        responseHeaderModifier, type, urlModifier })
    (fun filter => (filter.extensionRef, filter.requestHeaderModifier, filter.requestMirror,
      filter.requestRedirect, filter.responseHeaderModifier, filter.type, filter.urlModifier, ()))

/-- The service requests are sent to. -/
structure BackendRef where
  filters : Option (List Filter)
  group : Option String
  kind : Option String
  name : String
  nameSpace : Option String
  port : Option Int32
  weight : Option Int32
  deriving DecidableEq

def BackendRef.codec : Codec BackendRef :=
  .record "HTTPRouteRulesBackendRefs"
    (.cons (.optional "filters" (.list Filter.codec)) <|
      .cons (.optional "group" .text) <|
      .cons (.optional "kind" .text) <|
      .cons (.required "name" .text) <|
      .cons (.optional "namespace" .text) <|
      .cons (.optional "port" .int32) <|
      .cons (.optional "weight" .int32) .nil)
    (fun (filters, group, kind, name, nameSpace, port, weight, ()) =>
      { filters, group, kind, name, nameSpace, port, weight })
    (fun ref => (ref.filters, ref.group, ref.kind, ref.name, ref.nameSpace, ref.port,
      ref.weight, ()))

end ApiManifest.Gateway
