import ApiManifest.GenerationError
import ApiManifest.OpenApi.Document

/-!
Server URLs: their variables are replaced by the defaults, and what results is split into host and
path. A URL that begins with two slashes has a host but no scheme; any other URL without a scheme
has a path only.
-/

namespace ApiManifest.OpenApi

open Text (isWordChar)

structure ServerUrl where
  /-- The host with its port, none if the URL is relative. -/
  host : Option String
  path : String
  deriving DecidableEq

/-- The variable name after an opening brace, if one stands here, and what follows its closing
brace. -/
def placeholder? (text : List Char) : Option (List Char × List Char) :=
  let name := text.takeWhile isWordChar
  match text.dropWhile isWordChar with
  | '\x7d' :: rest => if name.isEmpty then none else some (name, rest)
  | _ => none

theorem length_of_placeholder? {text name rest : List Char}
    (h : placeholder? text = some (name, rest)) :
    rest.length < text.length := by
  unfold placeholder? at h
  have kept := (List.dropWhile_sublist isWordChar (l := text)).length_le
  simp only at h
  split at h
  · next tail same =>
    split at h
    · simp at h
    · simp only [Option.some.injEq, Prod.mk.injEq] at h
      rw [same, List.length_cons] at kept
      rw [← h.2]
      omega
  · simp at h

/-- Replaces each variable in braces by its value, from left to right and once. -/
def substitute (value : String → String) : List Char → List Char
  | [] => []
  | c :: rest =>
    if c = '\x7b' then
      match _found : placeholder? rest with
      | some (name, after) => (value (String.ofList name)).toList ++ substitute value after
      | none => c :: substitute value rest
    else c :: substitute value rest
termination_by text => text.length
decreasing_by
  · have shorter := length_of_placeholder? _found
    simp only [List.length_cons]
    omega
  · simp
  · simp

namespace Server

/-- The URL with the defaults of its variables. Variables that are not declared are empty. -/
def render (server : Server) : String :=
  String.ofList
    (substitute (fun name => (server.defaults.get? name).getD "") server.url.toList)

end Server

/-- Whether a scheme's end stands somewhere in the text. -/
def hasSchemeEnd : List Char → Bool
  | [] => false
  | c :: rest => "://".toList.isPrefixOf (c :: rest) || hasSchemeEnd rest

/-- The host and port of an authority. -/
def hostText (authority : List Char) : String :=
  let host := String.ofList (Uri.host authority)
  match Uri.port? authority with
  | some port => host ++ ":" ++ toString port
  | none => host

/-- Splits an absolute URL, which is written so in messages. -/
def splitAbsolute (shown : String) (url : List Char) : Except GenerationError ServerUrl :=
  match Uri.parse url with
  | .ok uri => .ok ⟨uri.authority.map hostText, String.ofList uri.path⟩
  | .error fault => .error (.invalidServerUrl shown fault)

/-- Splits a URL without variables. The path of a relative one ends before its query. -/
def splitUrl (url : String) : Except GenerationError ServerUrl :=
  let text := url.toList
  if "//".toList.isPrefixOf text then splitAbsolute url ("http:".toList ++ text)
  else if hasSchemeEnd text then splitAbsolute url text
  else .ok ⟨none, String.ofList (text.takeWhile (fun c => !Uri.endsPath c))⟩

def Server.locate (server : Server) : Except GenerationError ServerUrl :=
  splitUrl server.render

namespace Document

/-- The path of the first server. -/
def basePath (document : Document) : Except GenerationError String :=
  match document.servers with
  | server :: _ => server.locate.map ServerUrl.path
  | [] => .ok "/"

/-- The text without one slash at its end. -/
def dropSlash (text : String) : String :=
  match text.toList.reverse with
  | '/' :: rest => String.ofList rest.reverse
  | _ => text

/-- What path templates are put after. -/
def pathPrefix (document : Document) : Except GenerationError String :=
  document.basePath.map dropSlash

/-- The hosts of the servers that have one, in their order. -/
def hosts (document : Document) : Except GenerationError (List String) := do
  let urls ← document.servers.mapM Server.locate
  return urls.filterMap ServerUrl.host

end Document

end ApiManifest.OpenApi
