import ApiManifest.GenerationError
import ApiManifest.OpenApi.Document
import ApiManifest.Text.Basic

/-!
The names that operations and manifests get. An operation is named by its identifier, or by its
verb and its path; a manifest that has no route to be named by takes its name from the title.
-/

namespace ApiManifest.Naming

open Gateway (Method)
open OpenApi (Operation)

/-- The verb, and the path without anything but ASCII letters, digits and underscores. -/
def fallbackName (path : String) (method : Method) : String :=
  method.name ++ String.ofList (path.toList.filter Text.isWordChar)

def operationName (path : String) (method : Method) (operation : Operation) : String :=
  match operation.operationId with
  | some id => if id.isEmpty then fallbackName path method else id
  | none => fallbackName path method

/-- The operation's name in lower case, with an underscore in place of every other character than
an ASCII letter, a digit or an underscore. -/
def systemName (path : String) (method : Method) (operation : Operation) : String :=
  String.ofList ((Text.lower (operationName path method operation)).toList.map
    (fun c => if Text.isWordChar c then c else '_'))

def isLowerOrDigit (c : Char) : Bool :=
  c.isLower || c.isDigit

/-- Whether a text is one label of a DNS name: lower-case letters, digits and dashes, with no dash
at either end. -/
def isLabel (text : List Char) : Bool :=
  text.all (fun c => isLowerOrDigit c || c = '-')
    && (text.head?.any isLowerOrDigit) && (text.getLast?.any isLowerOrDigit)

def isSubdomain (text : List Char) : Bool :=
  (Text.splitOn '.' text).all isLabel

/-- The greatest number of characters of a DNS subdomain. -/
def subdomainLimit : Nat := 253

def checkSubdomain (name : String) : Except GenerationError Unit :=
  if name.isEmpty then .error (.invalidResourceName name .empty)
  else if subdomainLimit < name.length then .error (.invalidResourceName name .tooLong)
  else if isSubdomain name.toList then .ok ()
  else .error (.invalidResourceName name .malformed)

/-- The ASCII letters and digits of a title in lower case. -/
def titleLetters (title : String) : String :=
  String.ofList ((Text.lower title).toList.filter Char.isAlphanum)

/-- The name that a title gives to a manifest. -/
def resourceName (title : String) : Except GenerationError String := do
  let name := titleLetters title
  checkSubdomain name
  return name

end ApiManifest.Naming
