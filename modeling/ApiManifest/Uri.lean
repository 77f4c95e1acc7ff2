import ApiManifest.Text.Basic

/-!
URI references as far as their authority and path go. An authority is read character by
character; a colon, a bracket or a percent sign in front of an at sign belongs to the user and
says nothing about the host.
-/

namespace ApiManifest

/-- Why a text is no URI. -/
inductive UriFault where
  | tooLong
  | empty
  | character
  | schemeTooLong
  | authority
  | format
  deriving DecidableEq

def UriFault.message : UriFault → String
  | .tooLong => "uri too long"
  | .empty => "empty string"
  | .character => "invalid uri character"
  | .schemeTooLong => "scheme too long"
  | .authority => "invalid authority"
  | .format => "invalid format"

structure Uri where
  /-- The authority as written, with its user and port. -/
  authority : Option (List Char)
  path : List Char
  deriving DecidableEq

namespace Uri

/-- The greatest number of bytes of a URI. -/
def byteLimit : Nat := 65534

/-- The greatest number of characters of a scheme. -/
def schemeLimit : Nat := 64

/-- The greatest number of colons in a part of an authority. -/
def colonLimit : Nat := 8

def isSchemeChar (c : Char) : Bool :=
  c.isAlphanum || "+-.~".toList.contains c

def isAuthorityChar (c : Char) : Bool :=
  c.isAlphanum || "!$&'()*+,-.:;=@[]_~".toList.contains c

def endsAuthority (c : Char) : Bool :=
  c = '/' || c = '?' || c = '#'

def endsPath (c : Char) : Bool :=
  c = '?' || c = '#'

def isPathChar (c : Char) : Bool :=
  c = '!' || c = '"' || ('$' ≤ c && c ≤ ';') || c = '=' || ('@' ≤ c && c ≤ '_')
    || ('a' ≤ c && c ≤ '~') || 128 ≤ c.toNat

def isQueryChar (c : Char) : Bool :=
  c = '!' || ('$' ≤ c && c ≤ ';') || c = '=' || ('?' ≤ c && c ≤ '~') || 128 ≤ c.toNat

/-- What has been seen of an authority: the colons and whether there was a percent sign since the
last at sign or closing bracket, the brackets, and whether an at sign came last. -/
structure Seen where
  colons : Nat
  percent : Bool
  opened : Bool
  closed : Bool
  afterAt : Bool

namespace Seen

def nothing : Seen :=
  ⟨0, false, false, false, false⟩

def next (seen : Seen) (c : Char) : Except UriFault Seen :=
  let seen := { seen with afterAt := false }
  match c with
  | ':' =>
    if colonLimit ≤ seen.colons then .error .authority
    else .ok { seen with colons := seen.colons + 1 }
  | '[' =>
    if seen.percent || seen.opened then .error .authority else .ok { seen with opened := true }
  | ']' =>
    if !seen.opened || seen.closed then .error .authority
    else .ok { seen with closed := true, colons := 0, percent := false }
  | '@' => .ok { seen with colons := 0, percent := false, afterAt := true }
  | '%' => .ok { seen with percent := true }
  | c => if isAuthorityChar c then .ok seen else .error .character

/-- Whether an authority may end here. -/
def complete (seen : Seen) : Bool :=
  seen.opened == seen.closed && seen.colons ≤ 1 && !seen.afterAt && !seen.percent

end Seen

/-- Checks the characters of an authority, and then the authority as a whole. -/
def checkAuthority (authority : List Char) : Except UriFault Unit := do
  let seen ← authority.foldlM Seen.next Seen.nothing
  if seen.complete then .ok () else .error .authority

/-- What follows the scheme and its two slashes, none if the text has no scheme. -/
def afterScheme? (text : List Char) : Except UriFault (Option (List Char)) :=
  let scheme := text.takeWhile isSchemeChar
  match text.dropWhile isSchemeChar with
  | ':' :: '/' :: '/' :: rest =>
    if scheme.isEmpty && rest.isEmpty then .ok none
    else if schemeLimit < scheme.length then .error .schemeTooLong
    else .ok (some rest)
  | _ => .ok none

/-- The authority in front of a text, and the text after it. -/
def splitAuthority (text : List Char) : Except UriFault (List Char × List Char) := do
  if text.isEmpty then .error .empty
  let authority := text.takeWhile (fun c => !endsAuthority c)
  checkAuthority authority
  .ok (authority, text.dropWhile (fun c => !endsAuthority c))

/-- The path in front of a text. The query after it is checked, a fragment is not. -/
def readPath (text : List Char) : Except UriFault (List Char) := do
  let path := text.takeWhile (fun c => !endsPath c)
  if !path.all isPathChar then .error .character
  match text.dropWhile (fun c => !endsPath c) with
  | '?' :: query =>
    if !(query.takeWhile (· ≠ '#')).all isQueryChar then .error .character
  | _ => pure ()
  .ok (if path.isEmpty then ['/'] else path)

def parse (text : List Char) : Except UriFault Uri := do
  if byteLimit < (String.ofList text).utf8ByteSize then .error .tooLong
  if text.head? = some '/' then
    .ok ⟨none, ← readPath text⟩
  else
    match ← afterScheme? text with
    | some rest =>
      let (authority, rest) ← splitAuthority rest
      if authority.isEmpty then .error .format
      .ok ⟨some authority, ← readPath rest⟩
    | none =>
      let (authority, rest) ← splitAuthority text
      if !rest.isEmpty then .error .format
      .ok ⟨some authority, []⟩

/-- What follows the last of these characters, all of the text if there is none. -/
def afterLast (mark : Char) (text : List Char) : List Char :=
  (text.reverse.takeWhile (· ≠ mark)).reverse

/-- The host of an authority: what follows the user, through the closing bracket if it begins
with a bracket and otherwise up to the port. -/
def host (authority : List Char) : List Char :=
  match afterLast '@' authority with
  | '[' :: rest => '[' :: rest.takeWhile (· ≠ ']') ++ [']']
  | text => text.takeWhile (· ≠ ':')

/-- The number that a port writes, with a plus sign or not, if it is one of sixteen bits. -/
def portNumber? (text : List Char) : Option Nat :=
  (Text.decimal? (Text.dropPlus text)).filter (· ≤ 0xffff)

/-- The number after the last colon of an authority, if a port stands there. -/
def port? (authority : List Char) : Option Nat :=
  if authority.contains ':' then portNumber? (afterLast ':' authority) else none

end Uri

end ApiManifest
