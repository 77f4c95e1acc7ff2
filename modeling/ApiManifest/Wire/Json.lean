import ApiManifest.Json.Printer
import ApiManifest.Wire

/-!
Values as JSON text on several lines: each entry and item on a line of its own, indented by two,
fields in the order in which they are written, and a break at the end.
-/

namespace ApiManifest.Wire

def jsonBreak (depth : Nat) : List Char :=
  '\n' :: List.replicate (2 * depth) ' '

def jsonKey (key : String) : List Char :=
  (Json.quote key).toList ++ [':', ' ']

mutual

/-- The value, where its entries or items stand this deep. -/
def jsonValue (depth : Nat) : Wire → List Char
  | .bool value => (if value then "true" else "false").toList
  | .int value => (toString value).toList
  | .string text => (Json.quote text).toList
  | .list [] => "[]".toList
  | .list (item :: rest) =>
    '[' :: jsonBreak depth ++ jsonValue (depth + 1) item ++ jsonItems depth rest
      ++ jsonBreak (depth - 1) ++ [']']
  | .record [] => "\x7b\x7d".toList
  | .record ((key, value) :: rest) =>
    '\x7b' :: jsonBreak depth ++ jsonKey key ++ jsonValue (depth + 1) value
      ++ jsonEntries depth rest ++ jsonBreak (depth - 1) ++ ['\x7d']
  | .variant tag payload =>
    '\x7b' :: jsonBreak depth ++ jsonKey tag ++ jsonValue (depth + 1) payload
      ++ jsonBreak (depth - 1) ++ ['\x7d']

def jsonItems (depth : Nat) : List Wire → List Char
  | [] => []
  | item :: rest =>
    ',' :: jsonBreak depth ++ jsonValue (depth + 1) item ++ jsonItems depth rest

def jsonEntries (depth : Nat) : List (String × Wire) → List Char
  | [] => []
  | (key, value) :: rest =>
    ',' :: jsonBreak depth ++ jsonKey key ++ jsonValue (depth + 1) value ++ jsonEntries depth rest

end

def toJsonText (value : Wire) : String :=
  String.ofList (jsonValue 1 value ++ ['\n'])

end ApiManifest.Wire
