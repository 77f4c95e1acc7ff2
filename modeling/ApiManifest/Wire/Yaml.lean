import ApiManifest.Wire
import ApiManifest.Yaml.Written

/-!
Values as YAML text in block style. Records are indented by two, lists under a key stand at the
column of the key, and a variant is written as a tag in front of what it carries. A collection
that is the item of a list begins on the line of its dash.
-/

namespace ApiManifest.Wire

open Yaml.Written (pad)

/-- Where a value stands: what comes between the mark in front of it and a scalar or the first
entry of a collection, whether a collection begins on the same line, and the columns of a record,
of a list, of a list under a tag, and of further lines of a scalar. -/
structure Spot where
  lead : List Char
  inline : Bool
  recordColumn : Nat
  listColumn : Nat
  taggedListColumn : Nat
  scalarColumn : Nat

namespace Spot

/-- The value is all there is. -/
def root : Spot :=
  ⟨[], true, 0, 0, 0, 2⟩

/-- After a key and its colon, in a record at that column. -/
def afterKey (column : Nat) : Spot :=
  ⟨[' '], false, column + 2, column, column, column + 2⟩

/-- After the dash of an item, in a list at that column. -/
def afterDash (column : Nat) : Spot :=
  ⟨[' '], true, column + 2, column + 2, column + 2, column + 2⟩

/-- After a colon on a line of its own, in a record at that column. -/
def afterColon (column : Nat) : Spot :=
  ⟨[' '], true, column + 2, column + 2, column, column + 2⟩

def afterTag (spot : Spot) : Spot :=
  { spot with lead := [' '], inline := false, listColumn := spot.taggedListColumn }

/-- What comes before the first entry of a collection at that column. -/
def opening (spot : Spot) (column : Nat) : List Char :=
  if spot.inline then spot.lead else '\n' :: pad column

end Spot

/-- A key and what stands before its value: a colon on the same line if the key is simple. -/
def yamlKey (column : Nat) (key : List Char) : List Char × Spot :=
  if Yaml.Written.isSimpleKey key then
    (Yaml.Written.simpleKey key ++ [':'], .afterKey column)
  else
    ('?' :: ' ' :: Yaml.Written.scalar (column + 2) key ++ pad column ++ [':'], .afterColon column)

mutual

/-- The value and the break that ends its last line. -/
def yamlValue (spot : Spot) : Wire → List Char
  | .bool value => spot.lead ++ (if value then "true" else "false").toList ++ ['\n']
  | .int value => spot.lead ++ (toString value).toList ++ ['\n']
  | .string text => spot.lead ++ Yaml.Written.scalar spot.scalarColumn text.toList
  | .list [] => spot.lead ++ "[]\n".toList
  | .list (item :: rest) =>
    spot.opening spot.listColumn ++ '-' :: yamlValue (.afterDash spot.listColumn) item
      ++ yamlItems spot.listColumn rest
  | .record [] => spot.lead ++ "\x7b\x7d\n".toList
  | .record ((key, value) :: rest) =>
    let (start, after) := yamlKey spot.recordColumn key.toList
    spot.opening spot.recordColumn ++ start ++ yamlValue after value
      ++ yamlEntries spot.recordColumn rest
  | .variant tag payload => spot.lead ++ '!' :: tag.toList ++ yamlValue spot.afterTag payload

/-- Further items of a list at a column. -/
def yamlItems (column : Nat) : List Wire → List Char
  | [] => []
  | item :: rest =>
    pad column ++ '-' :: yamlValue (.afterDash column) item ++ yamlItems column rest

/-- Further entries of a record at a column. -/
def yamlEntries (column : Nat) : List (String × Wire) → List Char
  | [] => []
  | (key, value) :: rest =>
    let (start, after) := yamlKey column key.toList
    pad column ++ start ++ yamlValue after value ++ yamlEntries column rest

end

def toYaml (value : Wire) : String :=
  String.ofList (yamlValue .root value)

end ApiManifest.Wire
