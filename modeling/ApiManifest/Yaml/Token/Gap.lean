import ApiManifest.Yaml.Cursor

/-!
The white space between two pieces of a scalar that runs over several lines. Blanks inside a line
are kept; a single line break becomes a space, and further breaks stand for themselves.
-/

namespace ApiManifest.Yaml

structure Gap where
  blanks : List Char := []
  first : Option Char := none
  later : List Char := []
  broken : Bool := false

namespace Gap

def addBlank (gap : Gap) (c : Char) : Gap :=
  if gap.broken then gap else { gap with blanks := gap.blanks ++ [c] }

def addBreak (gap : Gap) (c : Char) : Gap :=
  if gap.broken then { gap with later := gap.later ++ [c] }
  else { gap with blanks := [], first := some c, broken := true }

/-- The text that stands for the gap. -/
def fold (gap : Gap) : List Char :=
  if gap.broken then
    match gap.first with
    | some '\n' => if gap.later.isEmpty then [' '] else gap.later
    | some c => c :: gap.later
    | none => gap.later
  else gap.blanks

/-- Reads blanks and breaks. Where a least column is given, a tab before it on a new line is
refused. -/
def read (least : Option Nat) (gap : Gap) (cursor : Cursor) : Nat → Option (Gap × Cursor)
  | 0 => some (gap, cursor)
  | fuel + 1 =>
    match cursor.rest with
    | [] => some (gap, cursor)
    | c :: _ =>
      if isBlank c then
        if gap.broken && c = '\t' && least.any (fun column => cursor.column < column) then none
        else read least (gap.addBlank c) (cursor.skip 1) fuel
      else if isBreak c then read least (gap.addBreak c) cursor.skipBreak fuel
      else some (gap, cursor)

end Gap

end ApiManifest.Yaml
