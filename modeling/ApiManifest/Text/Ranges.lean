/-!
Sets of characters given by ranges of code points.
-/

namespace ApiManifest.Text

/-- Whether a code point lies in one of the ranges, both ends included. -/
def inRanges (ranges : List (Nat × Nat)) (code : Nat) : Bool :=
  ranges.any (fun range => decide (range.1 ≤ code ∧ code ≤ range.2))

end ApiManifest.Text
