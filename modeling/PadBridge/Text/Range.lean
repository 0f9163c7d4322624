/-!
Sets of characters, as ranges of their numbers.
-/

namespace PadBridge.Text

/-- Whether the number of a character lies in one of some ranges, both ends included. -/
def inRanges (ranges : List (Nat × Nat)) (c : Char) : Bool :=
  ranges.any fun range => range.1 ≤ c.toNat && c.toNat ≤ range.2

end PadBridge.Text
