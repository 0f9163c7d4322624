/-!
Padding a text with spaces to a width.  The width counts characters, and a text that is wider
already is left as it is.
-/

namespace PadBridge.Text

/-- Where a text stands in its field. -/
inductive Alignment where
  | left
  | centre
  | right
deriving Repr, DecidableEq

/-- How many spaces stand before a text, of those that are missing.  Of an odd number the larger
half follows a centred text. -/
def Alignment.leading : Alignment → Nat → Nat
  | .left, _ => 0
  | .centre, missing => missing / 2
  | .right, missing => missing

/-- Pad a text with spaces on the sides that its alignment leaves open. -/
def pad (alignment : Alignment) (width : Nat) (text : String) : String :=
  let missing := width - text.length
  let leading := alignment.leading missing
  String.ofList
    (List.replicate leading ' ' ++ text.toList ++ List.replicate (missing - leading) ' ')

end PadBridge.Text
