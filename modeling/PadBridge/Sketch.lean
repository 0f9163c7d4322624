import PadBridge.Layout
import PadBridge.Mapping

/-!
The firmware function a mapping is compiled to.  It clears the buffer and then holds one block for
every button with a destination: the digital buttons first, then the C-Stick, each in vocabulary
order.  A button that is unassigned or whose destination is unknown has no block.
-/

namespace PadBridge

/-- One block of the function: while `source` is pressed, the bit of `destination` is set. -/
structure Rule where
  source : GameCubeButton
  destination : N64Button
deriving Repr, DecidableEq

namespace Mapping

/-- The block of every button that has a destination, in vocabulary order. -/
def rules (mapping : Mapping) : List Rule :=
  mapping.entries.filterMap fun entry => entry.2.button?.map (Rule.mk entry.1)

/-- There is a rule for a source exactly if its target is a button. -/
theorem mem_rules (mapping : Mapping) (rule : Rule) :
    rule ∈ mapping.rules ↔ mapping.get rule.source = .button rule.destination := by
  rcases rule with ⟨source, destination⟩
  simp only [rules, entries, List.mem_filterMap, List.mem_map]
  constructor
  · rintro ⟨_, ⟨button, _, rfl⟩, hrule⟩
    cases htarget : mapping.get button <;> simp [htarget, Target.button?] at hrule
    obtain ⟨rfl, rfl⟩ := hrule
    exact htarget
  · intro htarget
    exact ⟨_, ⟨source, source.mem_all, rfl⟩, by simp [htarget, Target.button?]⟩

/-- The buttons that are left out because their destination is unknown, with its name. -/
def skipped (mapping : Mapping) : List (GameCubeButton × String) :=
  mapping.entries.filterMap fun entry =>
    match entry.2 with
    | .unknown name => some (entry.1, name)
    | _ => none

end Mapping

/-- A byte as two upper-case hexadecimal digits. -/
def hexDigits (byte : UInt8) : String :=
  let digit (value : Nat) : Char := Char.ofNat (if value < 10 then 48 + value else 55 + value)
  String.ofList [digit (byte.toNat / 16), digit (byte.toNat % 16)]

/-- A byte as the firmware's language writes it. -/
def hexLiteral (byte : UInt8) : String :=
  "0x" ++ hexDigits byte

namespace Condition

/-- What is read from the status record, the operator, and what it is held against. -/
def expression : Condition → String
  | .bit tested =>
      statusVariable ++ "." ++ tested.register.field ++ " & " ++ hexLiteral tested.mask
  | .stick test =>
      statusVariable ++ "." ++ test.axis.field ++ " " ++ test.comparison.symbol ++ " "
        ++ hexLiteral test.threshold

end Condition

/-- The assignment that sets a bit of the buffer. -/
def BufferBit.assignment (bit : BufferBit) : String :=
  bufferVariable ++ "[" ++ toString bit.index.val ++ "] |= " ++ hexLiteral bit.mask

namespace Sketch

def blockLines (rule : Rule) : List String :=
  ["    // Map " ++ rule.source.name ++ " to " ++ rule.destination.name,
    "    if (" ++ rule.source.condition.expression ++ ") \x7b",
    "        " ++ rule.destination.bit.assignment ++ ";",
    "    \x7d",
    ""]

/-- What stands before the blocks. -/
def opening : List String :=
  ["// Button mapping function",
    "void " ++ functionName ++ "() \x7b",
    "    // Clear the N64 buffer",
    "    memset(" ++ bufferVariable ++ ", 0, sizeof(" ++ bufferVariable ++ "));",
    ""]

/-- The line between the digital buttons and the C-Stick. -/
def stickHeading : String := "    // C-Stick mappings"

def lines (rules : List Rule) : List String :=
  let digital := rules.filter fun rule => rule.source.statusBit?.isSome
  let stick := rules.filter fun rule => rule.source.stickDirection?.isSome
  opening ++ digital.flatMap blockLines ++ [stickHeading] ++ stick.flatMap blockLines ++ ["\x7d"]

/-- Lines as text, each with its line end. -/
def ofLines (lines : List String) : String :=
  String.join (lines.map (· ++ "\n"))

end Sketch

/-- The text of the firmware function of a mapping. -/
def Mapping.generate (mapping : Mapping) : String :=
  Sketch.ofLines (Sketch.lines mapping.rules)

end PadBridge
