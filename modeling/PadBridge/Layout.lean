import PadBridge.Button

/-!
Where the buttons live.  The adapter reads the GameCube controller into a status record and fills
a two byte buffer for the N64.  A digital button is one bit of a status register, a direction of
the C-Stick is a threshold on one axis, and every N64 button is one bit of the buffer.
-/

namespace PadBridge

/-- A status register that holds button bits. -/
inductive Register where
  | data1
  | data2
deriving Repr, DecidableEq

def Register.field : Register → String
  | .data1 => "data1"
  | .data2 => "data2"

/-- An axis of the C-Stick. -/
inductive StickAxis where
  | x
  | y
deriving Repr, DecidableEq

def StickAxis.field : StickAxis → String
  | .x => "cstick_x"
  | .y => "cstick_y"

inductive Comparison where
  | above
  | below
deriving Repr, DecidableEq

def Comparison.symbol : Comparison → String
  | .above => ">"
  | .below => "<"

/-- The bits `mask` of one status register. -/
structure StatusBit where
  register : Register
  mask : UInt8
deriving Repr, DecidableEq

/-- The bits `mask` of one byte of the N64 buffer. -/
structure BufferBit where
  index : Fin 2
  mask : UInt8
deriving Repr, DecidableEq

/-- The reading of one axis compared with a threshold. -/
structure StickTest where
  axis : StickAxis
  comparison : Comparison
  threshold : UInt8
deriving Repr, DecidableEq

/-- How it is seen that a GameCube button is pressed. -/
inductive Condition where
  | bit (tested : StatusBit)
  | stick (test : StickTest)
deriving Repr, DecidableEq

/-- An axis reads above this when the stick is pushed up or right. -/
def stickHigh : UInt8 := 0xB0

/-- An axis reads below this when the stick is pushed down or left. -/
def stickLow : UInt8 := 0x50

def StickDirection.test (direction : StickDirection) : StickTest where
  axis := if direction.isVertical then .y else .x
  comparison := if direction.isPositive then .above else .below
  threshold := if direction.isPositive then stickHigh else stickLow

namespace GameCubeButton

def condition : GameCubeButton → Condition
  | .a => .bit ⟨.data1, 0x01⟩
  | .b => .bit ⟨.data1, 0x02⟩
  | .x => .bit ⟨.data1, 0x04⟩
  | .y => .bit ⟨.data1, 0x08⟩
  | .start => .bit ⟨.data1, 0x10⟩
  | .l => .bit ⟨.data2, 0x40⟩
  | .r => .bit ⟨.data2, 0x20⟩
  | .z => .bit ⟨.data2, 0x10⟩
  | .dUp => .bit ⟨.data2, 0x08⟩
  | .dDown => .bit ⟨.data2, 0x04⟩
  | .dRight => .bit ⟨.data2, 0x02⟩
  | .dLeft => .bit ⟨.data2, 0x01⟩
  | .cStickUp => .stick StickDirection.up.test
  | .cStickDown => .stick StickDirection.down.test
  | .cStickLeft => .stick StickDirection.left.test
  | .cStickRight => .stick StickDirection.right.test

/-- The status bit of a digital button; the C-Stick directions have none. -/
def statusBit? (button : GameCubeButton) : Option StatusBit :=
  match button.condition with
  | .bit tested => some tested
  | .stick _ => none

theorem statusBit?_isNone_iff (button : GameCubeButton) :
    button.statusBit?.isNone ↔ button.stickDirection?.isSome := by
  cases button <;> decide

end GameCubeButton

def N64Button.bit : N64Button → BufferBit
  | .a => ⟨0, 0x80⟩
  | .b => ⟨0, 0x40⟩
  | .z => ⟨0, 0x20⟩
  | .start => ⟨0, 0x10⟩
  | .dUp => ⟨0, 0x08⟩
  | .dDown => ⟨0, 0x04⟩
  | .dLeft => ⟨0, 0x02⟩
  | .dRight => ⟨0, 0x01⟩
  | .l => ⟨1, 0x20⟩
  | .r => ⟨1, 0x10⟩
  | .cUp => ⟨1, 0x08⟩
  | .cDown => ⟨1, 0x04⟩
  | .cLeft => ⟨1, 0x02⟩
  | .cRight => ⟨1, 0x01⟩

theorem N64Button.bit_injective {left right : N64Button} (h : left.bit = right.bit) :
    left = right := by
  revert h
  cases left <;> cases right <;> decide

/-- What the adapter reads from a GameCube controller. -/
structure PadStatus where
  data1 : UInt8
  data2 : UInt8
  cStickX : UInt8
  cStickY : UInt8
deriving Repr, DecidableEq

namespace PadStatus

def register (status : PadStatus) : Register → UInt8
  | .data1 => status.data1
  | .data2 => status.data2

def axis (status : PadStatus) : StickAxis → UInt8
  | .x => status.cStickX
  | .y => status.cStickY

/-- Whether a condition holds of a status: some bit of the mask is set, or the axis lies strictly
beyond the threshold. -/
def satisfies (status : PadStatus) : Condition → Bool
  | .bit tested => status.register tested.register &&& tested.mask != 0
  | .stick ⟨axis, .above, threshold⟩ => threshold < status.axis axis
  | .stick ⟨axis, .below, threshold⟩ => status.axis axis < threshold

def isPressed (status : PadStatus) (button : GameCubeButton) : Bool :=
  status.satisfies button.condition

end PadStatus

/-- Names in the adapter's firmware. -/
def functionName : String := "mapGamecubeToN64"

/-- The status record, as the firmware calls it. -/
def statusVariable : String := "gc_status"

/-- The buffer sent to the N64, as the firmware calls it. -/
def bufferVariable : String := "n64_buffer"

end PadBridge
