import PadBridge.Button
import PadBridge.Ledger
import PadBridge.Text.Pad

/-!
A mapping says for every GameCube button what it does on the N64.  It also carries the entries of
a mapping document that name no button, so that writing the document again does not lose them.
-/

namespace PadBridge

/-- What a GameCube button is mapped to.  A destination that is no N64 button is kept by name. -/
inductive Target where
  | unassigned
  | button (destination : N64Button)
  | unknown (name : String)
deriving Repr, DecidableEq

namespace Target

/-- The name by which a document leaves a button without destination. -/
def noneName : String := "None"

def name : Target → String
  | .unassigned => noneName
  | .button destination => destination.name
  | .unknown name => name

/-- Read a destination by name.  Every name is read; those outside the vocabulary are unknown. -/
def ofName (name : String) : Target :=
  if name = noneName then .unassigned
  else
    match N64Button.ofName? name with
    | some destination => .button destination
    | none => .unknown name

/-- A target is shown by its name alone, in a field of any width. -/
def inField (target : Target) (_alignment : Text.Alignment) (_width : Nat) : String :=
  target.name

def button? : Target → Option N64Button
  | .button destination => some destination
  | _ => none

@[simp] theorem name_ofName (name : String) : (ofName name).name = name := by
  unfold ofName
  by_cases hnone : name = noneName
  · simp [hnone, Target.name]
  · rw [if_neg hnone]
    cases hread : N64Button.ofName? name with
    | none => rfl
    | some destination => exact N64Button.ofName?_eq_some_iff.mp hread

end Target

/-- The destination a button has from the factory. -/
def GameCubeButton.factory : GameCubeButton → N64Button
  | .a => .a
  | .b => .b
  | .x => .cRight
  | .y => .cLeft
  | .start => .start
  | .l => .l
  | .r => .r
  | .z => .z
  | .dUp => .dUp
  | .dDown => .dDown
  | .dLeft => .dLeft
  | .dRight => .dRight
  | .cStickUp => .cUp
  | .cStickDown => .cDown
  | .cStickLeft => .cLeft
  | .cStickRight => .cRight

/-- The target of every button, and the document entries that name no button. -/
structure Mapping where
  get : GameCubeButton → Target
  extra : Ledger

namespace Mapping

/-- The mapping every button starts out with. -/
def factory : Mapping where
  get button := .button button.factory
  extra := .empty

def set (mapping : Mapping) (source : GameCubeButton) (target : Target) : Mapping :=
  { mapping with get := fun button => if button = source then target else mapping.get button }

/-- The mapping that assigns nothing. -/
def unassigned : Mapping :=
  GameCubeButton.all.foldl (fun mapping source => mapping.set source .unassigned) factory

/-- Forget the targets and the other entries. -/
def reset (mapping : Mapping) : Mapping :=
  { mapping with
    get := fun button => .button button.factory
    extra := mapping.extra.clear }

/-- Keep an entry that names no button. -/
def setExtra (mapping : Mapping) (key value : String) : Mapping :=
  { mapping with extra := mapping.extra.insert key value }

/-- Every button with its target, in vocabulary order. -/
def entries (mapping : Mapping) : List (GameCubeButton × Target) :=
  GameCubeButton.all.map fun button => (button, mapping.get button)

/-- Two mappings agree when every button has the same target and the same extra entries are kept,
in whatever order. -/
def agrees (left right : Mapping) : Bool :=
  left.entries == right.entries && left.extra.sameTexts right.extra

@[simp] theorem get_set (mapping : Mapping) (source button : GameCubeButton) (target : Target) :
    (mapping.set source target).get button =
      if button = source then target else mapping.get button :=
  rfl


@[simp] theorem get_unassigned (button : GameCubeButton) : unassigned.get button = .unassigned := by
  cases button <;> rfl

@[simp] theorem extra_unassigned : unassigned.extra = .empty :=
  rfl


end Mapping

end PadBridge
