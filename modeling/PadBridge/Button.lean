/-!
The buttons of the two controllers and their names.  A name is matched exactly, and a name that
no button has is answered with the whole vocabulary of its controller.  The constructors stand in
vocabulary order: every listing of the library runs over `all`.
-/

namespace PadBridge

/-- The two ends of the adapter. -/
inductive Controller where
  | gameCube
  | n64
deriving Repr, DecidableEq

/-- A direction in which the C-Stick can be pushed. -/
inductive StickDirection where
  | up
  | down
  | left
  | right
deriving Repr, DecidableEq

/-- Up and down move the stick along its vertical axis. -/
def StickDirection.isVertical : StickDirection → Bool
  | .up | .down => true
  | .left | .right => false

/-- Up and right raise the reading of their axis. -/
def StickDirection.isPositive : StickDirection → Bool
  | .up | .right => true
  | .down | .left => false

def StickDirection.name : StickDirection → String
  | .up => "Up"
  | .down => "Down"
  | .left => "Left"
  | .right => "Right"

/-- A button of the GameCube controller, the source of a mapping.  The four directions of the
C-Stick count as buttons. -/
inductive GameCubeButton where
  | a
  | b
  | x
  | y
  | start
  | l
  | r
  | z
  | dUp
  | dDown
  | dLeft
  | dRight
  | cStickUp
  | cStickDown
  | cStickLeft
  | cStickRight
deriving Repr, DecidableEq

/-- A button of the N64 controller, the destination of a mapping. -/
inductive N64Button where
  | a
  | b
  | z
  | start
  | l
  | r
  | dUp
  | dDown
  | dLeft
  | dRight
  | cUp
  | cDown
  | cLeft
  | cRight
deriving Repr, DecidableEq

/-- In a list that holds everything, looking up an injective name finds its owner. -/
theorem find?_name_eq_some_iff {α : Type} {all : List α} {name : α → String}
    (hall : ∀ button, button ∈ all)
    (hinjective : ∀ {left right}, name left = name right → left = right)
    {wanted : String} {button : α} :
    all.find? (fun candidate => name candidate = wanted) = some button ↔
      name button = wanted := by
  constructor
  · intro h
    simpa using List.find?_some h
  · rintro rfl
    cases hfound : all.find? fun candidate => name candidate = name button with
    | none => simpa using List.find?_eq_none.mp hfound button (hall button)
    | some other =>
        have hsame : name other = name button := by
          simpa using List.find?_some hfound
        rw [hinjective hsame]

namespace GameCubeButton

/-- The vocabulary, in the order in which buttons are listed and compiled. -/
def all : List GameCubeButton :=
  [.a, .b, .x, .y, .start, .l, .r, .z, .dUp, .dDown, .dLeft, .dRight,
    .cStickUp, .cStickDown, .cStickLeft, .cStickRight]

def name : GameCubeButton → String
  | .a => "A"
  | .b => "B"
  | .x => "X"
  | .y => "Y"
  | .start => "Start"
  | .l => "L"
  | .r => "R"
  | .z => "Z"
  | .dUp => "DUp"
  | .dDown => "DDown"
  | .dLeft => "DLeft"
  | .dRight => "DRight"
  | .cStickUp => "CStick Up"
  | .cStickDown => "CStick Down"
  | .cStickLeft => "CStick Left"
  | .cStickRight => "CStick Right"

/-- The direction a C-Stick button stands for; the other buttons have none. -/
def stickDirection? : GameCubeButton → Option StickDirection
  | .cStickUp => some .up
  | .cStickDown => some .down
  | .cStickLeft => some .left
  | .cStickRight => some .right
  | _ => none

/-- The place in the vocabulary, by which buttons are sorted. -/
def rank (button : GameCubeButton) : Nat :=
  all.idxOf button

def ofName? (name : String) : Option GameCubeButton :=
  all.find? fun button => button.name = name

theorem mem_all (button : GameCubeButton) : button ∈ all := by
  cases button <;> decide

theorem all_nodup : all.Nodup := by
  decide

theorem name_injective {left right : GameCubeButton} (h : left.name = right.name) :
    left = right := by
  cases left <;> cases right <;> first | rfl | simp [name] at h

/-- Reading a name gives the button of that name and no other. -/
theorem ofName?_eq_some_iff {name : String} {button : GameCubeButton} :
    ofName? name = some button ↔ button.name = name :=
  find?_name_eq_some_iff mem_all name_injective

@[simp] theorem ofName?_name (button : GameCubeButton) :
    ofName? button.name = some button :=
  ofName?_eq_some_iff.mpr rfl

theorem ofName?_eq_none_iff {name : String} :
    ofName? name = none ↔ ∀ button : GameCubeButton, button.name ≠ name := by
  rw [ofName?, List.find?_eq_none]
  simp [mem_all]

end GameCubeButton

namespace N64Button

/-- The vocabulary, in the order in which buttons are listed. -/
def all : List N64Button :=
  [.a, .b, .z, .start, .l, .r, .dUp, .dDown, .dLeft, .dRight, .cUp, .cDown, .cLeft, .cRight]

def name : N64Button → String
  | .a => "A"
  | .b => "B"
  | .z => "Z"
  | .start => "Start"
  | .l => "L"
  | .r => "R"
  | .dUp => "DUp"
  | .dDown => "DDown"
  | .dLeft => "DLeft"
  | .dRight => "DRight"
  | .cUp => "CUp"
  | .cDown => "CDown"
  | .cLeft => "CLeft"
  | .cRight => "CRight"

/-- The place in the vocabulary, by which buttons are sorted. -/
def rank (button : N64Button) : Nat :=
  all.idxOf button

def ofName? (name : String) : Option N64Button :=
  all.find? fun button => button.name = name

theorem mem_all (button : N64Button) : button ∈ all := by
  cases button <;> decide

theorem name_injective {left right : N64Button} (h : left.name = right.name) :
    left = right := by
  cases left <;> cases right <;> first | rfl | simp [name] at h

/-- Reading a name gives the button of that name and no other. -/
theorem ofName?_eq_some_iff {name : String} {button : N64Button} :
    ofName? name = some button ↔ button.name = name :=
  find?_name_eq_some_iff mem_all name_injective

theorem ofName?_eq_none_iff {name : String} :
    ofName? name = none ↔ ∀ button : N64Button, button.name ≠ name := by
  rw [ofName?, List.find?_eq_none]
  simp [mem_all]

end N64Button

namespace Controller

def label : Controller → String
  | .gameCube => "GameCube"
  | .n64 => "N64"

/-- The names a button of this controller may be called by. -/
def buttonNames : Controller → List String
  | .gameCube => GameCubeButton.all.map GameCubeButton.name
  | .n64 => N64Button.all.map N64Button.name

end Controller

/-- A name that is not in a controller's vocabulary. -/
structure UnknownButton where
  controller : Controller
  name : String
deriving Repr, DecidableEq

/-- The name stands in the message as it was given. -/
def UnknownButton.message (unknown : UnknownButton) : String :=
  "unknown " ++ unknown.controller.label ++ " button `" ++ unknown.name
    ++ "`, expected one of: " ++ ", ".intercalate unknown.controller.buttonNames

def GameCubeButton.ofName (name : String) : Except UnknownButton GameCubeButton :=
  match ofName? name with
  | some button => .ok button
  | none => .error ⟨.gameCube, name⟩

def N64Button.ofName (name : String) : Except UnknownButton N64Button :=
  match ofName? name with
  | some button => .ok button
  | none => .error ⟨.n64, name⟩

/-- Buttons in vocabulary order, repetitions kept. -/
def GameCubeButton.sort (buttons : List GameCubeButton) : List GameCubeButton :=
  buttons.mergeSort fun left right => left.rank ≤ right.rank

/-- Buttons in vocabulary order, repetitions kept. -/
def N64Button.sort (buttons : List N64Button) : List N64Button :=
  buttons.mergeSort fun left right => left.rank ≤ right.rank

end PadBridge
