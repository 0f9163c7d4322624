import PadBridge.Text.Utf8

/-!
Paths as byte strings.  Most questions about a path are about its components: what stands between
slashes, apart from empty pieces and from single dots behind the first place.
-/

namespace PadBridge

/-- A path as it was given. -/
structure Path where
  bytes : List UInt8
deriving Repr, DecidableEq

/-- One step of a path. -/
inductive Component where
  | root
  /-- A single dot, which counts only at the start. -/
  | current
  /-- Two dots. -/
  | up
  | name (bytes : List UInt8)
deriving Repr, DecidableEq

namespace Path

def slash : UInt8 := 0x2F
def dot : UInt8 := 0x2E

/-- Split a byte string at every slash; there is always at least one piece. -/
def pieces : List UInt8 → List (List UInt8)
  | [] => [[]]
  | byte :: rest =>
      if byte = slash then [] :: pieces rest
      else
        match pieces rest with
        | [] => [[byte]]
        | piece :: more => (byte :: piece) :: more

/-- What a piece behind the first place stands for. -/
def component? (piece : List UInt8) : Option Component :=
  if piece = [] ∨ piece = [dot] then none
  else if piece = [dot, dot] then some .up
  else some (.name piece)

def isAbsolute (path : Path) : Bool :=
  path.bytes.head? = some slash

/-- Whether a path without root starts with a single dot. -/
def startsAtCurrent (path : Path) : Bool :=
  (pieces path.bytes).head? = some [dot]

/-- The steps of a path. -/
def components (path : Path) : List Component :=
  let start :=
    if path.isAbsolute then [Component.root]
    else if path.startsAtCurrent then [.current]
    else []
  start ++ (pieces path.bytes).filterMap component?

/-- Put a relative path behind another one. -/
def join (base rest : Path) : Path :=
  if base.bytes = [] ∨ base.bytes.getLast? = some slash then ⟨base.bytes ++ rest.bytes⟩
  else ⟨base.bytes ++ slash :: rest.bytes⟩

/-- The spelling of the first step if it is the root or a single dot; else nothing. -/
def opening (path : Path) : List UInt8 :=
  if path.isAbsolute ∨ path.startsAtCurrent then path.bytes.take 1 else []

/-- What stands between slashes behind the opening, the last piece first. -/
def body (path : Path) : List (List UInt8) :=
  (pieces (path.bytes.drop path.opening.length)).reverse

/-- A path by its opening and its body. -/
def spelled (opening : List UInt8) (body : List (List UInt8)) : Path :=
  ⟨opening ++ [slash].intercalate body.reverse⟩

/-- Leave out the pieces in front that are no steps. -/
def toStep (body : List (List UInt8)) : List (List UInt8) :=
  body.dropWhile fun piece => (component? piece).isNone

/-- The path without its last step and what stands around it, spelled as before; the empty path and
the root have none to give up. -/
def parent? (path : Path) : Option Path :=
  match path.components.getLast? with
  | none | some .root => none
  | some .current => some ⟨[]⟩
  | some _ => some (spelled path.opening (toStep (toStep path.body).tail))

/-- The paths of the steps behind an opening, the longest one first. -/
def stepsFrom (opening : List UInt8) : List (List UInt8) → List Path
  | [] => []
  | piece :: before =>
      if (component? piece).isNone then stepsFrom opening before
      else spelled opening (piece :: before) :: stepsFrom opening before

/-- The path itself and the ones on the way to it that end with a step, the longest one first. -/
def waypoints (path : Path) : List Path :=
  stepsFrom path.opening path.body

/-- The last step, if it is a name. -/
def fileName? (path : Path) : Option (List UInt8) :=
  match path.components.getLast? with
  | some (.name bytes) => some bytes
  | _ => none

/-- A path as it is shown: what is not UTF-8 is replaced. -/
def shown (path : Path) : String :=
  Utf8.shown path.bytes

def ofString (text : String) : Path :=
  ⟨Utf8.bytesOf text⟩

/-- Two spellings of the same steps. -/
def agrees (left right : Path) : Bool :=
  left.components = right.components

theorem agrees_iff (left right : Path) :
    left.agrees right = true ↔ left.components = right.components := by
  simp [agrees]

end Path

end PadBridge
