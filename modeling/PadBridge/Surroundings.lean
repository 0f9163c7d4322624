import PadBridge.FileTree.Basic

/-!
What a run of the program finds around it and does not change.
-/

namespace PadBridge

/-- The home directory of the user, if it can be found out. -/
inductive Home where
  | unknown
  | known (directory : Path)
deriving Repr, DecidableEq

/-- The home directory by its name. -/
def Home.ofString (name : String) : Home :=
  .known (.ofString name)

structure Surroundings where
  /-- The directory that relative paths start from. -/
  workDirectory : Location
  home : Home
  /-- The directory for settings, if the user chose one. -/
  configHome : Option Path
  /-- The mapping document, if the user chose one for all runs. -/
  mapping : Option Path
  /-- The log filter, if the user chose one. -/
  logFilter : Option (List UInt8)
deriving Repr, DecidableEq

end PadBridge
