import PadBridge.Run.Reach

/-!
The program on a real file system.  The part of the file system that the run can reach is copied
into a tree, the run is carried out on the tree, and what it changed there is written back.
-/

namespace PadBridge.Main

/-- The name of a location. -/
def nameOf (location : Location) : String :=
  "/" ++ "/".intercalate (location.map Utf8.shown)

/-- What is at a location. -/
def lookAt (location : Location) : IO (Option Node) := do
  try
    let path ← IO.FS.realPath (nameOf location)
    if ← path.isDir then return some .directory
    return some (.file (← IO.FS.readBinFile path).toList)
  catch _ => return none

/-- Copy what lies on a path into a tree. -/
def survey (workDirectory : Location) (tree : FileTree) (path : Path) : IO FileTree := do
  let mut tree := tree
  let mut here := FileTree.start workDirectory path
  for piece in Path.pieces path.bytes do
    match tree.follow here piece with
    | .error _ => return tree
    | .ok next =>
        if (tree.get? next).isNone then
          if let some node ← lookAt next then tree := tree.put next node
        here := next
  return tree

/-- The tree that holds a directory and the ones above it. -/
def treeOf (directory : Location) : FileTree :=
  (List.range directory.length).foldl
    (fun tree count => tree.put (directory.take (count + 1)) .directory) .empty

def locationOf (path : Path) : Location :=
  (Path.pieces path.bytes).filter (· ≠ [])

def bytesOf (text : String) : List UInt8 :=
  Utf8.bytesOf text

/-- The home directory by its variable, which has to name one. -/
def homeOf : Option String → Home
  | some name => if name.isEmpty then .unknown else .ofString name
  | none => .unknown

def surroundings : IO Surroundings := do
  let directory ← IO.currentDir
  let home ← IO.getEnv "HOME"
  let configHome ← IO.getEnv "XDG_CONFIG_HOME"
  let mapping ← IO.getEnv "GC2N64_MAPPING"
  let logFilter ← IO.getEnv "RUST_LOG"
  return {
    workDirectory := locationOf (.ofString directory.toString)
    home := homeOf home
    configHome := configHome.map Path.ofString
    mapping := mapping.map Path.ofString
    logFilter := logFilter.map bytesOf }

/-- Write a file beside its place and move it there. -/
def writeFile (location : Location) (bytes : List UInt8) : IO Unit := do
  let name := nameOf location
  let draft := name ++ ".draft"
  IO.FS.writeBinFile draft (ByteArray.mk bytes.toArray)
  IO.FS.rename draft name

/-- Write back what a run changed, the upper directories first. -/
def writeBack (before after : FileTree) : IO Unit := do
  let changed := after.nodes.filter fun entry => before.get? entry.1 ≠ some entry.2
  let ordered := changed.mergeSort fun left right => left.1.length ≤ right.1.length
  for (location, node) in ordered do
    match node with
    | .directory => IO.FS.createDirAll (nameOf location)
    | .file bytes => writeFile location bytes

end PadBridge.Main

open PadBridge in
def main (arguments : List String) : IO UInt32 := do
  let around ← Main.surroundings
  let words := arguments.map Main.bytesOf
  let settled ← (Settings.file? around).toList.foldlM (Main.survey around.workDirectory)
    (Main.treeOf around.workDirectory)
  let tree ← (Run.paths around settled words).foldlM (Main.survey around.workDirectory) settled
  let outcome := Run.run around tree words
  Main.writeBack tree outcome.tree
  IO.print outcome.output
  IO.eprint (outcome.diagnostics)
  return UInt32.ofNat outcome.ending.code
