import PadBridge.FileTree.Error
import PadBridge.Path

/-!
A tree of files and directories, without links and without permissions.  A path is followed piece
by piece from a directory; every piece, also an empty one at the end, needs a directory to start
from.
-/

namespace PadBridge

/-- A place in a tree: the names on the way from the root. -/
abbrev Location := List (List UInt8)

inductive Node where
  | directory
  | file (bytes : List UInt8)
deriving Repr, DecidableEq

/-- Nodes under their locations.  The root is a directory and is not listed. -/
structure FileTree where
  nodes : List (Location × Node)
deriving Repr, DecidableEq

namespace FileTree

def empty : FileTree :=
  ⟨[]⟩

def get? (tree : FileTree) (location : Location) : Option Node :=
  if location = [] then some .directory else tree.nodes.lookup location

/-- Set the node at a location. -/
def put (tree : FileTree) (location : Location) (node : Node) : FileTree :=
  ⟨(location, node) :: tree.nodes.filter fun entry => entry.1 ≠ location⟩

/-- What is left of a list of nodes still lies where it lay. -/
theorem lookup_filter (nodes : List (Location × Node)) (keep : Location → Bool)
    (location : Location) :
    (nodes.filter fun entry => keep entry.1).lookup location =
      if keep location then nodes.lookup location else none := by
  induction nodes with
  | nil => simp
  | cons entry rest ih =>
      rcases entry with ⟨first, node⟩
      simp only [List.filter_cons, List.lookup_cons]
      by_cases hlocation : location = first
      · subst hlocation
        by_cases hkeep : keep location = true
        · simp [hkeep]
        · simp [hkeep, ih]
      · by_cases hkeep : keep first = true
        · simp [hkeep, ih, List.lookup_cons, beq_false_of_ne hlocation]
        · simp [hkeep, ih, beq_false_of_ne hlocation]

/-- Setting a node changes what is at its location and nothing else. -/
theorem get?_put (tree : FileTree) {location : Location} (hlocation : location ≠ [])
    (node : Node) (other : Location) :
    (tree.put location node).get? other =
      if other = location then some node else tree.get? other := by
  by_cases hother : other = location
  · subst hother
    simp [get?, put, hlocation]
  · rw [if_neg hother]
    unfold get?
    by_cases hroot : other = []
    · rw [if_pos hroot, if_pos hroot]
    · have hkept := lookup_filter tree.nodes (fun entry => entry ≠ location) other
      rw [if_pos (decide_eq_true hother)] at hkept
      rw [if_neg hroot, if_neg hroot, put, List.lookup_cons, beq_false_of_ne hother]
      exact hkept

/-- The longest name a file can have, in bytes. -/
def longestName : Nat := 255

/-- Paths have to be shorter than this, in bytes. -/
def pathLimit : Nat := 4096

/-- The directory at a location. -/
def enter (tree : FileTree) (location : Location) : Except FileError Location :=
  match tree.get? location with
  | some .directory => .ok location
  | some (.file _) => .error .notDirectory
  | none => .error .notFound

/-- Follow one piece of a path. -/
def follow (tree : FileTree) (location : Location) (piece : List UInt8) :
    Except FileError Location := do
  let here ← tree.enter location
  if piece = [] ∨ piece = [Path.dot] then return here
  else if piece = [Path.dot, Path.dot] then return here.dropLast
  else if longestName < piece.length then throw .nameTooLong
  else return here ++ [piece]

/-- Refuse what is no path of any file. -/
def check (path : Path) : Except FileError Unit :=
  if path.bytes.contains 0 then .error .zeroByte
  else if path.bytes = [] then .error .notFound
  else if pathLimit ≤ path.bytes.length then .error .nameTooLong
  else .ok ()

/-- Where a path starts. -/
def start (workDirectory : Location) (path : Path) : Location :=
  if path.isAbsolute then [] else workDirectory

/-- Where a path leads.  There need not be anything. -/
def locate (tree : FileTree) (workDirectory : Location) (path : Path) :
    Except FileError Location := do
  check path
  (Path.pieces path.bytes).foldlM tree.follow (start workDirectory path)

/-- What is at the end of a path. -/
def find (tree : FileTree) (workDirectory : Location) (path : Path) : Except FileError Node := do
  match tree.get? (← tree.locate workDirectory path) with
  | some node => return node
  | none => throw .notFound

def contains (tree : FileTree) (workDirectory : Location) (path : Path) : Bool :=
  (tree.find workDirectory path).isOk

def isDirectory (tree : FileTree) (workDirectory : Location) (path : Path) : Bool :=
  match tree.find workDirectory path with
  | .ok .directory => true
  | _ => false

/-- The bytes of a file. -/
def read (tree : FileTree) (workDirectory : Location) (path : Path) :
    Except FileError (List UInt8) := do
  match ← tree.find workDirectory path with
  | .file bytes => return bytes
  | .directory => throw .isDirectory

/-- What an entry of a directory is called by a path. -/
inductive Entry where
  /-- A name; `slashed` tells whether slashes follow it. -/
  | name (bytes : List UInt8) (slashed : Bool)
  /-- The root, or dots: always a directory. -/
  | directory

/-- Split a path into the pieces that lead to a directory and the entry in it. -/
def splitEntry (path : Path) : List (List UInt8) × Entry :=
  let pieces := Path.pieces path.bytes
  let named := (pieces.reverse.dropWhile List.isEmpty).reverse
  match named.getLast? with
  | none => ([], .directory)
  | some last =>
      if last = [Path.dot] ∨ last = [Path.dot, Path.dot] then (named.dropLast, .directory)
      else (named.dropLast, .name last (named.length < pieces.length))

/-- The directory in which the entry of a path lies, and the entry. -/
def locateEntry (tree : FileTree) (workDirectory : Location) (path : Path) :
    Except FileError (Location × Entry) := do
  check path
  let (pieces, entry) := splitEntry path
  let directory ← pieces.foldlM tree.follow (start workDirectory path)
  return (← tree.enter directory, entry)

/-- Set an entry of a directory to a file, unless it is a directory. -/
def putFile (tree : FileTree) (directory : Location) (name bytes : List UInt8) :
    Except FileError FileTree :=
  if longestName < name.length then .error .nameTooLong
  else
    match tree.get? (directory ++ [name]) with
    | some .directory => .error .isDirectory
    | _ => .ok (tree.put (directory ++ [name]) (.file bytes))

/-- Write a file, over an older one if there is one. -/
def write (tree : FileTree) (workDirectory : Location) (path : Path) (bytes : List UInt8) :
    Except FileError FileTree := do
  match ← tree.locateEntry workDirectory path with
  | (directory, .name name false) => tree.putFile directory name bytes
  | _ => throw .isDirectory

/-- Make one directory. -/
def makeDirectory (tree : FileTree) (workDirectory : Location) (path : Path) :
    Except FileError FileTree := do
  match ← tree.locateEntry workDirectory path with
  | (_, .directory) => throw .exists
  | (directory, .name name _) =>
      if longestName < name.length then throw .nameTooLong
      if (tree.get? (directory ++ [name])).isSome then throw .exists
      return tree.put (directory ++ [name]) .directory

/-- Make one directory, or leave it if it is there. -/
def ensureDirectory (tree : FileTree) (workDirectory : Location) (path : Path) :
    Except FileError FileTree :=
  match tree.makeDirectory workDirectory path with
  | .ok tree => .ok tree
  | .error error => if tree.isDirectory workDirectory path then .ok tree else .error error

/-- Make the last of some directories, and if it has nowhere to lie first the ones on the way to it.
The longest path comes first.  What was made before a failure stays. -/
def makeSteps (tree : FileTree) (workDirectory : Location) :
    List Path → FileTree × Except FileError Unit
  | [] => (tree, .ok ())
  | path :: before =>
      match tree.ensureDirectory workDirectory path with
      | .ok tree => (tree, .ok ())
      | .error .notFound =>
          match tree.makeSteps workDirectory before with
          | (tree, .error error) => (tree, .error error)
          | (tree, .ok ()) =>
              match tree.ensureDirectory workDirectory path with
              | .ok tree => (tree, .ok ())
              | .error error => (tree, .error error)
      | .error error => (tree, .error error)

/-- Make a directory and the missing ones on the way to it. -/
def makeDirectories (tree : FileTree) (workDirectory : Location) (path : Path) :
    FileTree × Except FileError Unit :=
  tree.makeSteps workDirectory path.waypoints

/-- Make the directories in which a file is to lie, if they are not there. -/
def makeParent (tree : FileTree) (workDirectory : Location) (path : Path) :
    FileTree × Except FileError Unit :=
  match path.parent? with
  | none => (tree, .ok ())
  | some parent =>
      if parent.bytes = [] ∨ tree.contains workDirectory parent then (tree, .ok ())
      else tree.makeDirectories workDirectory parent

/-- How replacing a file as a whole ends. -/
inductive Replacement where
  | replaced (tree : FileTree)
  | failed (error : FileError)
  /-- The path names nothing that could be replaced.  That is a panic, and the draft is removed as
  the stack unwinds. -/
  | nameless

/-- How many bytes longer than the path of a directory the path of a draft in it is: the draft is
called `tmpfile.tmp` and has a directory of its own, `.atomicwrite` with six more letters. -/
def draftLength : Nat := "/.atomicwrite------/tmpfile.tmp".utf8ByteSize

/-- The length of the path of a directory from the root, in bytes. -/
def fullLength (workDirectory : Location) (path : Path) : Nat :=
  if path.isAbsolute then path.bytes.length
  else (workDirectory.map fun name => name.length + 1).foldr (· + ·) 0 + 1 + path.bytes.length

/-- Replace a file as a whole: its new content is written beside it and then moved over it, so
slashes at the end of the path do not count.  A path whose last step is no name is noticed only
when the new content is moved.  That a panic there leaves no draft holds for builds in which a panic
unwinds; one that aborts, as the release profile has it, leaves `.atomicwrite` with the draft in it
beside the file. -/
def replace (tree : FileTree) (workDirectory : Location) (path : Path) (bytes : List UInt8) :
    Replacement :=
  let parent := match path.parent? with
    | some parent => if parent.bytes = [] then ⟨[Path.dot]⟩ else parent
    | none => ⟨[Path.dot]⟩
  match tree.locate workDirectory parent >>= tree.enter with
  | .error error => .failed error
  | .ok directory =>
      if pathLimit ≤ fullLength workDirectory parent + draftLength then .failed .nameTooLong
      else
        match path.parent?, path.fileName? with
        | some _, some name =>
            if name.contains 0 then .failed .invalidArgument
            else
              match tree.putFile directory name bytes with
              | .ok tree => .replaced tree
              | .error error => .failed error
        | _, _ => .nameless

end FileTree

end PadBridge
