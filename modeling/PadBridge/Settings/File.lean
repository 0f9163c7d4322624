import PadBridge.Settings
import PadBridge.Surroundings

/-!
The file in which the settings are kept.
-/

namespace PadBridge.Settings

/-- What is said where nobody knows in which directory the settings belong. -/
def placeUnknownMessage : String := "Could not determine config dir"

/-- Why the settings of a file are not used. -/
inductive LoadError where
  | placeUnknown
  | unreadable (cause : FileError)
  | notText
  | invalid (cause : ReadError)

def LoadError.message : LoadError → String
  | .placeUnknown => placeUnknownMessage
  | .unreadable cause => cause.message
  | .notText => "stream did not contain valid UTF-8"
  | .invalid cause => cause.message

/-- Why settings are not saved. -/
inductive SaveError where
  | placeUnknown
  | file (cause : FileError)
  | text (cause : WriteError)
deriving Repr, DecidableEq

def SaveError.message : SaveError → String
  | .placeUnknown => placeUnknownMessage
  | .file cause => cause.message
  | .text cause => cause.message

/-- The directory that holds the settings of all programs.  A chosen one counts only if its path is
absolute. -/
def baseDirectory (home : Path) (chosen : Option Path) : Path :=
  match chosen with
  | some path => if path.isAbsolute then path else home.join (.ofString ".config")
  | none => home.join (.ofString ".config")

/-- The file that holds the settings.  Without a home directory there is none, even if a directory
for settings is chosen. -/
def file? (surroundings : Surroundings) : Option Path :=
  match surroundings.home with
  | .unknown => none
  | .known home =>
      let base := baseDirectory home surroundings.configHome
      some ((base.join (.ofString "gc2n64remapper")).join (.ofString "config.toml"))

/-- The settings that a file keeps; without it, the default ones. -/
def loadFrom (path : Path) (workDirectory : Location) (tree : FileTree) :
    Except LoadError Settings :=
  if tree.contains workDirectory path then
    match tree.read workDirectory path with
    | .error error => .error (.unreadable error)
    | .ok bytes =>
        match Utf8.decode? bytes with
        | some text => (ofToml text).mapError .invalid
        | none => .error .notText
  else .ok default

def load (surroundings : Surroundings) (tree : FileTree) : Except LoadError Settings :=
  match file? surroundings with
  | some path => loadFrom path surroundings.workDirectory tree
  | none => .error .placeUnknown

/-- Keep settings in a file, and tell where. -/
def saveTo (path : Path) (workDirectory : Location) (tree : FileTree) (settings : Settings) :
    FileTree × Except SaveError Path :=
  match tree.makeParent workDirectory path with
  | (tree, .error error) => (tree, .error (.file error))
  | (tree, .ok ()) =>
      match settings.toToml with
      | .error error => (tree, .error (.text error))
      | .ok text =>
          match tree.write workDirectory path (Utf8.encode text) with
          | .ok tree => (tree, .ok path)
          | .error error => (tree, .error (.file error))

def save (surroundings : Surroundings) (tree : FileTree) (settings : Settings) :
    FileTree × Except SaveError Path :=
  match file? surroundings with
  | some path => saveTo path surroundings.workDirectory tree settings
  | none => (tree, .error .placeUnknown)

end PadBridge.Settings
