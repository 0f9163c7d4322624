import PadBridge.Decimal
import PadBridge.Path
import PadBridge.Text.Quoted
import PadBridge.Text.Utf8
import PadBridge.Toml.Document
import PadBridge.Toml.Quoted

/-!
The settings that are kept between runs, and their TOML text.  Reading looks at two top level keys
and at nothing else; what is missing keeps its default.
-/

namespace PadBridge

structure Settings where
  /-- The mapping document that is used when no other is named. -/
  mappingFile : Path
  /-- Whether instructions follow the generated code. -/
  showInstructions : Bool
deriving Repr, DecidableEq

namespace Settings

def default : Settings where
  mappingFile := .ofString "gc_n64_mappings.json"
  showInstructions := true

def mappingFileKey : String := "mapping_file"
def showInstructionsKey : String := "show_instructions"

/-- The kind of value a setting has. -/
inductive Wanted where
  | path
  | boolean
deriving Repr, DecidableEq

def Wanted.describe : Wanted → String
  | .path => "path string"
  | .boolean => "a boolean"

/-- Why a text is not taken as settings. -/
inductive ReadError where
  /-- The text is no TOML document. -/
  | notToml (fault : Toml.Fault)
  | mismatch (found : Toml.Value) (wanted : Wanted)

/-- Why settings have no text. -/
inductive WriteError where
  /-- The path of the mapping document is not UTF-8. -/
  | pathNotText
deriving Repr, DecidableEq

def WriteError.message : WriteError → String
  | .pathNotText => "path contains invalid UTF-8 characters"

/-- Numbers are always written out in full. -/
def numberStyle : Decimal.Style :=
  { positional := fun _ => true
    halfway := .away }

/-- The kind of a value, for a message. -/
def describe : Toml.Value → String
  | .text value => "string " ++ Text.quoted value
  | .integer value => "integer `" ++ toString value ++ "`"
  | .number value => "floating point `" ++ numberStyle.text value ++ "`"
  | .boolean value => "boolean `" ++ toString value ++ "`"
  | .array _ | .tables _ _ => "sequence"
  | .moment | .table _ _ => "map"

/-- What is said about a value of the wrong kind. -/
def mismatchMessage (found : Toml.Value) (wanted : Wanted) : String :=
  "invalid type: " ++ describe found ++ ", expected " ++ wanted.describe

/-- What is wrong, on a line of its own below the heading. -/
def ReadError.detail : ReadError → String
  | .notToml fault => fault.explanation
  | .mismatch found wanted => mismatchMessage found wanted

def ReadError.message (error : ReadError) : String :=
  "TOML parse error: the settings cannot be read\n" ++ error.detail ++ "\n"

/-- Take over one top level entry. -/
def readEntry (settings : Settings) (entry : String × Toml.Value) : Except ReadError Settings :=
  if entry.1 = mappingFileKey then
    match entry.2 with
    | .text value => .ok { settings with mappingFile := .ofString value }
    | found => .error (.mismatch found .path)
  else if entry.1 = showInstructionsKey then
    match entry.2 with
    | .boolean value => .ok { settings with showInstructions := value }
    | found => .error (.mismatch found .boolean)
  else .ok settings

/-- Read the entries one after the other. -/
def ofEntries (settings : Settings) : Toml.Entries → Except ReadError Settings
  | [] => .ok settings
  | entry :: rest =>
      match settings.readEntry entry with
      | .ok next => ofEntries next rest
      | .error error => .error error

/-- The settings a text holds. -/
def ofToml (text : List Char) : Except ReadError Settings :=
  match Toml.parse text with
  | .ok entries => default.ofEntries entries
  | .error fault => .error (.notToml fault)

def line (key : String) (value : List Char) : List Char :=
  key.toList ++ [' ', '=', ' '] ++ value ++ ['\n']

/-- The text of some settings. -/
def toToml (settings : Settings) : Except WriteError (List Char) :=
  match Utf8.decode? settings.mappingFile.bytes with
  | some path =>
      .ok (line mappingFileKey (Toml.quoted path)
        ++ line showInstructionsKey (toString settings.showInstructions).toList)
  | none => .error .pathNotText

/-- Apply the settings that are given, and tell whether that changes any. -/
def update (settings : Settings) (mappingFile : Option Path) (showInstructions : Option Bool) :
    Settings × Bool :=
  let next : Settings :=
    { mappingFile := mappingFile.getD settings.mappingFile
      showInstructions := showInstructions.getD settings.showInstructions }
  (next, !(next.mappingFile.agrees settings.mappingFile
    && next.showInstructions == settings.showInstructions))

end Settings

end PadBridge
