import PadBridge.Button
import PadBridge.Path

/-!
What can stand on the command line: the commands, their options and their arguments.
-/

namespace PadBridge.CommandLine

/-- The commands by name. -/
inductive Verb where
  | generate
  | set
  | show
  | reset
  | clear
  | buttons
  | config
deriving Repr, DecidableEq

namespace Verb

def all : List Verb :=
  [.generate, .set, .show, .reset, .clear, .buttons, .config]

def name : Verb → String
  | .generate => "generate"
  | .set => "set"
  | .show => "show"
  | .reset => "reset"
  | .clear => "clear"
  | .buttons => "buttons"
  | .config => "config"

end Verb

/-- An option. -/
inductive Flag where
  | mapping
  | verbose
  | help
  | version
  | out
  | mappingFile
  | showInstructions
deriving Repr, DecidableEq

namespace Flag

/-- The name behind two dashes. -/
def longName : Flag → String
  | .mapping => "mapping"
  | .verbose => "verbose"
  | .help => "help"
  | .version => "version"
  | .out => "out"
  | .mappingFile => "mapping-file"
  | .showInstructions => "show-instructions"

/-- The letter behind one dash. -/
def letter? : Flag → Option Char
  | .mapping => some 'm'
  | .verbose => some 'v'
  | .help => some 'h'
  | .version => some 'V'
  | .out => some 'o'
  | .mappingFile | .showInstructions => none

/-- What the value of an option is called; the others take none. -/
def valueName? : Flag → Option String
  | .mapping => some "MAPPING"
  | .out => some "OUT"
  | .mappingFile => some "MAPPING_FILE"
  | .showInstructions => some "SHOW_INSTRUCTIONS"
  | .verbose | .help | .version => none

def takesValue (flag : Flag) : Bool :=
  flag.valueName?.isSome

/-- An option as messages call it. -/
def label (flag : Flag) : String :=
  match flag.valueName? with
  | some value => "--" ++ flag.longName ++ " <" ++ value ++ ">"
  | none => "--" ++ flag.longName

end Flag

/-- An argument without a name. -/
inductive Positional where
  | source
  | destination
deriving Repr, DecidableEq

def Positional.label : Positional → String
  | .source => "<SOURCE>"
  | .destination => "<DEST>"

/-- A part of the command line: before the command, or behind it. -/
inductive Level where
  | top
  | command (verb : Verb)
deriving Repr, DecidableEq

namespace Level

def flags : Level → List Flag
  | .top => [.mapping, .verbose, .help, .version]
  | .command .generate => [.mapping, .verbose, .help, .out]
  | .command .config => [.mapping, .verbose, .help, .mappingFile, .showInstructions]
  | .command _ => [.mapping, .verbose, .help]

def positionals : Level → List Positional
  | .command .set => [.source, .destination]
  | _ => []

def longFlag? (level : Level) (name : List Char) : Option Flag :=
  level.flags.find? fun flag => flag.longName.toList = name

def shortFlag? (level : Level) (letter : Char) : Option Flag :=
  level.flags.find? fun flag => flag.letter? = some letter

end Level

/-- What a run is to do. -/
inductive Command where
  | generate (out : Option Path)
  | set (source : GameCubeButton) (destination : String)
  | show
  | reset
  | clear
  | buttons
  | config (mappingFile : Option Path) (showInstructions : Option Bool)
deriving Repr, DecidableEq

/-- A command with what every command has. -/
structure Invocation where
  /-- The mapping document, if one is chosen on the command line or for all runs. -/
  mapping : Option Path
  verbose : Bool
  command : Command
deriving Repr, DecidableEq

end PadBridge.CommandLine
