import PadBridge.CommandLine.Vocabulary
import PadBridge.Text.Control

/-!
The help pages.
-/

namespace PadBridge.CommandLine

inductive Page where
  | top
  | command (verb : Verb)
  /-- How to ask for help. -/
  | help
deriving Repr, DecidableEq

def programName : String := "gc2n64-remapper"

def programSummary : String := "GameCube to N64 button remapper"

def versionLine : String := programName ++ " 0.1.0\n"

def Verb.summary : Verb → String
  | .generate => "Generate the mapGamecubeToN64() function"
  | .set => "Map one GameCube button to an N64 button (or `None`)"
  | .show => "Show the current mapping"
  | .reset => "Restore the factory mapping"
  | .clear => "Unassign every button"
  | .buttons => "List both controllers' buttons and their bits"
  | .config => "Show or change the saved settings"

/-- The lines of a description continue below its beginning. -/
def indentLines (column : Nat) (text : List Char) : List Char :=
  text.flatMap fun c => if c = '\n' then '\n' :: List.replicate column ' ' else [c]

/-- What an option does.  `mapping` is the mapping document chosen for all runs. -/
def Flag.summary (mapping : Option Path) : Flag → String
  | .mapping =>
      "Mapping document to read and write [env: GC2N64_MAPPING="
        ++ (mapping.map Path.shown).getD "" ++ "]"
  | .verbose => "Log mapping changes and file access"
  | .help => "Print help"
  | .version => "Print version"
  | .out => "Write the code to a file instead of stdout"
  | .mappingFile => "Mapping document used when `--mapping` isn't given"
  | .showInstructions =>
      "Print the paste instructions after `generate` [possible values: true, false]"

/-- The blanks in front of an option; one without a letter stands below the names of the others. -/
def Flag.margin (flag : Flag) : String :=
  if flag.letter?.isSome then "  " else "      "

/-- How an option is written. -/
def Flag.usage (flag : Flag) : String :=
  match flag.letter? with
  | some letter => "-" ++ letter.toString ++ ", " ++ flag.label
  | none => flag.label

/-- The options of a page, in the order in which they are listed. -/
def Page.flags : Page → List Flag
  | .top => [.mapping, .verbose, .help, .version]
  | .command .generate => [.mapping, .out, .verbose, .help]
  | .command .config => [.mapping, .mappingFile, .showInstructions, .verbose, .help]
  | .command _ => [.mapping, .verbose, .help]
  | .help => []

def spaces (count : Nat) : String :=
  String.ofList (List.replicate count ' ')

/-- An option with its description: beside it, or, on a page with long options, below it. -/
def optionText (page : Page) (mapping : Option Path) (flag : Flag) : String :=
  let summary (column : Nat) : String :=
    String.ofList (indentLines column (flag.summary mapping).toList)
  if page = .command .config then
    flag.usage ++ "\n" ++ spaces 10 ++ summary 10 ++ "\n"
  else
    let width := 25
    let shown := flag.margin ++ flag.usage
    flag.usage ++ spaces (width - shown.length) ++ "  " ++ summary (width + 2) ++ "\n"

/-- A text and the options behind it, in pieces: the names of the options have a style of their
own, so a piece ends where one begins. -/
def optionPieces (page : Page) (mapping : Option Path) (before : String) :
    List Flag → List String
  | [] => [before]
  | flag :: rest =>
      (before ++ flag.margin)
        :: optionPieces page mapping (optionText page mapping flag) rest

def commandLine (name summary : String) : String :=
  "  " ++ name ++ spaces (8 - name.length) ++ "  " ++ summary ++ "\n"

def helpSummary : String := "Print this message or the help of the given subcommand(s)"

/-- The part of a page before its options. -/
def Page.opening : Page → String
  | .top =>
      programSummary ++ "\n\nUsage: " ++ programName ++ " [OPTIONS] <COMMAND>\n\nCommands:\n"
        ++ String.join (Verb.all.map fun verb => commandLine verb.name verb.summary)
        ++ commandLine "help" helpSummary
  | .command verb =>
      let arguments := (Level.command verb).positionals
      let width := 8
      verb.summary ++ "\n\nUsage: " ++ programName ++ " " ++ verb.name ++ " [OPTIONS]"
        ++ String.join (arguments.map fun argument => " " ++ argument.label) ++ "\n"
        ++ if arguments.isEmpty then "" else
          "\nArguments:\n" ++ String.join (arguments.map fun argument =>
            "  " ++ argument.label ++ spaces (width - argument.label.length) ++ "  \n")
  | .help =>
      helpSummary ++ "\n\nUsage: " ++ programName ++ " help [COMMAND]...\n\nArguments:\n"
        ++ "  [COMMAND]...  Print help for the subcommand(s)\n"

/-- The text of a page. -/
def Page.text (page : Page) (mapping : Option Path) : String :=
  if page.flags.isEmpty then page.opening
  else
    Text.plainPieces (optionPieces page mapping (page.opening ++ "\nOptions:\n") page.flags)

end PadBridge.CommandLine
