import PadBridge.CommandLine.Vocabulary
import PadBridge.Text.Control

/-!
What can be wrong with a command line.
-/

namespace PadBridge.CommandLine

inductive UsageError where
  | unknownCommand (name : String)
  | unexpected (argument : String)
  | valueMissing (flag : Flag)
  | valueUnwanted (flag : Flag) (value : String)
  | repeated (flag : Flag)
  | invalidValue (flag : Flag) (value : String)
  | invalidSource (name : String) (cause : UnknownButton)
  | notText
  | argumentsMissing (missing : List Positional)
  | commandMissing
deriving Repr, DecidableEq

namespace UsageError

/-- What is wrong, in pieces: names and values have a style of their own. -/
def pieces : UsageError → List String
  | .unknownCommand name => ["unrecognized subcommand '", name, "'"]
  | .unexpected argument => ["unexpected argument '", argument, "' found"]
  | .valueMissing flag =>
      ["a value is required for '", flag.label, "' but none was supplied"]
  | .valueUnwanted flag value =>
      ["unexpected value '", value, "' for '", flag.label, "' found; no more were expected"]
  | .repeated flag => ["the argument '", flag.label, "' cannot be used multiple times"]
  | .invalidValue flag value => ["invalid value '", value, "' for '", flag.label, "'"]
  | .invalidSource name cause =>
      ["invalid value '", name, "' for '", Positional.source.label, "': " ++ cause.message]
  | .notText => ["invalid UTF-8 was detected in one or more arguments"]
  | .argumentsMissing missing =>
      "the following required arguments were not provided:"
        :: missing.flatMap fun positional => ["\n  ", positional.label]
  | .commandMissing => ["'gc2n64-remapper' requires a subcommand but one was not provided"]

/-- Add a text to the last piece. -/
def extendLast (pieces : List String) (text : String) : List String :=
  pieces.dropLast ++ [pieces.getLastD "" ++ text]

/-- What is written about a command line that is refused. -/
def report (error : UsageError) : String :=
  Text.plainPieces
    (["error:", " "] ++ extendLast error.pieces "\n\nFor more information, try '"
      ++ ["--help", "'.\n"])

end UsageError

end PadBridge.CommandLine
