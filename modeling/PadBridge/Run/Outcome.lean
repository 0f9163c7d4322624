import PadBridge.CommandLine.Reader
import PadBridge.Log.Event

/-!
What a run does: the files it leaves, what it writes, and how it ends.  Log records are kept as
events, and only when the run is over does a filter choose the ones that are shown.
-/

namespace PadBridge.Run

/-- What a run says beside its output. -/
inductive Notice where
  | event (event : Log.Event)
  /-- The destination of a button is unknown, so no code is generated for it. -/
  | unmapped (source : GameCubeButton) (name : String)
  /-- What to do with the generated code. -/
  | instructions

/-- A notice as it is written, if the filter lets it be. -/
def Notice.text (filter : Log.Filter) : Notice → String
  | .event logged => if logged.isShown filter then logged.record else ""
  | .unmapped source name =>
      "Warning: " ++ source.name ++ " is mapped to unknown N64 button `" ++ name
        ++ "`, no code generated for it\n"
  | .instructions =>
      "\nInstructions: copy the entire function and replace the existing `void " ++ functionName
        ++ "()` function in your gamecube.ino file with this newly generated code.\n"

/-- How far a run has come. -/
structure State where
  tree : FileTree
  output : String
  notices : List Notice

/-- Why a run stops early. -/
inductive Abort where
  | failed (failure : Failure)
  | crashed

/-- A part of a run. -/
abbrev Action (α : Type) := ExceptT Abort (StateM State) α

/-- How a run ends. -/
inductive Ending where
  | done
  | failed (failure : Failure)
  | refused (error : CommandLine.UsageError)
  /-- Nothing was asked for, so the help page is shown. -/
  | unasked (page : String)
  | crashed

/-- The number a run ends with. -/
def Ending.code : Ending → Nat
  | .done => 0
  | .failed _ => 1
  | .refused _ | .unasked _ => 2
  | .crashed => 101

/-- What is said at the end. -/
def Ending.report : Ending → String
  | .done => ""
  | .failed failure => failure.report
  | .refused error => error.report
  | .unasked page => page
  | .crashed => "panic\n"

/-- A run that is over. -/
structure Outcome where
  tree : FileTree
  output : String
  notices : List Notice
  /-- Which of the log records are shown. -/
  filter : Log.Filter
  ending : Ending

/-- What a run writes beside its output. -/
def Outcome.diagnostics (outcome : Outcome) : String :=
  String.join (outcome.notices.map (Notice.text outcome.filter)) ++ outcome.ending.report

end PadBridge.Run
