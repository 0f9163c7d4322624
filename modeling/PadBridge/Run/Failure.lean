import PadBridge.Session
import PadBridge.Settings.File

/-!
Why a run fails, and what is said about it: what was tried, and below it the causes.
-/

namespace PadBridge

/-- Why a run fails. -/
inductive Failure where
  | loading (path : Path) (cause : DocumentError)
  | saving (path : Path) (cause : FileError)
  | makingDirectories (cause : FileError)
  | writingCode (path : Path) (cause : FileError)
  | savingSettings (cause : Settings.SaveError)
  | showingSettings (cause : Settings.WriteError)

namespace Failure

/-- What was tried, followed by the causes, the nearest one first. -/
def chain : Failure → String × List String
  | .loading path cause =>
      ("failed to load mapping from `" ++ path.shown ++ "`", [cause.message, cause.cause])
  | .saving path cause => ("failed to save mapping to `" ++ path.shown ++ "`", [cause.message])
  | .makingDirectories cause => (cause.message, [])
  | .writingCode path cause => ("failed to write code to `" ++ path.shown ++ "`", [cause.message])
  | .savingSettings cause => ("failed to save config", [cause.message])
  | .showingSettings cause => (cause.message, [])

/-- The whole chain on one line. -/
def oneLine (failure : Failure) : String :=
  ": ".intercalate (failure.chain.1 :: failure.chain.2)

/-- The causes as they are listed: several are numbered. -/
def listCauses : List String → String
  | [] => ""
  | [cause] => "\nCaused by:\n    " ++ cause ++ "\n"
  | causes =>
      "\nCaused by:\n" ++ String.join (causes.mapIdx fun index cause =>
        "    " ++ toString index ++ ": " ++ cause ++ "\n")

/-- What is said about a failure at the end of a run. -/
def report (failure : Failure) : String :=
  "Error: " ++ failure.chain.1 ++ "\n" ++ listCauses failure.chain.2

end Failure

end PadBridge
