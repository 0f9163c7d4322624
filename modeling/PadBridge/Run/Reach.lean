import PadBridge.Run.Command

/-!
The paths a run may look at or change: the settings, the mapping document, and the file that
generated code goes to.
-/

namespace PadBridge.Run

/-- The path of the mapping document of an invocation. -/
def mappingPath (surroundings : Surroundings) (tree : FileTree)
    (invocation : CommandLine.Invocation) : Path :=
  match invocation.mapping, Settings.load surroundings tree with
  | some path, _ => path
  | none, .ok settings => settings.mappingFile
  | none, .error _ => Settings.default.mappingFile

/-- The paths a run may look at or change; `tree` has to hold the settings. -/
def paths (surroundings : Surroundings) (tree : FileTree)
    (arguments : List CommandLine.Argument) : List Path :=
  match CommandLine.read surroundings.mapping arguments with
  | .error _ => []
  | .ok invocation =>
      let out := match invocation.command with
        | .generate (some path) => [path]
        | _ => []
      (Settings.file? surroundings).toList ++ mappingPath surroundings tree invocation :: out

end PadBridge.Run
