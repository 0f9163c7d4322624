import PadBridge.Proofs.CommandLine
import PadBridge.Proofs.Run.Command

/-!
A run taken apart.  Once its command line is read and its settings are loaded, a run is its command
carried out at the path of a mapping document.
-/

namespace PadBridge.Run

open CommandLine (Command Invocation Argument)

/-- A run in a directory whose mapping document is the one at a path, with a filter for its log
records. -/
structure IsAbout (workDirectory : Location) (path : Path) (surroundings : Surroundings)
    (tree : FileTree) (arguments : List Argument) (invocation : Invocation) : Prop where
  directory : surroundings.workDirectory = workDirectory
  read : CommandLine.read surroundings.mapping arguments = .ok invocation
  mappingPath : mappingPath surroundings tree invocation = path
  filter : Log.Filter.choose surroundings.logFilter invocation.verbose ≠ none

variable {workDirectory : Location} {path : Path} {surroundings : Surroundings} {tree : FileTree}

/-- A command spelled for a path is about the document there. -/
theorem isAbout_spelled {command : Command} (hpath : path.bytes ≠ [])
    (hpaths : ∀ other ∈ command.paths, other.bytes ≠ [])
    (hchosen : ∀ chosen, surroundings.mapping = some chosen → chosen.bytes ≠ [])
    (hfilter : Log.Filter.choose surroundings.logFilter false ≠ none) :
    IsAbout surroundings.workDirectory path surroundings tree (command.spelled path)
      ⟨some path, false, command⟩ where
  directory := rfl
  read := command.read_spelled hpaths hpath hchosen
  mappingPath := rfl
  filter := hfilter

def endingOf : Except Abort Unit → Ending
  | .ok () => .done
  | .error (.failed failure) => .failed failure
  | .error .crashed => .crashed

/-- A run about a document is its command carried out with the settings in effect, at the path of
the document. -/
theorem run_of_ends {arguments : List Argument} {invocation : Invocation}
    (habout : IsAbout workDirectory path surroundings tree arguments invocation)
    {result : Except Abort Unit} {after : FileTree} {written : String}
    (hends : Ends (Task.perform ⟨surroundings, .effective surroundings tree, path⟩
      invocation.command) tree "" result after written) :
    ∃ notices filter, run surroundings tree arguments =
      ⟨after, written, notices, filter, endingOf result⟩ := by
  obtain ⟨filter, hfilter⟩ := Option.ne_none_iff_exists'.mp habout.filter
  have hperform : Ends (perform surroundings invocation) tree "" result after written := by
    apply (ends_loadSettings surroundings tree "").bind
    simp only [← mappingPath_eq, habout.mappingPath]
    exact hends
  obtain ⟨notices, hrun⟩ := hperform []
  refine ⟨notices, filter, ?_⟩
  rw [run, habout.read]
  simp only [invoke, hfilter, hrun]
  cases result with
  | ok value => rfl
  | error abort => cases abort <;> rfl

/-- A run about a document is its command carried out at the path of the document, with whatever
settings. -/
theorem exists_settings_run {arguments : List Argument} {invocation : Invocation}
    (habout : IsAbout workDirectory path surroundings tree arguments invocation) :
    ∃ settings, ∀ result after written,
      Ends (Task.perform ⟨surroundings, settings, path⟩ invocation.command) tree "" result after
        written →
      ∃ notices filter, run surroundings tree arguments =
        ⟨after, written, notices, filter, endingOf result⟩ :=
  ⟨_, fun _ _ _ => run_of_ends habout⟩

/-- A command line that is refused or asks for a page leaves the tree alone. -/
theorem tree_run_of_stop {arguments : List Argument} {reason : CommandLine.Stop} (tree : FileTree)
    (hread : CommandLine.read surroundings.mapping arguments = .error reason) :
    (run surroundings tree arguments).tree = tree := by
  rw [run, hread]
  cases reason <;> rfl

/-- Without a filter for its log a run crashes at once. -/
theorem run_of_no_filter {arguments : List Argument} {invocation : Invocation}
    (hread : CommandLine.read surroundings.mapping arguments = .ok invocation)
    (hfilter : Log.Filter.choose surroundings.logFilter invocation.verbose = none) :
    run surroundings tree arguments = idle tree "" .crashed := by
  rw [run, hread]
  simp only [invoke, hfilter]

/-- A run whose command line can be read crashes at once, or it is its command carried out. -/
theorem run_cases {arguments : List Argument} {invocation : Invocation} (tree : FileTree)
    (hread : CommandLine.read surroundings.mapping arguments = .ok invocation) :
    run surroundings tree arguments = idle tree "" .crashed ∨
      ∀ {result after written}, Ends (Task.perform ⟨surroundings, .effective surroundings tree,
          mappingPath surroundings tree invocation⟩ invocation.command) tree "" result after
          written →
        ∃ notices filter, run surroundings tree arguments =
          ⟨after, written, notices, filter, endingOf result⟩ := by
  by_cases hfilter : Log.Filter.choose surroundings.logFilter invocation.verbose = none
  · exact Or.inl (run_of_no_filter hread hfilter)
  · have habout : IsAbout surroundings.workDirectory (mappingPath surroundings tree invocation)
        surroundings tree arguments invocation := ⟨rfl, hread, rfl, hfilter⟩
    exact Or.inr fun hends => run_of_ends habout hends

/-- The surroundings of a run in the root directory where nothing is chosen. -/
def bareSurroundings : Surroundings :=
  ⟨[], .ofString "/", none, none, none⟩

theorem choose_bareSurroundings :
    Log.Filter.choose bareSurroundings.logFilter false ≠ none :=
  Option.some_ne_none _

theorem isAbout_bareSurroundings (tree : FileTree) (command : Command) (hpath : path.bytes ≠ [])
    (hpaths : ∀ other ∈ command.paths, other.bytes ≠ []) :
    IsAbout [] path bareSurroundings tree (command.spelled path) ⟨some path, false, command⟩ :=
  isAbout_spelled hpath hpaths (fun _ h => by cases h) choose_bareSurroundings

end PadBridge.Run
