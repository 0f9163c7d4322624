import PadBridge.Proofs.Run.Touching

/-!
Runs that fail.  Every command writes its one file when nothing can go wrong any more, so where a
run fails no file has changed.  Directories may have been made for that file; they stay.
-/

namespace PadBridge.Run

open CommandLine (Command Argument)
open FileTree (Grown)

namespace Task

/-- The paths of the directories that are made for a document: for the file of the settings or for
the mapping document. -/
def ways (task : Task) : List Path :=
  (Settings.file? task.surroundings).toList.flatMap Path.ancestors ++ task.path.ancestors

/-- A command that fails has changed no file, and made directories at most for its document. -/
theorem Leaves.grown {task : Task} {tree after : FileTree} {command : Command} {abort : Abort}
    {written : String} (hleaves : task.Leaves tree command (.error abort) after written) :
    Grown task.surroundings.workDirectory task.ways tree after := by
  cases hleaves with
  | same => exact Grown.refl task.surroundings.workDirectory task.ways tree
  | way =>
      exact (FileTree.grown_makeParent tree _ task.path).mono
        (List.subset_append_right _ task.path.ancestors)
  | @settingsWay _ _ file _ hfile =>
      refine (FileTree.grown_makeParent tree _ file).mono
        (List.Subset.trans ?_ (List.subset_append_left _ task.path.ancestors))
      simp [hfile]

end Task

variable {surroundings : Surroundings} {tree : FileTree} {arguments : List Argument}

/-- A run that fails leaves its tree, or a tree that has grown for a document of its invocation. -/
theorem grown_of_failing_run (hcode : (run surroundings tree arguments).ending.code ≠ 0) :
    (run surroundings tree arguments).tree = tree
      ∨ ∃ invocation, CommandLine.read surroundings.mapping arguments = .ok invocation
        ∧ Grown surroundings.workDirectory
          ((Settings.file? surroundings).toList.flatMap Path.ancestors
            ++ (mappingPath surroundings tree invocation).ancestors)
          tree (run surroundings tree arguments).tree := by
  cases hread : CommandLine.read surroundings.mapping arguments with
  | error reason =>
      exact Or.inl (tree_run_of_stop tree hread)
  | ok invocation =>
      obtain ⟨result, written, hleaves, hfails⟩ := leaves_run tree hread
      refine Or.inr ⟨invocation, rfl, ?_⟩
      cases result with
      | ok value => exact absurd rfl (hfails hcode)
      | error abort => exact hleaves.grown

/-- A run that fails changes no file, adds none and takes none away, whatever fails.  Every
directory stays, and a directory that is new lies on the way to the file of the settings or to the
mapping document. -/
theorem files_of_failing_run (hcode : (run surroundings tree arguments).ending.code ≠ 0) :
    (∀ location bytes,
        (run surroundings tree arguments).tree.get? location = some (.file bytes) ↔
          tree.get? location = some (.file bytes))
      ∧ (∀ location, tree.get? location = some .directory →
        (run surroundings tree arguments).tree.get? location = some .directory)
      ∧ ∀ location, (run surroundings tree arguments).tree.get? location = some .directory →
        tree.get? location = none →
        ∃ invocation, CommandLine.read surroundings.mapping arguments = .ok invocation
          ∧ ∃ path ∈ (Settings.file? surroundings).toList
              ++ [mappingPath surroundings tree invocation],
            ∃ ancestor ∈ path.ancestors,
              (run surroundings tree arguments).tree.locate surroundings.workDirectory ancestor =
                .ok location := by
  rcases grown_of_failing_run hcode with hsame | ⟨invocation, hread, hgrown⟩
  · rw [hsame]
    refine ⟨fun _ _ => Iff.rfl, fun _ h => h, ?_⟩
    intro location hdirectory hnone
    rw [hnone] at hdirectory
    cases hdirectory
  · refine ⟨hgrown.file_iff, hgrown.directoriesIn, ?_⟩
    intro location hdirectory hnone
    obtain ⟨_, ancestor, hancestor, hlocate⟩ := hgrown.made location _ hdirectory hnone
    refine ⟨invocation, hread, ?_⟩
    rcases List.mem_append.mp hancestor with hsettings | hmapping
    · obtain ⟨file, hfile, hmem⟩ := List.mem_flatMap.mp hsettings
      exact ⟨file, List.mem_append_left _ hfile, ancestor, hmem, hlocate⟩
    · exact ⟨_, List.mem_append_right _ List.mem_cons_self, ancestor, hmapping, hlocate⟩

/-- A document cannot be kept where the path of its directory ends.  The run that tries makes the
directory, and the file that was there before it stays. -/
theorem files_of_failing_run_nameless :
    let tree := FileTree.empty.put [Utf8.bytesOf "k"] (.file [0])
    let outcome := run bareSurroundings tree (Command.spelled .clear (.ofString "q/.."))
    outcome.ending.code = 101
      ∧ outcome.tree.get? [Utf8.bytesOf "k"] = some (.file [0])
      ∧ outcome.tree.get? [Utf8.bytesOf "q"] = some .directory := by
  intro tree outcome
  have hpath : (Path.ofString "q/..").bytes ≠ [] := by decide
  obtain ⟨settings, hrun⟩ :=
    exists_settings_run (isAbout_bareSurroundings tree .clear hpath fun _ h => by cases h)
  have hmade : tree.makeParent [] (.ofString "q/..") =
      (tree.put [Utf8.bytesOf "q"] .directory, .ok ()) := rfl
  have hnameless : ∀ bytes, (tree.put [Utf8.bytesOf "q"] .directory).replace [] (.ofString "q/..")
      bytes = .nameless := fun _ => rfl
  have hsave : Ends (Task.save ⟨bareSurroundings, settings, .ofString "q/.."⟩ ⟨.unassigned⟩) tree ""
      (.error .crashed) (tree.put [Utf8.bytesOf "q"] .directory) "" :=
    ends_saveSession_of_nameless hmade (hnameless _)
  obtain ⟨notices, filter, hrun⟩ := hrun _ _ _ ((ends_noteAll _).bind hsave.bind_error)
  have hcode : outcome.ending.code = 101 := by
    simp only [outcome, hrun]
    rfl
  obtain ⟨hfiles, _, _⟩ := files_of_failing_run (by rw [hcode]; decide : outcome.ending.code ≠ 0)
  have hkept := (hfiles [Utf8.bytesOf "k"] [0]).mpr rfl
  refine ⟨hcode, hkept, ?_⟩
  simp only [outcome, hrun]
  rfl

end PadBridge.Run
