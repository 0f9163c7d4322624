import PadBridge.Proofs.CommandLine.Options
import PadBridge.Proofs.Draft
import PadBridge.Proofs.Run.Touching

/-!
What a run leaves alone.  A command has one file that it may write, and every other file stays as it
is, whether the run succeeds or fails.  Directories are made on the way to that file only, and a run
without a file to write leaves the whole tree alone.
-/

namespace PadBridge

namespace FileTree

variable {tree between after : FileTree} {workDirectory : Location} {path : Path}

theorem replacedAt?_eq_some_iff {location : Location} :
    tree.replacedAt? workDirectory path = some location ↔
      ∃ here name, tree.locate workDirectory path.directory = .ok here
        ∧ path.fileName? = some name ∧ location = here ++ [name] := by
  unfold replacedAt?
  cases tree.locate workDirectory path.directory <;> cases path.fileName? <;> simp [eq_comm]

theorem SameDirectories.replacedAt? (hsame : SameDirectories tree after) :
    tree.replacedAt? workDirectory path = after.replacedAt? workDirectory path := by
  apply Option.ext
  intro location
  rw [replacedAt?_eq_some_iff, replacedAt?_eq_some_iff]
  simp only [hsame.locate_iff]

/-- A file that is written lies where it would be replaced. -/
theorem Slot.replacedAt? {here : Location} {name : List UInt8}
    (hslot : Slot tree workDirectory path here name) :
    tree.replacedAt? workDirectory path = some (here ++ [name]) := by
  obtain ⟨_, _, hname, hhere⟩ := hslot.directory
  obtain ⟨place, hlocate, henter⟩ := bind_eq_ok_iff.mp hhere
  obtain ⟨rfl, _⟩ := enter_eq_ok_iff.mp henter
  exact replacedAt?_eq_some_iff.mpr ⟨place, name, hlocate, hname, rfl⟩

/-- One tree is the other but for the file that one path names and for directories on the way to
another.  Without a path for the file they are the same. -/
structure Touched (workDirectory : Location) (written way : Option Path) (tree after : FileTree) :
    Prop where
  files : ∀ location,
    (∀ path, written = some path → after.replacedAt? workDirectory path ≠ some location) →
    ∀ bytes, after.get? location = some (.file bytes) ↔ tree.get? location = some (.file bytes)
  directories : ∀ location, tree.get? location = some .directory →
    after.get? location = some .directory
  made : ∀ location, after.get? location = some .directory →
    tree.get? location = some .directory
      ∨ tree.get? location = none ∧ ∃ path, way = some path
        ∧ ∃ ancestor ∈ path.ancestors, after.locate workDirectory ancestor = .ok location
  same : written = none → after = tree

theorem Touched.refl (workDirectory : Location) (written way : Option Path) (tree : FileTree) :
    Touched workDirectory written way tree tree where
  files _ _ _ := Iff.rfl
  directories _ h := h
  made _ h := Or.inl h
  same _ := rfl

theorem touched_makeParent (tree : FileTree) (workDirectory : Location) (path : Path) :
    Touched workDirectory (some path) (some path) tree
      (tree.makeParent workDirectory path).1 := by
  have hgrown := grown_makeParent tree workDirectory path
  refine ⟨fun location _ => hgrown.file_iff location, hgrown.directoriesIn, ?_, nofun⟩
  intro location hdirectory
  cases htree : tree.get? location with
  | none =>
      obtain ⟨_, hway⟩ := hgrown.made location _ hdirectory htree
      exact Or.inr ⟨rfl, path, rfl, hway⟩
  | some node =>
      cases (hgrown.kept location node htree).symm.trans hdirectory
      exact Or.inl rfl

/-- Putting the file where its path names it touches nothing else. -/
theorem Touched.put {way : Option Path}
    (htouched : Touched workDirectory (some path) way tree between) {place : Location}
    (hplace : place ≠ []) (hfree : between.get? place ≠ some .directory)
    (hat : between.replacedAt? workDirectory path = some place) (bytes : List UInt8) :
    Touched workDirectory (some path) way tree (between.put place (.file bytes)) := by
  have hsame := (beside_put hplace hfree bytes).sameDirectories
  refine ⟨fun location hother => ?_, fun location hdirectory => ?_, fun location hdirectory => ?_,
    nofun⟩
  · have hbetween : between.replacedAt? workDirectory path ≠ some location := by
      rw [← hsame.replacedAt?]
      exact hother path rfl
    have hlocation : location ≠ place := by
      rintro rfl
      exact hbetween hat
    rw [get?_put between hplace, if_neg hlocation]
    refine htouched.files location ?_
    rintro _ ⟨⟩
    exact hbetween
  · exact hsame.mpr location (htouched.directories location hdirectory)
  · rcases htouched.made location (hsame.mp location hdirectory) with
      hthere | ⟨hnone, other, hway, ancestor, hancestor, hlocate⟩
    · exact Or.inl hthere
    · exact Or.inr ⟨hnone, other, hway, ancestor, hancestor, hsame.mpr.locate hlocate⟩

theorem Touched.write {way : Option Path}
    (htouched : Touched workDirectory (some path) way tree between) {bytes : List UInt8}
    (hwrite : between.write workDirectory path bytes = .ok after) :
    Touched workDirectory (some path) way tree after := by
  obtain ⟨here, name, hslot, rfl⟩ := write_eq_ok_iff.mp hwrite
  exact htouched.put (location_ne_nil here name) hslot.free hslot.replacedAt? bytes

theorem Touched.replace {way : Option Path}
    (htouched : Touched workDirectory (some path) way tree between) {bytes : List UInt8}
    (hreplaced : between.replace workDirectory path bytes = .replaced after) :
    Touched workDirectory (some path) way tree after := by
  obtain ⟨here, name, _, hfree, hat, rfl⟩ := exists_put_of_replaced hreplaced
  exact htouched.put (location_ne_nil here name) hfree hat bytes

end FileTree

namespace Run

open CommandLine (Command Invocation Argument Verb behind options)
open FileTree (FreshDraft Touched)

/-- The mapping document that a command line names behind its command, or else in front of it; else
the one that is chosen for all runs, or else the one of the settings in effect. -/
def documentPath (surroundings : Surroundings) (tree : FileTree) (verb : Verb)
    (arguments : List Argument) : Path :=
  let inner := options (.command verb) none (behind none arguments)
  let outer := options .top none arguments
  match (inner.lookup .mapping).or (outer.lookup .mapping), surroundings.mapping with
  | some bytes, _ => ⟨bytes⟩
  | none, some path => path
  | none, none => (Settings.effective surroundings tree).mappingFile

namespace Task

def written? (task : Task) : Command → Option Path
  | .set _ _ | .reset | .clear => some task.path
  | .generate out => out
  | .config mappingFile showInstructions =>
      if (task.settings.update mappingFile showInstructions).2 then
        Settings.file? task.surroundings
      else none
  | .show | .buttons => none

/-- The file for which a command may make directories. -/
def way? (task : Task) : Command → Option Path
  | .generate _ => none
  | command => task.written? command

theorem written?_of_saves {task : Task} {command : Command} (hsaves : saves command = true) :
    task.written? command = some task.path ∧ task.way? command = some task.path := by
  cases command with
  | set source destination => exact ⟨rfl, rfl⟩
  | reset => exact ⟨rfl, rfl⟩
  | clear => exact ⟨rfl, rfl⟩
  | generate out => cases hsaves
  | «show» => cases hsaves
  | buttons => cases hsaves
  | config mappingFile showInstructions => cases hsaves

theorem written?_of_changed {task : Task} {mappingFile : Option Path}
    {showInstructions : Option Bool}
    (hchanged : (task.settings.update mappingFile showInstructions).2 = true) :
    task.written? (.config mappingFile showInstructions) = Settings.file? task.surroundings
      ∧ task.way? (.config mappingFile showInstructions) = Settings.file? task.surroundings :=
  ⟨if_pos hchanged, if_pos hchanged⟩

section Leaves

variable {task : Task} {tree after : FileTree} {command : Command} {result : Except Abort Unit}
  {output : String} (hleaves : task.Leaves tree command result after output)
include hleaves

/-- A command touches the file that it may write and the way to it. -/
theorem Leaves.touched :
    Touched task.surroundings.workDirectory (task.written? command) (task.way? command) tree
      after := by
  cases hleaves with
  | same => exact Touched.refl _ _ _ _
  | way hsaves =>
      obtain ⟨hwritten, hway⟩ := task.written?_of_saves hsaves
      rw [hwritten, hway]
      exact FileTree.touched_makeParent tree _ task.path
  | document hsaves hreplaced =>
      obtain ⟨hwritten, hway⟩ := task.written?_of_saves hsaves
      rw [hwritten, hway]
      exact (FileTree.touched_makeParent tree _ task.path).replace hreplaced
  | code hwrite => exact (Touched.refl _ _ none tree).write hwrite
  | @settingsWay _ _ file hchanged hfile =>
      obtain ⟨hwritten, hway⟩ := task.written?_of_changed hchanged
      rw [hwritten, hway, hfile]
      exact FileTree.touched_makeParent tree _ file
  | @settings _ _ file _ _ hchanged hfile hwrite =>
      obtain ⟨hwritten, hway⟩ := task.written?_of_changed hchanged
      rw [hwritten, hway, hfile]
      exact (FileTree.touched_makeParent tree _ file).write hwrite

/-- A document that is kept could as well have been kept by way of any draft. -/
theorem Leaves.drafted (hsaves : saves command = true) :
    let readied := (tree.makeParent task.surroundings.workDirectory task.path).1
    after = tree ∨ after = readied ∨ ∃ bytes, ∀ letters,
      FreshDraft readied task.surroundings.workDirectory task.path letters →
      ∀ location, (readied.replaceByDraft task.surroundings.workDirectory task.path letters
        bytes).get? location = after.get? location := by
  intro readied
  cases hleaves with
  | same => exact Or.inl rfl
  | way => exact Or.inr (Or.inl rfl)
  | @document _ bytes _ _ hreplaced =>
      refine Or.inr (Or.inr ⟨bytes, fun letters hfresh location => ?_⟩)
      rw [FileTree.get?_replaceByDraft hfresh, hreplaced]
      rfl
  | code => cases hsaves
  | settingsWay => cases hsaves
  | settings => cases hsaves

end Leaves

end Task

variable {surroundings : Surroundings} {tree : FileTree} {arguments : List Argument}
  {invocation : Invocation}

theorem mappingPath_eq_documentPath
    (hread : CommandLine.read surroundings.mapping arguments = .ok invocation) :
    mappingPath surroundings tree invocation =
      documentPath surroundings tree invocation.command.verb arguments := by
  obtain ⟨hmapping, _⟩ := CommandLine.named_of_read hread
  rw [mappingPath_eq, hmapping, documentPath]
  generalize (List.lookup CommandLine.Flag.mapping _).or _ = given
  cases given with
  | some bytes => rfl
  | none => cases surroundings.mapping <;> rfl

/-- A run whose command line is accepted touches at most one file: the mapping document that the
command line names, or the one chosen for all runs, or the one of the settings in effect, if its
command changes the mapping; the file for the code; or the file of the settings if they change.
Directories are made only on the way to the first and the last of these.  A document is kept in one
step, which is what keeping it by way of a draft comes to. -/
theorem files_of_run
    (hread : CommandLine.read surroundings.mapping arguments = .ok invocation) :
    let path := documentPath surroundings tree invocation.command.verb arguments
    let task : Task := ⟨surroundings, .effective surroundings tree, path⟩
    let readied := (tree.makeParent surroundings.workDirectory path).1
    let after := (run surroundings tree arguments).tree
    Touched surroundings.workDirectory (task.written? invocation.command)
        (task.way? invocation.command) tree after
      ∧ (∀ out, invocation.command = .generate out → out =
        ((options (.command .generate) none (behind none arguments)).lookup .out).map Path.mk)
      ∧ (saves invocation.command = true →
        after = tree ∨ after = readied ∨ ∃ bytes, ∀ letters,
          FreshDraft readied surroundings.workDirectory path letters →
          ∀ location, (readied.replaceByDraft surroundings.workDirectory path letters
            bytes).get? location = after.get? location) := by
  intro path task readied after
  obtain ⟨result, written, hleaves, _⟩ := leaves_run tree hread
  rw [mappingPath_eq_documentPath hread] at hleaves
  obtain ⟨_, hout⟩ := CommandLine.named_of_read hread
  refine ⟨hleaves.touched, fun out hgenerate => ?_, hleaves.drafted⟩
  rw [hgenerate] at hout
  exact hout out rfl

/-- Of three mapping documents that are named the one behind the command is kept, in a directory
that is made for it.  Nothing comes to the other two, and what else is there stays. -/
theorem files_of_run_named_twice :
    let surroundings := { bareSurroundings with mapping := some (.ofString "e.json") }
    let tree := (FileTree.empty.put [Utf8.bytesOf "k"] (.file [0])).put
      [Utf8.bytesOf "e.json"] (.file [1])
    let arguments := [Utf8.bytesOf "-m", Utf8.bytesOf "show", Utf8.bytesOf "clear",
      Utf8.bytesOf "--mapping=d/m.json"]
    let after := (run surroundings tree arguments).tree
    CommandLine.read surroundings.mapping arguments =
        .ok ⟨some (.ofString "d/m.json"), false, .clear⟩
      ∧ documentPath surroundings tree .clear arguments = .ofString "d/m.json"
      ∧ (∃ bytes, after.find surroundings.workDirectory (.ofString "d/m.json") = .ok (.file bytes))
      ∧ after.get? [Utf8.bytesOf "k"] = some (.file [0])
      ∧ after.get? [Utf8.bytesOf "e.json"] = some (.file [1])
      ∧ (∀ bytes, after.get? [Utf8.bytesOf "show"] ≠ some (.file bytes)) := by
  intro surroundings tree arguments after
  have hread : CommandLine.read surroundings.mapping arguments =
      .ok ⟨some (.ofString "d/m.json"), false, .clear⟩ := by decide +kernel
  have hpath : documentPath surroundings tree .clear arguments = .ofString "d/m.json" := by
    decide +kernel
  obtain ⟨htouched, _, _⟩ := @files_of_run surroundings tree arguments _ hread
  -- Whatever is touched is called `m.json`.
  have hother : ∀ name, name ≠ Utf8.bytesOf "m.json" → ∀ bytes,
      after.get? [name] = some (.file bytes) ↔ tree.get? [name] = some (.file bytes) := by
    intro name hname
    refine htouched.files [name] fun path hwritten hat => ?_
    obtain rfl : path = .ofString "d/m.json" := (Option.some.inj hwritten).symm.trans hpath
    obtain ⟨here, last, _, hlast, hlocation⟩ := FileTree.replacedAt?_eq_some_iff.mp hat
    have hnamed : (Path.ofString "d/m.json").fileName? = some (Utf8.bytesOf "m.json") := by decide
    cases hnamed.symm.trans hlast
    have hlastName := congrArg List.getLast? hlocation
    rw [List.getLast?_concat] at hlastName
    cases hlastName
    exact hname rfl
  have habout : IsAbout [] (.ofString "d/m.json") surroundings tree arguments
      ⟨some (.ofString "d/m.json"), false, .clear⟩ := ⟨rfl, hread, rfl, choose_bareSurroundings⟩
  have hwritable : tree.Writable surroundings.workDirectory (.ofString "d/m.json") :=
    ⟨rfl, ⟨_, rfl⟩, by decide⟩
  obtain ⟨kept, hsave, hfind, _⟩ := ends_saveSession hwritable ⟨.unassigned⟩ ""
  obtain ⟨notices, filter, hrun⟩ :=
    run_of_ends habout (Task.ends_clear ⟨surroundings, _, .ofString "d/m.json"⟩ hsave)
  have hkept : after = kept := congrArg Outcome.tree hrun
  rw [← hkept] at hfind
  refine ⟨hread, hpath, ⟨_, hfind⟩, (hother _ (by decide) _).mpr rfl,
    (hother _ (by decide) _).mpr rfl, fun bytes hfile => ?_⟩
  cases (hother _ (by decide) bytes).mp hfile

end Run
end PadBridge
