import PadBridge.Proofs.Grounded
import PadBridge.Proofs.Run.Touching

/-!
Settings from run to run.  A `config` run that succeeds shows the settings that were in effect with
its options applied, and they are in effect from then on; nothing else changes the file of the
settings, as long as no run puts another document there.
-/

namespace PadBridge.Run

open CommandLine (Command Invocation Argument)
open FileTree (SameFile Settled)
open Settings (effective Agree)

variable {surroundings : Surroundings} {tree : FileTree} {arguments : List Argument}

/-- The options of a `config` run that succeeds. -/
def applied? (surroundings : Surroundings) (tree : FileTree) (arguments : List Argument) :
    Option (Option Path × Option Bool) :=
  match CommandLine.read surroundings.mapping arguments with
  | .ok ⟨_, _, .config mappingFile showInstructions⟩ =>
      if (run surroundings tree arguments).ending.code = 0 then some (mappingFile, showInstructions)
      else none
  | _ => none

/-- The tree in which a run keeps its mapping document, with the directories for it made. -/
def readied (surroundings : Surroundings) (tree : FileTree) (invocation : Invocation) : FileTree :=
  (tree.makeParent surroundings.workDirectory (mappingPath surroundings tree invocation)).1

/-- A run puts neither its mapping document nor its code where the settings are kept. -/
structure Apart (surroundings : Surroundings) (tree : FileTree) (invocation : Invocation) :
    Prop where
  document : saves invocation.command = true → ∀ place,
    (readied surroundings tree invocation).replacedAt? surroundings.workDirectory
      (mappingPath surroundings tree invocation) = some place →
    ∀ file ∈ Settings.file? surroundings,
      (readied surroundings tree invocation).locate surroundings.workDirectory file ≠ .ok place
  code : ∀ out, invocation.command = .generate (some out) → ∀ place,
    tree.locate surroundings.workDirectory out = .ok place →
    ∀ file ∈ Settings.file? surroundings,
      tree.locate surroundings.workDirectory file ≠ .ok place

/-- How a `config` run ends that succeeds: `next` are the settings that were in effect with its
options applied, and `toml` is their text.  Where nothing changes, nothing is kept. -/
structure Configured (surroundings : Surroundings) (tree : FileTree)
    (options : Option Path × Option Bool) (outcome : Outcome) (next : Settings) (changed : Bool)
    (toml : List Char) : Prop where
  update : (effective surroundings tree).update options.1 options.2 = (next, changed)
  text : next.toToml = .ok toml
  agree : Agree (effective surroundings outcome.tree) next
  saved : changed = true → ∃ file ∈ Settings.file? surroundings,
    outcome.output = "Saved " ++ file.shown ++ "\n" ++ String.ofList toml
      ∧ outcome.tree.find surroundings.workDirectory file = .ok (.file (Utf8.encode toml))
  same : changed = false → outcome.output = String.ofList toml ∧ outcome.tree = tree

namespace Task.Leaves

variable {task : Task} {path : Path} {command : Command} {result : Except Abort Unit}
  {after : FileTree} {written : String}
  (hleaves : task.Leaves tree command result after written)
  (hsettled : tree.Settled task.surroundings.workDirectory path)
include hleaves hsettled

theorem settled : after.Settled task.surroundings.workDirectory path := by
  cases hleaves with
  | same => exact hsettled
  | way => exact hsettled.makeParent task.path
  | document _ hreplaced => exact (hsettled.makeParent task.path).replace hreplaced
  | code hwrite => exact hsettled.write hwrite
  | @settingsWay _ _ file => exact hsettled.makeParent file
  | @settings _ _ file _ _ _ _ hwrite => exact (hsettled.makeParent file).write hwrite

/-- A command that puts its file elsewhere, or fails, leads no settled path to another file. -/
theorem sameFile
    (hdocument : saves command = true → ∀ place,
      (tree.makeParent task.surroundings.workDirectory task.path).1.replacedAt?
        task.surroundings.workDirectory task.path = some place →
      (tree.makeParent task.surroundings.workDirectory task.path).1.locate
        task.surroundings.workDirectory path ≠ .ok place)
    (hcode : ∀ out, command = .generate (some out) → ∀ place,
      tree.locate task.surroundings.workDirectory out = .ok place →
      tree.locate task.surroundings.workDirectory path ≠ .ok place)
    (hconfig : ∀ mappingFile showInstructions, command = .config mappingFile showInstructions →
      result ≠ .ok ()) :
    SameFile task.surroundings.workDirectory path tree after := by
  cases hleaves with
  | same => exact fun _ => Iff.rfl
  | way => exact hsettled.sameFile_makeParent task.path
  | document hsaves hreplaced =>
      exact (hsettled.sameFile_makeParent task.path).trans
        (FileTree.sameFile_of_replaced hreplaced (hdocument hsaves))
  | code hwrite => exact fun bytes => FileTree.find_of_write hwrite (hcode _ rfl) (.file bytes)
  | @settingsWay _ _ file => exact hsettled.sameFile_makeParent file
  | settings => exact absurd rfl (hconfig _ _ rfl)

end Task.Leaves

/-- A `config` command that succeeds. -/
theorem configured_of_done {mapping : Option Path} {verbose : Bool} {mappingFile : Option Path}
    {showInstructions : Option Bool}
    (hread : CommandLine.read surroundings.mapping arguments =
      .ok ⟨mapping, verbose, .config mappingFile showInstructions⟩)
    (hcode : (run surroundings tree arguments).ending.code = 0) :
    ∃ next changed toml, Configured surroundings tree (mappingFile, showInstructions)
      (run surroundings tree arguments) next changed toml := by
  rcases run_cases tree hread with hcrashed | hrun
  · rw [hcrashed] at hcode
    cases hcode
  · generalize mappingPath surroundings tree _ = path at hrun
    let task : Task := ⟨surroundings, effective surroundings tree, path⟩
    rcases task.config_cases mappingFile showInstructions tree "" with ⟨abort, after, hends, _⟩ |
      ⟨next, toml, hupdate, htext, hends⟩ |
        ⟨file, next, toml, after, hfile, hupdate, htext, hwrite, hends⟩
    · obtain ⟨notices, filter, hrun⟩ := hrun hends
      rw [hrun] at hcode
      cases abort <;> cases hcode
    · obtain ⟨notices, filter, hrun⟩ := hrun hends
      rw [hrun]
      exact ⟨next, false, toml, hupdate, htext, Settings.agree_of_update_same _ _ hupdate, nofun,
        fun _ => ⟨rfl, rfl⟩⟩
    · obtain ⟨notices, filter, hrun⟩ := hrun hends
      have hfind := FileTree.find_of_write_self hwrite
      rw [hrun]
      refine ⟨next, true, toml, hupdate, htext, ?_, fun _ => ⟨file, hfile, ?_, hfind⟩, nofun⟩
      · rw [Settings.effective_of_toToml hfile htext hfind]
        exact Agree.refl next
      · simp

theorem configured_of_applied? {options : Option Path × Option Bool}
    (happlied : applied? surroundings tree arguments = some options) :
    ∃ next changed toml, Configured surroundings tree options (run surroundings tree arguments)
      next changed toml := by
  unfold applied? at happlied
  split at happlied
  · rename_i hread
    split at happlied
    · rename_i hcode
      cases happlied
      exact configured_of_done hread hcode
    · cases happlied
  · cases happlied

theorem settled_run {path : Path} (hsettled : tree.Settled surroundings.workDirectory path)
    (arguments : List Argument) :
    (run surroundings tree arguments).tree.Settled surroundings.workDirectory path := by
  cases hread : CommandLine.read surroundings.mapping arguments with
  | error reason =>
      rw [tree_run_of_stop tree hread]
      exact hsettled
  | ok invocation =>
      obtain ⟨result, written, hleaves, _⟩ := leaves_run tree hread
      exact hleaves.settled hsettled

/-- Unless it is a `config` run that succeeds, a run leaves the file of the settings alone. -/
theorem sameFile_run
    {file : Path} (hfile : Settings.file? surroundings = some file)
    (hsettled : tree.Settled surroundings.workDirectory file)
    (hapart : ∀ invocation, CommandLine.read surroundings.mapping arguments = .ok invocation →
      Apart surroundings tree invocation)
    (hnone : applied? surroundings tree arguments = none) :
    SameFile surroundings.workDirectory file tree (run surroundings tree arguments).tree := by
  cases hread : CommandLine.read surroundings.mapping arguments with
  | error reason =>
      rw [tree_run_of_stop tree hread]
      exact fun _ => Iff.rfl
  | ok invocation =>
      obtain ⟨result, written, hleaves, hfails⟩ := leaves_run tree hread
      obtain ⟨hdocument, hcode⟩ := hapart invocation hread
      refine hleaves.sameFile hsettled
        (fun hsaves place hplace => hdocument hsaves place hplace file hfile)
        (fun out hout place hplace => hcode out hout place hplace file hfile) ?_
      intro mappingFile showInstructions hcommand
      apply hfails
      intro hdone
      obtain ⟨mapping, verbose, command⟩ := invocation
      cases hcommand
      simp [applied?, hread, hdone] at hnone

def keep (settings : Settings) : Option (Option Path × Option Bool) → Settings
  | some options => (settings.update options.1 options.2).1
  | none => settings

/-- The trees that runs lead to in fixed surroundings, and the settings that were in effect at the
start with the options of all `config` runs applied that succeeded. -/
inductive Course (surroundings : Surroundings) : FileTree → Settings → Prop where
  | start {tree : FileTree}
      (hsettled : ∀ file ∈ Settings.file? surroundings,
        tree.Settled surroundings.workDirectory file) :
      Course surroundings tree (effective surroundings tree)
  | run {tree : FileTree} {settings : Settings} {arguments : List Argument}
      (hcourse : Course surroundings tree settings)
      (hapart : ∀ invocation, CommandLine.read surroundings.mapping arguments = .ok invocation →
        Apart surroundings tree invocation) :
      Course surroundings (run surroundings tree arguments).tree
        (keep settings (applied? surroundings tree arguments))

/-- All along a course the settings in effect are the ones that the runs have made. -/
theorem Course.invariant {settings : Settings} (hcourse : Course surroundings tree settings) :
    (∀ file ∈ Settings.file? surroundings, tree.Settled surroundings.workDirectory file)
      ∧ Agree (effective surroundings tree) settings := by
  induction hcourse with
  | start hsettled => exact ⟨hsettled, Agree.refl _⟩
  | @run tree settings arguments _ hapart ih =>
      obtain ⟨hsettled, hagree⟩ := ih
      refine ⟨fun file hfile => settled_run (hsettled file hfile) arguments, ?_⟩
      cases happlied : applied? surroundings tree arguments with
      | none =>
          have hsame := fun file hfile => sameFile_run hfile (hsettled file hfile) hapart happlied
          rw [Settings.effective_of_sameFile hsame]
          exact hagree
      | some options =>
          obtain ⟨next, changed, toml, hconfigured⟩ := configured_of_applied? happlied
          have hupdate := hagree.update options.1 options.2
          rw [hconfigured.update] at hupdate
          exact hconfigured.agree.trans hupdate

/-- In every state of a course the settings in effect are, up to the spelling of the path, the ones
at its start with the options of all successful `config` runs applied.  Every further `config` run
that succeeds shows the settings in effect with its options applied and puts them into effect, and
it writes the file of the settings only if that changes them; every other run leaves the file as it
is. -/
theorem course_keeps_settings {settings : Settings} (hcourse : Course surroundings tree settings) :
    Agree (effective surroundings tree) settings
      ∧ ∀ arguments,
        (∀ options, applied? surroundings tree arguments = some options →
          ∃ next changed toml, Configured surroundings tree options
            (run surroundings tree arguments) next changed toml)
        ∧ ((∀ invocation, CommandLine.read surroundings.mapping arguments = .ok invocation →
            Apart surroundings tree invocation) →
          applied? surroundings tree arguments = none →
          ∀ file ∈ Settings.file? surroundings, SameFile surroundings.workDirectory file tree
            (run surroundings tree arguments).tree) := by
  obtain ⟨hsettled, hagree⟩ := hcourse.invariant
  exact ⟨hagree, fun arguments => ⟨fun options => configured_of_applied?,
    fun hapart hnone file hfile => sameFile_run hfile (hsettled file hfile) hapart hnone⟩⟩

/-- A tree with nothing but the file of the settings, in a directory of the root. -/
def settingsTree (directory bytes : List UInt8) : FileTree :=
  ((FileTree.empty.put [directory] .directory).put [directory, Utf8.bytesOf "gc2n64remapper"]
    .directory).put [directory, Utf8.bytesOf "gc2n64remapper", Utf8.bytesOf "config.toml"]
      (.file bytes)

theorem nested_settingsTree (directory bytes : List UInt8) :
    (settingsTree directory bytes).Nested := by
  have hempty : ∀ location, location ≠ [] → FileTree.empty.get? location = none :=
    fun location hlocation => if_neg hlocation
  have hfirst : (FileTree.empty.put ([] ++ [directory]) .directory).Nested :=
    FileTree.nested_empty.put rfl (by simp [hempty]) .directory
  have hsecond : ((FileTree.empty.put [directory] .directory).put
      ([directory] ++ [Utf8.bytesOf "gc2n64remapper"]) .directory).Nested :=
    hfirst.put (by simp [FileTree.get?_put]) (by simp [FileTree.get?_put, hempty]) .directory
  have hthird : (((FileTree.empty.put [directory] .directory).put
      [directory, Utf8.bytesOf "gc2n64remapper"] .directory).put
        ([directory, Utf8.bytesOf "gc2n64remapper"] ++ [Utf8.bytesOf "config.toml"])
          (.file bytes)).Nested :=
    hsecond.put (by simp [FileTree.get?_put]) (by simp [FileTree.get?_put, hempty]) (.file bytes)
  exact hthird

/-- A run about a document that is put at another place than the settings. -/
theorem apart_of_document {workDirectory : Location} {path : Path} {invocation : Invocation}
    (habout : IsAbout workDirectory path surroundings tree arguments invocation)
    (place other : Location) {file : Path} (hfile : Settings.file? surroundings = some file)
    (hdocument : (tree.makeParent workDirectory path).1.replacedAt? workDirectory path = some place)
    (hother : (tree.makeParent workDirectory path).1.locate workDirectory file = .ok other)
    (hne : place ≠ other) (hcommand : ∀ out, invocation.command ≠ .generate (some out)) :
    ∀ found, CommandLine.read surroundings.mapping arguments = .ok found →
      Apart surroundings tree found := by
  intro found hfound
  cases habout.read.symm.trans hfound
  refine ⟨fun _ there hthere found hfound hsettings => ?_,
    fun out hout => absurd hout (hcommand out)⟩
  rw [readied, habout.mappingPath, habout.directory] at hthere hsettings
  cases hfile.symm.trans hfound
  cases hdocument.symm.trans hthere
  cases hother.symm.trans hsettings
  exact hne rfl

def bareFile : Path := .ofString "/.config/gc2n64remapper/config.toml"

theorem file?_bareSurroundings : Settings.file? bareSurroundings = some bareFile := by decide

/-- The places of a document and of the settings in a small tree. -/
theorem places_settingsTree (bytes : List UInt8) :
    let tree := settingsTree (Utf8.bytesOf ".config") bytes
    let made := (tree.makeParent [] (.ofString "m.json")).1
    made.replacedAt? [] (.ofString "m.json") = some [Utf8.bytesOf "m.json"]
      ∧ made.locate [] bareFile = .ok [Utf8.bytesOf ".config",
        Utf8.bytesOf "gc2n64remapper", Utf8.bytesOf "config.toml"] :=
  ⟨rfl, rfl⟩

/-- Settings are saved in place of whatever text their file has. -/
theorem save_settingsTree {settings : Settings} {toml : List Char}
    (htext : settings.toToml = .ok toml) (bytes : List UInt8) :
    settings.save bareSurroundings (settingsTree (Utf8.bytesOf ".config") bytes) =
      (settingsTree (Utf8.bytesOf ".config") (Utf8.encode toml),
        .ok bareFile) := by
  have hdirectory : bareSurroundings.workDirectory = [] := rfl
  have hmade : (settingsTree (Utf8.bytesOf ".config") bytes).makeParent []
      bareFile =
        (settingsTree (Utf8.bytesOf ".config") bytes, .ok ()) := rfl
  have hwrite : ∀ text, (settingsTree (Utf8.bytesOf ".config") bytes).write []
      bareFile text =
        .ok (settingsTree (Utf8.bytesOf ".config") text) := fun _ => rfl
  simp only [Settings.save, file?_bareSurroundings, Settings.saveTo, htext, hdirectory, hmade,
    hwrite]

/-- Settings that are spoiled count as the default ones until a `config` run replaces them. -/
theorem course_keeps_settings_spoiled :
    let hidden : Settings := { Settings.default with showInstructions := false }
    let tree := settingsTree (Utf8.bytesOf ".config") [0xFF]
    let config := Command.spelled (.config none (some false)) (.ofString "m.json")
    let reset := Command.spelled .reset (.ofString "m.json")
    let changed := (run bareSurroundings tree config).tree
    effective bareSurroundings tree = .default ∧ Agree (effective bareSurroundings changed) hidden
      ∧ SameFile [] bareFile changed
        (run bareSurroundings changed reset).tree := by
  intro hidden tree config reset changed
  have hpath : (Path.ofString "m.json").bytes ≠ [] := by decide
  have hconfig := isAbout_bareSurroundings tree (.config none (some false)) hpath nofun
  have hreset := isAbout_bareSurroundings changed .reset hpath nofun
  have heffective : effective bareSurroundings tree = .default := by
    have hspoiled : tree.find [] bareFile = .ok (.file [0xFF]) := rfl
    rw [Settings.effective_of_find file?_bareSurroundings hspoiled, Settings.ofBytes, Utf8.decode?]
    rfl
  have hstart : Course bareSurroundings tree .default := by
    rw [← heffective]
    refine .start fun file hfile => ?_
    cases file?_bareSurroundings.symm.trans hfile
    exact ⟨nested_settingsTree _ _, FileTree.grounded_of_no_up (by decide)⟩
  obtain ⟨toml, htext⟩ : ∃ toml, hidden.toToml = .ok toml := ⟨_, Settings.toToml_ofString _ _⟩
  have hupdate : (effective bareSurroundings tree).update none (some false) = (hidden, true) := by
    rw [heffective]
    rfl
  obtain ⟨notices, filter, hrun⟩ := run_of_ends hconfig
    (Task.ends_config_saved ⟨bareSurroundings, effective bareSurroundings tree, .ofString "m.json"⟩
      hupdate (save_settingsTree htext _) htext)
  have happlied : applied? bareSurroundings tree config = some (none, some false) := by
    rw [applied?, hconfig.read]
    simp only [config, hrun]
    rfl
  have hchanged : changed = settingsTree (Utf8.bytesOf ".config") (Utf8.encode toml) := by
    simp only [changed, config, hrun]
  have hnone : applied? bareSurroundings changed reset = none := by
    rw [applied?, hreset.read]
  have hapart : ∀ invocation, CommandLine.read bareSurroundings.mapping reset = .ok invocation →
      Apart bareSurroundings changed invocation := by
    obtain ⟨hdocument, hfile⟩ := places_settingsTree (Utf8.encode toml)
    rw [← hchanged] at hdocument hfile
    exact apart_of_document hreset _ _ file?_bareSurroundings hdocument hfile (by decide) (by simp)
  obtain ⟨hdocument, hfile⟩ := places_settingsTree [0xFF]
  have hcourse := hstart.run
    (apart_of_document hconfig _ _ file?_bareSurroundings hdocument hfile (by decide) (by simp))
  rw [happlied] at hcourse
  obtain ⟨hagree, hruns⟩ := course_keeps_settings hcourse
  exact ⟨heffective, hagree, (hruns reset).2 hapart hnone bareFile file?_bareSurroundings⟩

/-- Surroundings in which the path of the settings goes up from a directory. -/
def upwardSurroundings : Surroundings :=
  { bareSurroundings with configHome := some (.ofString "/x/../c") }

def upwardFile : Path := .ofString "/x/../c/gc2n64remapper/config.toml"

theorem file?_upwardSurroundings : Settings.file? upwardSurroundings = some upwardFile := by decide

/-- With the directory that the path of the settings goes up from, it leads to their file. -/
theorem find_settings_upward (bytes content : List UInt8) :
    (((settingsTree (Utf8.bytesOf "c") content).put [Utf8.bytesOf "x"] .directory).put
      [Utf8.bytesOf "x", Utf8.bytesOf "m.json"] (.file bytes)).find []
        upwardFile = .ok (.file content) :=
  rfl

theorem isAbout_upwardSurroundings (tree : FileTree) :
    IsAbout [] (.ofString "x/m.json") upwardSurroundings tree
      (Command.spelled .reset (.ofString "x/m.json"))
      ⟨some (.ofString "x/m.json"), false, .reset⟩ := by
  have hpath : (Path.ofString "x/m.json").bytes ≠ [] := by decide
  have hfilter : Log.Filter.choose upwardSurroundings.logFilter false ≠ none :=
    choose_bareSurroundings
  exact isAbout_spelled hpath (fun _ h => by cases h) (fun _ h => by cases h) hfilter

/-- A document in that directory is put apart from the settings. -/
theorem apart_upward (content : List UInt8) :
    let tree := settingsTree (Utf8.bytesOf "c") content
    ∀ invocation, CommandLine.read upwardSurroundings.mapping
        (Command.spelled .reset (.ofString "x/m.json")) = .ok invocation →
      Apart upwardSurroundings tree invocation := by
  intro tree
  have hdocument : (tree.makeParent [] (.ofString "x/m.json")).1.replacedAt? []
      (.ofString "x/m.json") = some [Utf8.bytesOf "x", Utf8.bytesOf "m.json"] := rfl
  have hfile : (tree.makeParent [] (.ofString "x/m.json")).1.locate []
      upwardFile = .ok [Utf8.bytesOf "c",
        Utf8.bytesOf "gc2n64remapper", Utf8.bytesOf "config.toml"] := rfl
  exact apart_of_document (isAbout_upwardSurroundings tree) _ _ file?_upwardSurroundings hdocument
    hfile (by decide) (by simp)

/-- The run that puts a document there makes the directory. -/
theorem exists_run_upward (content : List UInt8) :
    let tree := settingsTree (Utf8.bytesOf "c") content
    ∃ bytes output notices filter, run upwardSurroundings tree
        (Command.spelled .reset (.ofString "x/m.json")) =
      ⟨(tree.put [Utf8.bytesOf "x"] .directory).put [Utf8.bytesOf "x", Utf8.bytesOf "m.json"]
        (.file bytes), output, notices, filter, .done⟩ := by
  intro tree
  have hloaded : loaded? [] tree (.ofString "x/m.json") = some .factory := rfl
  have hmade : tree.makeParent [] (.ofString "x/m.json") =
      (tree.put [Utf8.bytesOf "x"] .directory, .ok ()) := rfl
  have hreplaced : ∀ bytes, (tree.put [Utf8.bytesOf "x"] .directory).replace []
      (.ofString "x/m.json") bytes = .replaced ((tree.put [Utf8.bytesOf "x"] .directory).put
        [Utf8.bytesOf "x", Utf8.bytesOf "m.json"] (.file bytes)) := fun _ => rfl
  have hsave : Ends (Task.save ⟨upwardSurroundings, effective upwardSurroundings tree,
      .ofString "x/m.json"⟩ .new) tree "" (.ok ()) ((tree.put [Utf8.bytesOf "x"] .directory).put
        [Utf8.bytesOf "x", Utf8.bytesOf "m.json"] (.file (Utf8.bytesOf Mapping.factory.text))) "" :=
    ends_saveSession_of_replaced hmade (hreplaced _)
  obtain ⟨notices, filter, hrun⟩ :=
    run_of_ends (isAbout_upwardSurroundings tree) (Task.ends_reset _ hloaded hsave)
  exact ⟨_, _, notices, filter, hrun⟩

/-- A path that goes up from a directory that is not there does not lead to settings until a run
makes the directory for its document; then settings are in effect that no run put there. -/
theorem reset_changes_settings :
    let tree := settingsTree (Utf8.bytesOf "c") (Utf8.bytesOf "show_instructions = false\n")
    let reset := Command.spelled .reset (.ofString "x/m.json")
    let outcome := run upwardSurroundings tree reset
    tree.Nested
      ∧ (∀ invocation, CommandLine.read upwardSurroundings.mapping reset = .ok invocation →
        Apart upwardSurroundings tree invocation)
      ∧ outcome.ending.code = 0 ∧ applied? upwardSurroundings tree reset = none
      ∧ effective upwardSurroundings tree = .default
      ∧ effective upwardSurroundings outcome.tree =
        { Settings.default with showInstructions := false }
      ∧ ¬ Agree (effective upwardSurroundings outcome.tree)
        (effective upwardSurroundings tree) := by
  have hflag : Settings.ofBytes (Utf8.bytesOf "show_instructions = false\n") =
      { Settings.default with showInstructions := false } :=
    Settings.ofBytes_encode (Settings.ofToml_flag false)
  -- The text counts for nothing but the settings that it stands for.
  generalize Utf8.bytesOf "show_instructions = false\n" = content at hflag
  intro tree reset outcome
  obtain ⟨bytes, output, notices, filter, hrun⟩ := exists_run_upward content
  have hbefore : effective upwardSurroundings tree = .default := by
    have hmissing : tree.find [] upwardFile = .error .notFound := rfl
    exact Settings.effective_of_no_file file?_upwardSurroundings fun bytes hfind => by
      cases hmissing.symm.trans hfind
  have hafter : effective upwardSurroundings outcome.tree =
      { Settings.default with showInstructions := false } := by
    rw [← hflag]
    apply Settings.effective_of_find file?_upwardSurroundings
    simp only [outcome, tree, reset, hrun]
    exact find_settings_upward bytes content
  refine ⟨nested_settingsTree _ _, apart_upward content, ?_, ?_, hbefore, hafter, ?_⟩
  · simp only [outcome, tree, reset, hrun]
    rfl
  · rw [applied?, (isAbout_upwardSurroundings tree).read]
  · rw [hbefore, hafter]
    intro hagree
    cases hagree.showInstructions

end PadBridge.Run
