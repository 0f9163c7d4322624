import PadBridge.Proofs.Directories
import PadBridge.Proofs.Run.About

/-!
What a command leaves of the tree.  A command writes its one file when nothing can go wrong any
more; before that it may have made the directories on the way to it.
-/

namespace PadBridge.Run.Task

open CommandLine (Command)

/-- The trees that a command can leave, by its result.  What it writes as output is left open. -/
inductive Leaves (task : Task) (tree : FileTree) :
    Command → Except Abort Unit → FileTree → String → Prop where
  | same (command : Command) (result : Except Abort Unit) (written : String) :
      Leaves task tree command result tree written
  /-- The directories for a document that is not kept. -/
  | way {command : Command} (hsaves : saves command = true) (abort : Abort) (written : String) :
      Leaves task tree command (.error abort)
        (tree.makeParent task.surroundings.workDirectory task.path).1 written
  | document {command : Command} {bytes : List UInt8} {after : FileTree}
      (hsaves : saves command = true)
      (hreplaced : (tree.makeParent task.surroundings.workDirectory task.path).1.replace
        task.surroundings.workDirectory task.path bytes = .replaced after) (written : String) :
      Leaves task tree command (.ok ()) after written
  | code {out : Path} {bytes : List UInt8} {after : FileTree}
      (hwrite : tree.write task.surroundings.workDirectory out bytes = .ok after)
      (written : String) :
      Leaves task tree (.generate (some out)) (.ok ()) after written
  /-- The directories for settings that are not kept. -/
  | settingsWay {mappingFile : Option Path} {showInstructions : Option Bool} {file : Path}
      (hchanged : (task.settings.update mappingFile showInstructions).2 = true)
      (hfile : Settings.file? task.surroundings = some file) (abort : Abort) (written : String) :
      Leaves task tree (.config mappingFile showInstructions) (.error abort)
        (tree.makeParent task.surroundings.workDirectory file).1 written
  | settings {mappingFile : Option Path} {showInstructions : Option Bool} {file : Path}
      {bytes : List UInt8} {after : FileTree}
      (hchanged : (task.settings.update mappingFile showInstructions).2 = true)
      (hfile : Settings.file? task.surroundings = some file)
      (hwrite : (tree.makeParent task.surroundings.workDirectory file).1.write
        task.surroundings.workDirectory file bytes = .ok after) (written : String) :
      Leaves task tree (.config mappingFile showInstructions) (.ok ()) after written

variable (task : Task) {tree : FileTree} {output : String}

/-- Saving is the last thing that can go wrong. -/
theorem leaves_save_print {command : Command} (hsaves : saves command = true) (session : Session)
    (text : String) (tree : FileTree) (output : String) :
    EndsWith (do
        task.save session
        print text)
      tree output (task.Leaves tree command) := by
  refine (endsWith_saveSession task.surroundings task.path session tree output).bind ?_ ?_
  · intro value between said hsaved
    obtain ⟨_, ⟨_, hreplaced⟩ | ⟨_, herror, _⟩⟩ := hsaved
    · exact (ends_print text).endsWith (.document hsaves hreplaced _)
    · cases herror
  · intro abort after written hstopped
    obtain ⟨_, ⟨hok, _⟩ | ⟨_, _, rfl⟩⟩ := hstopped
    · cases hok
    · exact .way hsaves abort written

/-- Where no mapping is loaded nothing is done. -/
theorem leaves_of_loaded {command : Command} {next : Session → Action Unit}
    (hnext : ∀ mapping, loaded? task.surroundings.workDirectory tree task.path = some mapping →
      EndsWith (task.load >>= next) tree output (task.Leaves tree command)) :
    EndsWith (task.load >>= next) tree output (task.Leaves tree command) := by
  cases hloaded : loaded? task.surroundings.workDirectory tree task.path with
  | none =>
      obtain ⟨error, hload⟩ := ends_loadSession_error hloaded
      exact hload.bind_error.endsWith (.same command _ output)
  | some mapping => exact hnext mapping hloaded

theorem leaves_showMapping (tree : FileTree) (output : String) :
    EndsWith task.showMapping tree output (task.Leaves tree .show) :=
  task.leaves_of_loaded fun _ hloaded =>
    (task.ends_showMapping hloaded).endsWith (.same .show _ _)

theorem leaves_generate (out : Option Path) (tree : FileTree) (output : String) :
    EndsWith (task.generate out) tree output (task.Leaves tree (.generate out)) := by
  refine task.leaves_of_loaded fun mapping hloaded => ?_
  cases out with
  | none => exact (task.ends_generate_none hloaded).endsWith (.same (.generate none) _ _)
  | some out =>
      cases hwrite : tree.write task.surroundings.workDirectory out
          (Utf8.bytesOf mapping.generate) with
      | ok after => exact (task.ends_generate_some hloaded hwrite).endsWith (.code hwrite _)
      | error error =>
          exact (task.ends_generate_some_error hloaded hwrite).endsWith
            (.same (.generate (some out)) _ output)

theorem leaves_set (source : GameCubeButton) (destination : String) (tree : FileTree)
    (output : String) :
    EndsWith (task.set source destination) tree output
      (task.Leaves tree (.set source destination)) := by
  -- What is logged about an unknown target comes first and leaves the tree alone.
  have hrest : EndsWith (do
        let session ← task.load
        log (.assigned source (.ofName destination))
        task.save (session.set source (.ofName destination))
        print (source.name ++ " -> " ++ (Target.ofName destination).name ++ "\n"))
      tree output (task.Leaves tree (.set source destination)) :=
    task.leaves_of_loaded fun mapping hloaded =>
      (ends_loadSession hloaded).bind_endsWith
        ((ends_log _).bind_endsWith (task.leaves_save_print rfl _ _ tree output))
  unfold set
  cases htarget : Target.ofName destination with
  | unknown name =>
      rw [htarget] at hrest
      exact (ends_log _).bind_endsWith hrest
  | button destination =>
      rw [htarget] at hrest
      exact hrest
  | unassigned =>
      rw [htarget] at hrest
      exact hrest

theorem leaves_reset (tree : FileTree) (output : String) :
    EndsWith task.reset tree output (task.Leaves tree .reset) := by
  obtain ⟨session, hload⟩ := task.ends_loadOrNew tree output
  exact hload.bind_endsWith (task.leaves_save_print rfl _ _ tree output)

theorem leaves_clear (tree : FileTree) (output : String) :
    EndsWith task.clear tree output (task.Leaves tree .clear) :=
  (ends_noteAll _).bind_endsWith (task.leaves_save_print rfl _ _ tree output)

/-- Settings that were kept have a text, so they can be shown too. -/
theorem leaves_config (mappingFile : Option Path) (showInstructions : Option Bool)
    (tree : FileTree) (output : String) :
    EndsWith (task.config mappingFile showInstructions) tree output
      (task.Leaves tree (.config mappingFile showInstructions)) := by
  rcases task.config_cases mappingFile showInstructions tree output with
    ⟨abort, after, hends, rfl | ⟨hchanged, file, hfile, rfl⟩⟩ | ⟨next, text, _, _, hends⟩ |
      ⟨file, next, text, after, hfile, hupdate, _, hwrite, hends⟩
  · exact hends.endsWith (.same (.config _ _) _ output)
  · exact hends.endsWith (.settingsWay hchanged hfile _ _)
  · exact hends.endsWith (.same (.config _ _) _ _)
  · exact hends.endsWith (.settings (by rw [hupdate]) hfile hwrite _)

theorem leaves_perform (command : Command) (tree : FileTree) (output : String) :
    EndsWith (task.perform command) tree output (task.Leaves tree command) := by
  cases command with
  | generate out => exact task.leaves_generate out tree output
  | set source destination => exact task.leaves_set source destination tree output
  | «show» => exact task.leaves_showMapping tree output
  | reset => exact task.leaves_reset tree output
  | clear => exact task.leaves_clear tree output
  | buttons => exact (ends_print _).endsWith (.same .buttons _ _)
  | config mappingFile showInstructions =>
      exact task.leaves_config mappingFile showInstructions tree output

end PadBridge.Run.Task

namespace PadBridge.Run

/-- A run leaves what its command leaves. -/
theorem leaves_run {surroundings : Surroundings} {arguments : List CommandLine.Argument}
    {invocation : CommandLine.Invocation} (tree : FileTree)
    (hread : CommandLine.read surroundings.mapping arguments = .ok invocation) :
    ∃ result written, Task.Leaves ⟨surroundings, .effective surroundings tree,
        mappingPath surroundings tree invocation⟩ tree invocation.command result
        (run surroundings tree arguments).tree written
      ∧ ((run surroundings tree arguments).ending.code ≠ 0 → result ≠ .ok ()) := by
  rcases run_cases tree hread with hcrashed | hrun
  · refine ⟨.error .crashed, "", ?_, fun _ h => by cases h⟩
    rw [hcrashed]
    exact .same _ _ _
  · obtain ⟨result, after, written, hends, hleaves⟩ :=
      Task.leaves_perform ⟨surroundings, .effective surroundings tree,
        mappingPath surroundings tree invocation⟩ invocation.command tree ""
    obtain ⟨notices, filter, hrun⟩ := hrun hends
    refine ⟨result, written, by rw [hrun]; exact hleaves, ?_⟩
    rw [hrun]
    rintro hcode rfl
    exact hcode rfl

end PadBridge.Run
