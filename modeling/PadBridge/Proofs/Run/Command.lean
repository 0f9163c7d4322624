import PadBridge.Proofs.Run.Action
import PadBridge.Proofs.Saving
import PadBridge.Proofs.SettingsFile
import PadBridge.Run.Reach

/-!
How the commands end, and the parts they are made of.  Loading gives the mapping that is found at
the path and changes nothing.  Saving leaves the document of the session there, and keeping settings
their text; where either stops, there are at most more directories than before.
-/

namespace PadBridge

/-- Keeping settings needs a file for them.  Then it makes the directories for this file, and writes
their text there or stops.  Where it stops, these directories are at most what is new. -/
theorem Settings.save_cases (settings : Settings) (surroundings : Surroundings) (tree : FileTree) :
    (∃ error after, settings.save surroundings tree = (after, .error error)
        ∧ (after = tree ∨ ∃ file ∈ file? surroundings,
          after = (tree.makeParent surroundings.workDirectory file).1))
      ∨ ∃ file text after, file? surroundings = some file ∧ settings.toToml = .ok text
        ∧ (tree.makeParent surroundings.workDirectory file).1.write surroundings.workDirectory file
            (Utf8.encode text) = .ok after
        ∧ settings.save surroundings tree = (after, .ok file) := by
  cases hfile : file? surroundings with
  | none => exact Or.inl ⟨.placeUnknown, tree, by simp only [save, hfile], Or.inl rfl⟩
  | some file =>
      rcases hmade : tree.makeParent surroundings.workDirectory file with ⟨between, error | ⟨⟨⟩⟩⟩
      · exact Or.inl ⟨.file error, between, by simp only [save, hfile, saveTo, hmade],
          Or.inr ⟨file, rfl, by rw [hmade]⟩⟩
      · cases htext : settings.toToml with
        | error error =>
            exact Or.inl ⟨.text error, between, by simp only [save, hfile, saveTo, hmade, htext],
              Or.inr ⟨file, rfl, by rw [hmade]⟩⟩
        | ok text =>
            cases hwrite : between.write surroundings.workDirectory file (Utf8.encode text) with
            | error error =>
                exact Or.inl ⟨.file error, between,
                  by simp only [save, hfile, saveTo, hmade, htext, hwrite],
                  Or.inr ⟨file, rfl, by rw [hmade]⟩⟩
            | ok after =>
                exact Or.inr ⟨file, text, after, rfl, rfl, by rw [hmade]; exact hwrite,
                  by simp only [save, hfile, saveTo, hmade, htext, hwrite]⟩

namespace Run

open CommandLine (Command Invocation Argument)

def saves : Command → Bool
  | .set _ _ | .reset | .clear => true
  | .show | .generate _ | .buttons | .config _ _ => false

/-- The mapping that a run finds at a path: the factory mapping if nothing is there, and none if
what is there is no mapping document. -/
def loaded? (workDirectory : Location) (tree : FileTree) (path : Path) : Option Mapping :=
  if tree.contains workDirectory path then
    match tree.read workDirectory path with
    | .ok bytes => (Mapping.decode bytes).toOption
    | .error _ => none
  else some .factory

section Loaded

variable {workDirectory : Location} {tree : FileTree} {path : Path} {mapping : Mapping}

theorem loaded?_eq_some_iff :
    loaded? workDirectory tree path = some mapping ↔
      (tree.contains workDirectory path = false ∧ .factory = mapping)
        ∨ ∃ bytes, tree.read workDirectory path = .ok bytes
          ∧ Mapping.decode bytes = .ok mapping := by
  unfold loaded?
  by_cases hcontains : tree.contains workDirectory path = true
  · rw [if_pos hcontains, hcontains]
    cases tree.read workDirectory path with
    | error error => simp
    | ok bytes => cases hdecode : Mapping.decode bytes <;> simp [hdecode, Except.toOption]
  · have hread : ∀ bytes, tree.read workDirectory path ≠ .ok bytes := by
      intro bytes hread
      exact hcontains
        (FileTree.contains_eq_true_iff.mpr ⟨_, FileTree.read_eq_ok_iff.mp hread⟩)
    rw [if_neg hcontains]
    simp [hcontains, hread]

theorem loaded?_of_find {bytes : List UInt8}
    (hfind : tree.find workDirectory path = .ok (.file bytes))
    (hdecode : Mapping.decode bytes = .ok mapping) :
    loaded? workDirectory tree path = some mapping :=
  loaded?_eq_some_iff.mpr (Or.inr ⟨bytes, FileTree.read_eq_ok_iff.mpr hfind, hdecode⟩)

/-- What is loaded depends only on what is found. -/
theorem loaded?_of_same_find {after : FileTree}
    (hloaded : loaded? workDirectory tree path = some mapping)
    (hfind : ∀ node, after.find workDirectory path = .ok node ↔
      tree.find workDirectory path = .ok node) :
    loaded? workDirectory after path = some mapping := by
  have hcontains : after.contains workDirectory path = tree.contains workDirectory path := by
    rw [Bool.eq_iff_iff, FileTree.contains_eq_true_iff, FileTree.contains_eq_true_iff]
    exact exists_congr hfind
  rw [loaded?_eq_some_iff] at hloaded ⊢
  rw [hcontains]
  rcases hloaded with habsent | ⟨bytes, hread, hdecode⟩
  · exact Or.inl habsent
  · rw [FileTree.read_eq_ok_iff, ← hfind, ← FileTree.read_eq_ok_iff] at hread
    exact Or.inr ⟨bytes, hread, hdecode⟩

theorem canonical_of_loaded? (hloaded : loaded? workDirectory tree path = some mapping) :
    mapping.Canonical := by
  rcases loaded?_eq_some_iff.mp hloaded with ⟨_, rfl⟩ | ⟨bytes, _, hdecode⟩
  · exact Mapping.canonical_factory
  · exact Mapping.canonical_of_decode hdecode

end Loaded

variable {surroundings : Surroundings} {tree : FileTree} {path : Path} {output : String}

theorem ends_loadSession {mapping : Mapping}
    (hloaded : loaded? surroundings.workDirectory tree path = some mapping) :
    Ends (loadSession surroundings path) tree output (.ok ⟨mapping⟩) tree output := by
  unfold loadSession
  apply ends_get_bind
  intro notices
  rcases loaded?_eq_some_iff.mp hloaded with ⟨habsent, rfl⟩ | ⟨bytes, hread, hdecode⟩
  · simp only [habsent]
    exact (ends_log _).bind (ends_pure _)
  · have hcontains : tree.contains surroundings.workDirectory path = true :=
      FileTree.contains_eq_true_iff.mpr ⟨_, FileTree.read_eq_ok_iff.mp hread⟩
    simp only [hcontains, hread,
      Session.new.load_of_decode_ok (Source.readAll_ofBytes bytes) hdecode]
    exact (ends_noteAll _).bind (ends_pure _)

/-- What is found and is no document that can be read ends the loading, which changes nothing. -/
theorem ends_loadSession_error (hloaded : loaded? surroundings.workDirectory tree path = none) :
    ∃ error, Ends (loadSession surroundings path) tree output
      (.error (.failed (.loading path error))) tree output := by
  have hcontains : tree.contains surroundings.workDirectory path = true := by
    by_contra hcontains
    rw [loaded?, if_neg hcontains] at hloaded
    cases hloaded
  rw [loaded?, if_pos hcontains] at hloaded
  unfold loadSession
  cases hread : tree.read surroundings.workDirectory path with
  | error error =>
      refine ⟨.unreadable (.file error), ends_get_bind fun notices => ?_⟩
      simp only [hcontains, hread]
      exact ends_fail _
  | ok bytes =>
      cases hdecode : Mapping.decode bytes with
      | ok mapping => simp [hread, hdecode, Except.toOption] at hloaded
      | error cause =>
          refine ⟨.malformed cause, ends_get_bind fun notices => ?_⟩
          simp only [hcontains, hread,
            Session.new.load_of_decode_error (Source.readAll_ofBytes bytes) hdecode]
          exact ends_fail _

theorem ends_saveSession_of_replaced {session : Session} {between after : FileTree}
    (hmade : tree.makeParent surroundings.workDirectory path = (between, .ok ()))
    (hreplaced : between.replace surroundings.workDirectory path
      (Utf8.bytesOf session.mapping.text) = .replaced after) :
    Ends (saveSession surroundings path session) tree output (.ok ()) after output := by
  unfold saveSession
  apply ends_get_bind
  intro notices
  simp only [hmade, Session.taken_save, hreplaced]
  exact (ends_setTree between).bind ((ends_setTree after).bind (ends_log _))

theorem ends_saveSession_of_made_error {session : Session} {between : FileTree} {error : FileError}
    (hmade : tree.makeParent surroundings.workDirectory path = (between, .error error)) :
    Ends (saveSession surroundings path session) tree output
      (.error (.failed (.makingDirectories error))) between output := by
  unfold saveSession
  apply ends_get_bind
  intro notices
  simp only [hmade]
  exact (ends_setTree between).bind (ends_fail _).bind_error

theorem ends_saveSession_of_failed {session : Session} {between : FileTree} {error : FileError}
    (hmade : tree.makeParent surroundings.workDirectory path = (between, .ok ()))
    (hfailed : between.replace surroundings.workDirectory path
      (Utf8.bytesOf session.mapping.text) = .failed error) :
    Ends (saveSession surroundings path session) tree output
      (.error (.failed (.saving path error))) between output := by
  unfold saveSession
  apply ends_get_bind
  intro notices
  simp only [hmade, Session.taken_save, hfailed]
  exact (ends_setTree between).bind (ends_fail _)

/-- Without a name for the document its draft has nowhere to go. -/
theorem ends_saveSession_of_nameless {session : Session} {between : FileTree}
    (hmade : tree.makeParent surroundings.workDirectory path = (between, .ok ()))
    (hnameless : between.replace surroundings.workDirectory path
      (Utf8.bytesOf session.mapping.text) = .nameless) :
    Ends (saveSession surroundings path session) tree output (.error .crashed) between output := by
  unfold saveSession
  apply ends_get_bind
  intro notices
  simp only [hmade, Session.taken_save, hnameless]
  exact (ends_setTree between).bind ends_crash

/-- Saving makes the directories for the document.  Then it replaces the document or stops, and
where it stops these directories are all that is new. -/
theorem endsWith_saveSession (surroundings : Surroundings) (path : Path) (session : Session)
    (tree : FileTree) (output : String) :
    EndsWith (saveSession surroundings path session) tree output fun result after written =>
      written = output
        ∧ ((result = .ok () ∧ (tree.makeParent surroundings.workDirectory path).1.replace
            surroundings.workDirectory path (Utf8.bytesOf session.mapping.text) = .replaced after)
          ∨ ∃ abort, result = .error abort
            ∧ after = (tree.makeParent surroundings.workDirectory path).1) := by
  rcases hmade : tree.makeParent surroundings.workDirectory path with ⟨between, error | ⟨⟨⟩⟩⟩
  · exact (ends_saveSession_of_made_error hmade).endsWith ⟨rfl, Or.inr ⟨_, rfl, rfl⟩⟩
  · cases hreplace : between.replace surroundings.workDirectory path
        (Utf8.bytesOf session.mapping.text) with
    | replaced after =>
        exact (ends_saveSession_of_replaced hmade hreplace).endsWith ⟨rfl, Or.inl ⟨rfl, rfl⟩⟩
    | failed error =>
        exact (ends_saveSession_of_failed hmade hreplace).endsWith ⟨rfl, Or.inr ⟨_, rfl, rfl⟩⟩
    | nameless =>
        exact (ends_saveSession_of_nameless hmade hreplace).endsWith ⟨rfl, Or.inr ⟨_, rfl, rfl⟩⟩

/-- Where a document can be kept saving succeeds and leaves the text of the session. -/
theorem ends_saveSession (hwritable : tree.Writable surroundings.workDirectory path)
    (session : Session) (output : String) :
    ∃ after, Ends (saveSession surroundings path session) tree output (.ok ()) after output
      ∧ after.find surroundings.workDirectory path =
        .ok (.file (Utf8.bytesOf session.mapping.text))
      ∧ after.Writable surroundings.workDirectory path := by
  obtain ⟨after, hreplaced, hfind, hafter⟩ :=
    hwritable.replace (Utf8.bytesOf session.mapping.text)
  refine ⟨after, ?_, hfind, hafter⟩
  exact ends_saveSession_of_replaced (Prod.ext rfl hwritable.parent) hreplaced

/-- The settings are looked at only. -/
theorem ends_loadSettings (surroundings : Surroundings) (tree : FileTree) (output : String) :
    Ends (loadSettings surroundings) tree output (.ok (Settings.effective surroundings tree)) tree
      output := by
  rw [Settings.effective_eq_load]
  unfold loadSettings
  apply ends_get_bind
  intro notices
  cases Settings.load surroundings tree with
  | ok settings => exact ends_pure settings
  | error error => exact (ends_log _).bind (ends_pure _)

theorem mappingPath_eq (surroundings : Surroundings) (tree : FileTree) (invocation : Invocation) :
    mappingPath surroundings tree invocation =
      invocation.mapping.getD (Settings.effective surroundings tree).mappingFile := by
  rw [Settings.effective_eq_load, mappingPath]
  cases invocation.mapping with
  | some path => rfl
  | none => cases Settings.load surroundings tree <;> rfl

namespace Task

variable (task : Task) {mapping : Mapping}

/-- Whatever is found, there is a session to start from. -/
theorem ends_loadOrNew (tree : FileTree) (output : String) :
    ∃ session, Ends task.loadOrNew tree output (.ok session) tree output := by
  cases hloaded : loaded? task.surroundings.workDirectory tree task.path with
  | some mapping => exact ⟨⟨mapping⟩, (ends_loadSession hloaded).tryCatch_ok⟩
  | none =>
      obtain ⟨error, hload⟩ := ends_loadSession_error hloaded
      exact ⟨.new, hload.tryCatch_error ((ends_log _).bind (ends_pure _))⟩

theorem ends_showMapping
    (hloaded : loaded? task.surroundings.workDirectory tree task.path = some mapping) :
    Ends task.showMapping tree output (.ok ()) tree
      (output ++ ("Mapping: " ++ task.path.shown ++ "\n" ++ rule ++ mappingList mapping)) :=
  (ends_loadSession hloaded).bind (ends_print _)

/-- The instructions are said beside the output. -/
theorem ends_instructions (settings : Settings) :
    Ends (if settings.showInstructions then note .instructions else pure ()) tree output (.ok ())
      tree output := by
  split
  · exact ends_note _
  · exact ends_pure ()

theorem ends_generate_none
    (hloaded : loaded? task.surroundings.workDirectory tree task.path = some mapping) :
    Ends (task.generate none) tree output (.ok ()) tree (output ++ mapping.generate) := by
  unfold generate
  refine (ends_loadSession hloaded).bind ((ends_noteAll _).bind ((ends_noteAll _).bind ?_))
  exact (ends_print _).bind (ends_instructions _)

theorem ends_generate_some
    (hloaded : loaded? task.surroundings.workDirectory tree task.path = some mapping) {out : Path}
    {after : FileTree}
    (hwrite : tree.write task.surroundings.workDirectory out (Utf8.bytesOf mapping.generate) =
      .ok after) :
    Ends (task.generate (some out)) tree output (.ok ()) after
      (output ++ ("Wrote " ++ out.shown ++ "\n")) := by
  unfold generate
  refine (ends_loadSession hloaded).bind ((ends_noteAll _).bind ((ends_noteAll _).bind ?_))
  apply ends_get_bind
  intro notices
  simp only [Session.generate, hwrite]
  exact (ends_setTree after).bind ((ends_print _).bind (ends_instructions _))

theorem ends_generate_some_error
    (hloaded : loaded? task.surroundings.workDirectory tree task.path = some mapping) {out : Path}
    {error : FileError}
    (hwrite : tree.write task.surroundings.workDirectory out (Utf8.bytesOf mapping.generate) =
      .error error) :
    Ends (task.generate (some out)) tree output (.error (.failed (.writingCode out error))) tree
      output := by
  unfold generate
  refine (ends_loadSession hloaded).bind ((ends_noteAll _).bind ((ends_noteAll _).bind ?_))
  apply ends_get_bind
  intro notices
  simp only [Session.generate, hwrite]
  exact (ends_fail _).bind_error

theorem ends_set (hloaded : loaded? task.surroundings.workDirectory tree task.path = some mapping)
    {source : GameCubeButton} {destination : String} {after : FileTree}
    (hsave : Ends (task.save (Session.set ⟨mapping⟩ source (.ofName destination))) tree output
      (.ok ()) after output) :
    Ends (task.set source destination) tree output (.ok ()) after
      (output ++ (source.name ++ " -> " ++ (Target.ofName destination).name ++ "\n")) := by
  have hrest : Ends (do
        let session ← task.load
        log (.assigned source (.ofName destination))
        task.save (session.set source (.ofName destination))
        print (source.name ++ " -> " ++ (Target.ofName destination).name ++ "\n"))
      tree output (.ok ()) after
      (output ++ (source.name ++ " -> " ++ (Target.ofName destination).name ++ "\n")) :=
    (ends_loadSession hloaded).bind ((ends_log _).bind (hsave.bind (ends_print _)))
  unfold set
  cases htarget : Target.ofName destination with
  | unknown name =>
      rw [htarget] at hrest
      exact (ends_log _).bind hrest
  | button destination =>
      rw [htarget] at hrest
      exact hrest
  | unassigned =>
      rw [htarget] at hrest
      exact hrest

theorem ends_reset
    (hloaded : loaded? task.surroundings.workDirectory tree task.path = some mapping)
    {after : FileTree} (hsave : Ends (task.save .new) tree output (.ok ()) after output) :
    Ends task.reset tree output (.ok ()) after
      (output ++ ("Restored factory mapping in " ++ task.path.shown ++ "\n")) :=
  (ends_loadSession hloaded).tryCatch_ok.bind (hsave.bind (ends_print _))

theorem ends_clear {after : FileTree}
    (hsave : Ends (task.save ⟨.unassigned⟩) tree output (.ok ()) after output) :
    Ends task.clear tree output (.ok ()) after
      (output ++ ("Unassigned every button in " ++ task.path.shown ++ "\n")) :=
  (ends_noteAll _).bind (hsave.bind (ends_print _))

section Config

variable {mappingFile : Option Path} {showInstructions : Option Bool} {settings : Settings}

theorem ends_config_same
    (hupdate : task.settings.update mappingFile showInstructions = (settings, false))
    {text : List Char} (htext : settings.toToml = .ok text) :
    Ends (task.config mappingFile showInstructions) tree output (.ok ()) tree
      (output ++ String.ofList text) := by
  simp only [config, hupdate, Bool.false_eq_true, if_false, htext]
  exact ends_print _

theorem ends_config_same_error
    (hupdate : task.settings.update mappingFile showInstructions = (settings, false))
    {error : Settings.WriteError} (htext : settings.toToml = .error error) :
    Ends (task.config mappingFile showInstructions) tree output
      (.error (.failed (.showingSettings error))) tree output := by
  simp only [config, hupdate, Bool.false_eq_true, if_false, htext]
  exact ends_fail _

theorem ends_config_saved
    (hupdate : task.settings.update mappingFile showInstructions = (settings, true))
    {after : FileTree} {file : Path}
    (hsave : settings.save task.surroundings tree = (after, .ok file))
    {text : List Char} (htext : settings.toToml = .ok text) :
    Ends (task.config mappingFile showInstructions) tree output (.ok ()) after
      (output ++ ("Saved " ++ file.shown ++ "\n") ++ String.ofList text) := by
  simp only [config, hupdate, if_true]
  apply ends_get_bind
  intro notices
  simp only [hsave, htext]
  exact (ends_setTree after).bind ((ends_print _).bind (ends_print _))

theorem ends_config_save_error
    (hupdate : task.settings.update mappingFile showInstructions = (settings, true))
    {after : FileTree} {error : Settings.SaveError}
    (hsave : settings.save task.surroundings tree = (after, .error error)) :
    Ends (task.config mappingFile showInstructions) tree output
      (.error (.failed (.savingSettings error))) after output := by
  simp only [config, hupdate, if_true]
  apply ends_get_bind
  intro notices
  simp only [hsave]
  exact (ends_setTree after).bind (ends_fail _).bind_error

/-- The `config` command fails, and has made the directories for its file at most; or it shows the
settings in effect with its options applied, and has kept them if that changes them. -/
theorem config_cases (task : Task) (mappingFile : Option Path) (showInstructions : Option Bool)
    (tree : FileTree) (output : String) :
    (∃ abort after, Ends (task.config mappingFile showInstructions) tree output (.error abort)
        after output
      ∧ (after = tree ∨ (task.settings.update mappingFile showInstructions).2 = true
        ∧ ∃ file ∈ Settings.file? task.surroundings,
          after = (tree.makeParent task.surroundings.workDirectory file).1)) ∨
    (∃ next text, task.settings.update mappingFile showInstructions = (next, false)
      ∧ next.toToml = .ok text
      ∧ Ends (task.config mappingFile showInstructions) tree output (.ok ()) tree
        (output ++ String.ofList text)) ∨
    ∃ file next text after, Settings.file? task.surroundings = some file
      ∧ task.settings.update mappingFile showInstructions = (next, true)
      ∧ next.toToml = .ok text
      ∧ (tree.makeParent task.surroundings.workDirectory file).1.write
          task.surroundings.workDirectory file (Utf8.encode text) = .ok after
      ∧ Ends (task.config mappingFile showInstructions) tree output (.ok ()) after
        (output ++ ("Saved " ++ file.shown ++ "\n") ++ String.ofList text) := by
  rcases hupdate : task.settings.update mappingFile showInstructions with ⟨next, changed⟩
  cases changed with
  | false =>
      cases htext : next.toToml with
      | ok text =>
          exact Or.inr (Or.inl ⟨next, text, rfl, htext, task.ends_config_same hupdate htext⟩)
      | error error => exact Or.inl ⟨_, tree, task.ends_config_same_error hupdate htext, Or.inl rfl⟩
  | true =>
      rcases next.save_cases task.surroundings tree with
        ⟨error, after, hsave, hafter⟩ | ⟨file, text, after, hfile, htext, hwrite, hsave⟩
      · exact Or.inl ⟨_, after, task.ends_config_save_error hupdate hsave,
          hafter.imp_right fun h => ⟨rfl, h⟩⟩
      · exact Or.inr (Or.inr ⟨file, next, text, after, hfile, rfl, htext, hwrite,
          task.ends_config_saved hupdate hsave htext⟩)

end Config

end Task
end Run
end PadBridge
