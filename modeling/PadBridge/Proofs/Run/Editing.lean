import PadBridge.Proofs.Beside
import PadBridge.Proofs.Run.About

/-!
One run about a mapping document.  The run loads the document, carries out its command and may save
the document again; a session in memory undergoes the same change.  Whatever the run finds, what it
leaves is that session, and the text it is written as is read as that session again.
-/

namespace PadBridge.Run

open CommandLine (Command Invocation Argument)

/-- What a command makes of the session that is kept in a mapping document, if it is about that
document. -/
def edit? (session : Session) : Command → Option Session
  | .set source destination => some (session.set source (.ofName destination))
  | .reset => some session.reset
  | .clear => some ⟨.unassigned⟩
  | .show | .generate _ => some session
  | .buttons | .config _ _ => none

def answer (path : Path) (session : Session) : Command → String
  | .set source destination => source.name ++ " -> " ++ (Target.ofName destination).name ++ "\n"
  | .reset => "Restored factory mapping in " ++ path.shown ++ "\n"
  | .clear => "Unassigned every button in " ++ path.shown ++ "\n"
  | .show => "Mapping: " ++ path.shown ++ "\n" ++ rule ++ mappingList session.mapping
  | .generate none => session.generate
  | .generate (some out) => "Wrote " ++ out.shown ++ "\n"
  | .buttons | .config _ _ => ""

/-- A file that is written at `out` does not get in the way of a document: neither the document nor
a directory that is made for it has to be where the file is. -/
structure Spares (tree : FileTree) (workDirectory : Location) (path out : Path) : Prop where
  apart : ∀ location, tree.locate workDirectory out = .ok location →
    tree.locate workDirectory path ≠ .ok location
  way : ∀ location, tree.locate workDirectory out = .ok location →
    (tree.makeParent workDirectory path).1.get? location = some .directory →
    tree.get? location = some .directory

/-- How a run ends that is about a document, with the session `next` in it. -/
structure Follows (workDirectory : Location) (path : Path) (tree : FileTree) (next : Session)
    (command : Command) (outcome : Outcome) : Prop where
  /-- Only generated code may have nowhere to go, and then the run changes nothing. -/
  ending : outcome.ending = .done ∨ ∃ out error, command = .generate (some out)
    ∧ tree.write workDirectory out (Utf8.bytesOf next.generate) = .error error
    ∧ outcome.ending = .failed (.writingCode out error) ∧ outcome.tree = tree
  loaded : loaded? workDirectory outcome.tree path = some next.mapping
  saved : saves command = true →
    outcome.tree.find workDirectory path = .ok (.file (Utf8.bytesOf next.mapping.text))
  kept : saves command = false → ∀ node,
    outcome.tree.find workDirectory path = .ok node ↔ tree.find workDirectory path = .ok node
  answer : outcome.ending = .done → outcome.output = answer path next command
  written : ∀ out, command = .generate (some out) → outcome.ending = .done →
    outcome.tree.find workDirectory out = .ok (.file (Utf8.bytesOf next.generate))

variable {workDirectory : Location} {path : Path} {tree : FileTree} {session next : Session}

/-- No command makes a session whose document would be read as another one. -/
theorem canonical_of_edit? (hcanonical : session.mapping.Canonical) {command : Command}
    (hedit : edit? session command = some next) : next.mapping.Canonical := by
  cases command with
  | set source destination =>
      cases hedit
      exact hcanonical.set source destination
  | reset =>
      cases hedit
      exact Mapping.canonical_factory
  | clear =>
      cases hedit
      exact Mapping.canonical_unassigned
  | «show» =>
      cases hedit
      exact hcanonical
  | generate out =>
      cases hedit
      exact hcanonical
  | buttons => cases hedit
  | config mappingFile showInstructions => cases hedit

/-- A run that saves. -/
theorem follows_of_saved {command : Command} (hsaves : saves command = true)
    (hcanonical : next.mapping.Canonical) {outcome : Outcome} (hending : outcome.ending = .done)
    (hanswer : outcome.output = answer path next command)
    (hfind : outcome.tree.find workDirectory path =
      .ok (.file (Utf8.bytesOf next.mapping.text))) :
    Follows workDirectory path tree next command outcome where
  ending := Or.inl hending
  loaded := loaded?_of_find hfind hcanonical.decode_text
  saved := fun _ => hfind
  kept := by
    intro hkeeps
    rw [hsaves] at hkeeps
    cases hkeeps
  answer := fun _ => hanswer
  written := by
    intro out hcommand
    rw [hcommand] at hsaves
    cases hsaves

/-- A run that leaves the document as it is. -/
theorem follows_of_kept {command : Command} (hsaves : saves command = false)
    (hloaded : loaded? workDirectory tree path = some next.mapping) {outcome : Outcome}
    (hending : outcome.ending = .done ∨ ∃ out error, command = .generate (some out)
      ∧ tree.write workDirectory out (Utf8.bytesOf next.generate) = .error error
      ∧ outcome.ending = .failed (.writingCode out error) ∧ outcome.tree = tree)
    (hanswer : outcome.ending = .done → outcome.output = answer path next command)
    (hfind : ∀ node, outcome.tree.find workDirectory path = .ok node ↔
      tree.find workDirectory path = .ok node)
    (hwritten : ∀ out, command = .generate (some out) → outcome.ending = .done →
      outcome.tree.find workDirectory out = .ok (.file (Utf8.bytesOf next.generate))) :
    Follows workDirectory path tree next command outcome where
  ending := hending
  loaded := loaded?_of_same_find hloaded hfind
  saved := by
    intro hsave
    rw [hsaves] at hsave
    cases hsave
  kept := fun _ => hfind
  answer := hanswer
  written := hwritten

section Step

variable {surroundings : Surroundings} {arguments : List Argument} {invocation : Invocation}

/-- A run with a command that saves leaves its session in the document. -/
theorem step_of_saved
    (habout : IsAbout surroundings.workDirectory path surroundings tree arguments invocation)
    (hsaves : saves invocation.command = true) (hcanonical : next.mapping.Canonical)
    (hwritable : tree.Writable surroundings.workDirectory path)
    (hends : ∀ settings after,
      Ends (Task.save ⟨surroundings, settings, path⟩ next) tree "" (.ok ()) after "" →
      Ends (Task.perform ⟨surroundings, settings, path⟩ invocation.command) tree "" (.ok ()) after
        ("" ++ answer path next invocation.command)) :
    Follows surroundings.workDirectory path tree next invocation.command
        (run surroundings tree arguments)
      ∧ (run surroundings tree arguments).tree.Writable surroundings.workDirectory path := by
  obtain ⟨settings, hrun⟩ := exists_settings_run habout
  obtain ⟨after, hsave, hfind, hafter⟩ := ends_saveSession hwritable next ""
  obtain ⟨notices, filter, hrun⟩ := hrun _ _ _ (hends settings after hsave)
  rw [hrun]
  exact ⟨follows_of_saved hsaves hcanonical rfl String.empty_append hfind, hafter⟩

/-- A run with a command that only writes output changes nothing. -/
theorem step_of_shown
    (habout : IsAbout surroundings.workDirectory path surroundings tree arguments invocation)
    (hsaves : saves invocation.command = false)
    (hout : ∀ out, invocation.command ≠ .generate (some out))
    (hwritable : tree.Writable surroundings.workDirectory path)
    (hloaded : loaded? surroundings.workDirectory tree path = some next.mapping)
    (hends : ∀ settings,
      Ends (Task.perform ⟨surroundings, settings, path⟩ invocation.command) tree "" (.ok ()) tree
        ("" ++ answer path next invocation.command)) :
    Follows surroundings.workDirectory path tree next invocation.command
        (run surroundings tree arguments)
      ∧ (run surroundings tree arguments).tree.Writable surroundings.workDirectory path := by
  obtain ⟨settings, hrun⟩ := exists_settings_run habout
  obtain ⟨notices, filter, hrun⟩ := hrun _ _ _ (hends settings)
  rw [hrun]
  refine ⟨follows_of_kept hsaves hloaded (Or.inl rfl) (fun _ => String.empty_append)
    (fun _ => Iff.rfl) ?_, hwritable⟩
  intro out hcommand
  exact absurd hcommand (hout out)

/-- A run that writes generated code to a file leaves the document as it is. -/
theorem step_of_written {out : Path}
    (habout : IsAbout surroundings.workDirectory path surroundings tree arguments invocation)
    (hcommand : invocation.command = .generate (some out))
    (hspares : Spares tree surroundings.workDirectory path out)
    (hwritable : tree.Writable surroundings.workDirectory path)
    (hloaded : loaded? surroundings.workDirectory tree path = some next.mapping) :
    Follows surroundings.workDirectory path tree next invocation.command
        (run surroundings tree arguments)
      ∧ (run surroundings tree arguments).tree.Writable surroundings.workDirectory path := by
  obtain ⟨settings, hrun⟩ := exists_settings_run habout
  rw [hcommand] at hrun ⊢
  cases hwrite : tree.write surroundings.workDirectory out (Utf8.bytesOf next.generate) with
  | ok after =>
      obtain ⟨notices, filter, hrun⟩ :=
        hrun _ _ _ (Task.ends_generate_some ⟨surroundings, settings, path⟩ hloaded hwrite)
      rw [hrun]
      refine ⟨follows_of_kept rfl hloaded (Or.inl rfl) (fun _ => String.empty_append)
        (fun node => FileTree.find_of_write hwrite hspares.apart node) ?_, ?_⟩
      · intro other hother _
        cases hother
        exact FileTree.find_of_write_self hwrite
      · exact hwritable.of_write hwrite hspares.way
  | error error =>
      obtain ⟨notices, filter, hrun⟩ :=
        hrun _ _ _ (Task.ends_generate_some_error ⟨surroundings, settings, path⟩ hloaded hwrite)
      rw [hrun]
      refine ⟨follows_of_kept rfl hloaded (Or.inr ⟨out, error, rfl, hwrite, rfl, rfl⟩) ?_
        (fun _ => Iff.rfl) ?_, hwritable⟩
      · intro hending
        cases hending
      · intro other _ hending
        cases hending

/-- A run does to the document what its command does to the session. -/
theorem step (hwritable : tree.Writable workDirectory path)
    (hloaded : loaded? workDirectory tree path = some session.mapping)
    (habout : IsAbout workDirectory path surroundings tree arguments invocation)
    (hspares : ∀ out, invocation.command = .generate (some out) →
      Spares tree workDirectory path out)
    (hedit : edit? session invocation.command = some next) :
    Follows workDirectory path tree next invocation.command (run surroundings tree arguments)
      ∧ (run surroundings tree arguments).tree.Writable workDirectory path := by
  obtain rfl := habout.directory
  have hcanonical := canonical_of_edit? (canonical_of_loaded? hloaded) hedit
  obtain ⟨mapping, verbose, command⟩ := invocation
  cases command with
  | set source destination =>
      cases hedit
      exact step_of_saved habout rfl hcanonical hwritable fun settings after hsave =>
        Task.ends_set _ hloaded hsave
  | reset =>
      cases hedit
      exact step_of_saved habout rfl hcanonical hwritable fun settings after hsave =>
        Task.ends_reset _ hloaded hsave
  | clear =>
      cases hedit
      exact step_of_saved habout rfl hcanonical hwritable fun settings after hsave =>
        Task.ends_clear _ hsave
  | «show» =>
      cases hedit
      exact step_of_shown habout rfl (fun _ h => by cases h) hwritable hloaded fun settings =>
        Task.ends_showMapping _ hloaded
  | generate out =>
      cases hedit
      cases out with
      | none =>
          exact step_of_shown habout rfl (fun _ h => by cases h) hwritable hloaded fun settings =>
            Task.ends_generate_none _ hloaded
      | some out => exact step_of_written habout rfl (hspares out rfl) hwritable hloaded
  | buttons => cases hedit
  | config mappingFile showInstructions => cases hedit

end Step

end PadBridge.Run
