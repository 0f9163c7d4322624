import PadBridge.Proofs.Run.Editing

/-!
Editing a mapping document run by run.  However many runs there are, what is found at the path of
the document is the session that undergoes the same changes in memory.
-/

namespace PadBridge.Run

open CommandLine (Command Invocation Argument)

/-- The trees and sessions that a history of runs leads to.  At its start the document is absent or
can be decoded. -/
inductive History (workDirectory : Location) (path : Path) : FileTree → Session → Prop where
  | absent {tree : FileTree} (hwritable : tree.Writable workDirectory path)
      (hcontains : tree.contains workDirectory path = false) :
      History workDirectory path tree .new
  | present {tree : FileTree} {bytes : List UInt8} {mapping : Mapping}
      (hwritable : tree.Writable workDirectory path)
      (hfind : tree.find workDirectory path = .ok (.file bytes))
      (hdecode : Mapping.decode bytes = .ok mapping) :
      History workDirectory path tree ⟨mapping⟩
  | run {tree : FileTree} {session next : Session} {surroundings : Surroundings}
      {arguments : List Argument} {invocation : Invocation}
      (hhistory : History workDirectory path tree session)
      (habout : IsAbout workDirectory path surroundings tree arguments invocation)
      (hspares : ∀ out, invocation.command = .generate (some out) →
        Spares tree workDirectory path out)
      (hedit : edit? session invocation.command = some next) :
      History workDirectory path (run surroundings tree arguments).tree next

variable {workDirectory : Location} {path : Path} {tree : FileTree} {session : Session}

/-- All through a history the document can be kept, and it is the session. -/
theorem History.invariant (hhistory : History workDirectory path tree session) :
    tree.Writable workDirectory path
      ∧ loaded? workDirectory tree path = some session.mapping := by
  induction hhistory with
  | absent hwritable hcontains =>
      exact ⟨hwritable, loaded?_eq_some_iff.mpr (Or.inl ⟨hcontains, rfl⟩)⟩
  | present hwritable hfind hdecode => exact ⟨hwritable, loaded?_of_find hfind hdecode⟩
  | run _ habout hspares hedit ih =>
      obtain ⟨hwritable, hloaded⟩ := ih
      obtain ⟨hfollows, hafter⟩ := step hwritable hloaded habout hspares hedit
      exact ⟨hafter, hfollows.loaded⟩

/-- In every state of a history the document is the session, every further run about the document
does to it what its command does to the session, and every command can be given. -/
theorem history_refines_session (hhistory : History workDirectory path tree session) :
    loaded? workDirectory tree path = some session.mapping
      ∧ (∀ surroundings arguments invocation next,
        IsAbout workDirectory path surroundings tree arguments invocation →
        (∀ out, invocation.command = .generate (some out) → Spares tree workDirectory path out) →
        edit? session invocation.command = some next →
        Follows workDirectory path tree next invocation.command (run surroundings tree arguments))
      ∧ ∀ (surroundings : Surroundings) (command : Command),
        surroundings.workDirectory = workDirectory →
        Log.Filter.choose surroundings.logFilter false ≠ none →
        (∀ chosen, surroundings.mapping = some chosen → chosen.bytes ≠ []) →
        (∀ other ∈ command.paths, other.bytes ≠ []) →
        IsAbout workDirectory path surroundings tree (command.spelled path)
          ⟨some path, false, command⟩ := by
  obtain ⟨hwritable, hloaded⟩ := hhistory.invariant
  refine ⟨hloaded, ?_, ?_⟩
  · intro surroundings arguments invocation next habout hspares hedit
    exact (step hwritable hloaded habout hspares hedit).1
  · intro surroundings command hdirectory hfilter hchosen hpaths
    subst hdirectory
    exact isAbout_spelled hwritable.bytes_ne_nil hpaths hchosen hfilter

theorem history_refines_session_unknown_name :
    let path := Path.ofString "m.json"
    let session : Session := ⟨Mapping.factory.set .a (.unknown "Quack")⟩
    let tree := (run bareSurroundings .empty (Command.spelled (.set .a "Quack") path)).tree
    loaded? [] tree path = some session.mapping
      ∧ (run bareSurroundings tree (Command.spelled .show path)).output =
        "Mapping: " ++ path.shown ++ "\n" ++ rule ++ mappingList session.mapping := by
  intro path session tree
  have hstart : History [] path .empty .new :=
    .absent ⟨rfl, ⟨_, rfl⟩, by decide⟩ rfl
  obtain ⟨_, _, hspelled⟩ := history_refines_session hstart
  have hset := hspelled bareSurroundings (.set .a "Quack") rfl choose_bareSurroundings
    (fun _ h => by cases h) (fun _ h => by cases h)
  have hedited : History [] path tree session := .run hstart hset (fun _ h => by cases h) rfl
  obtain ⟨hloaded, hruns, hspelled⟩ := history_refines_session hedited
  have hshow := hspelled bareSurroundings .show rfl choose_bareSurroundings
    (fun _ h => by cases h) (fun _ h => by cases h)
  have hfollows := hruns _ _ _ _ hshow (fun _ h => by cases h) rfl
  refine ⟨hloaded, hfollows.answer ?_⟩
  rcases hfollows.ending with hdone | ⟨out, error, hcommand, _⟩
  · exact hdone
  · cases hcommand

/-- Generated code that has nowhere to go ends a run with a failure. -/
theorem code_generate_nowhere :
    (run bareSurroundings .empty (Command.spelled (.generate (some (.ofString "missing/x")))
      (.ofString "m.json"))).ending.code = 1 := by
  have hpath : (Path.ofString "m.json").bytes ≠ [] := by decide
  have habout := isAbout_bareSurroundings .empty
    (.generate (some (.ofString "missing/x"))) hpath (by decide)
  have hloaded : loaded? [] .empty (.ofString "m.json") = some .factory := rfl
  have hwrite : ∀ bytes, FileTree.empty.write [] (.ofString "missing/x") bytes =
      .error .notFound := fun _ => rfl
  obtain ⟨settings, hrun⟩ := exists_settings_run habout
  obtain ⟨_, _, hrun⟩ := hrun _ _ _ (Task.ends_generate_some_error _ hloaded (hwrite _))
  rw [hrun]
  rfl

/-- Generated code that becomes a file where the document needs a directory makes the path of the
document one that cannot be written. -/
theorem not_writable_generate :
    FileTree.empty.Writable [] (.ofString "d/m.json")
      ∧ ¬ (run bareSurroundings .empty (Command.spelled (.generate (some (.ofString "d")))
        (.ofString "d/m.json"))).tree.Writable [] (.ofString "d/m.json") := by
  have hpath : (Path.ofString "d/m.json").bytes ≠ [] := by decide
  have habout := isAbout_bareSurroundings .empty
    (.generate (some (.ofString "d"))) hpath (by decide)
  have hloaded : loaded? [] .empty (.ofString "d/m.json") = some .factory := rfl
  have hwrite : ∀ bytes, FileTree.empty.write [] (.ofString "d") bytes =
      .ok (FileTree.empty.put [Utf8.bytesOf "d"] (.file bytes)) := fun _ => rfl
  have hblocked : ∀ bytes, ((FileTree.empty.put [Utf8.bytesOf "d"] (.file bytes)).makeParent []
      (.ofString "d/m.json")).1.write [] (.ofString "d/m.json") [] = .error .notDirectory :=
    fun _ => rfl
  obtain ⟨settings, hrun⟩ := exists_settings_run habout
  obtain ⟨_, _, hrun⟩ := hrun _ _ _ (Task.ends_generate_some _ hloaded (hwrite _))
  refine ⟨⟨rfl, ⟨_, rfl⟩, by decide⟩, ?_⟩
  rw [hrun]
  intro hwritable
  obtain ⟨after, hafter⟩ := hwritable.write
  rw [hblocked] at hafter
  cases hafter

/-- A document is saved without the slash at the end of its path, and so it is not found again. -/
theorem loaded?_slashed :
    (run bareSurroundings .empty (Command.spelled (.set .a "Z")
        (.ofString "m/"))).ending.code = 0
      ∧ loaded? [] (run bareSurroundings .empty (Command.spelled (.set .a "Z")
        (.ofString "m/"))).tree (.ofString "m/") = some .factory := by
  have hpath : (Path.ofString "m/").bytes ≠ [] := by decide
  have habout := isAbout_bareSurroundings .empty (.set .a "Z") hpath (fun _ h => by cases h)
  have hloaded : loaded? [] .empty (.ofString "m/") = some .factory := rfl
  have hreplaced : ∀ bytes, FileTree.empty.replace [] (.ofString "m/") bytes =
      .replaced (FileTree.empty.put [Utf8.bytesOf "m"] (.file bytes)) := fun _ => rfl
  have hfound : ∀ bytes, loaded? [] (FileTree.empty.put [Utf8.bytesOf "m"] (.file bytes))
      (.ofString "m/") = some .factory := fun _ => rfl
  generalize hbytes : Utf8.bytesOf (Mapping.factory.set .a (.ofName "Z")).text = bytes
  obtain ⟨settings, hrun⟩ := exists_settings_run habout
  have hsave : Ends (Task.save ⟨bareSurroundings, settings, .ofString "m/"⟩
      (Session.set ⟨.factory⟩ .a (.ofName "Z"))) .empty "" (.ok ())
      (FileTree.empty.put [Utf8.bytesOf "m"] (.file bytes)) "" :=
    ends_saveSession_of_replaced rfl (by
      rw [← hreplaced, ← hbytes]
      rfl)
  have hset := Task.ends_set ⟨bareSurroundings, settings, .ofString "m/"⟩ hloaded hsave
  obtain ⟨_, _, hrun⟩ := hrun _ _ _ hset
  rw [hrun]
  exact ⟨rfl, hfound bytes⟩

/-- A log filter that is cut inside a character ends a run before it does anything. -/
theorem code_miscut_filter :
    (run { bareSurroundings with logFilter := some (Utf8.bytesOf "\u00A0a=") } .empty
      (Command.spelled .show (.ofString "m.json"))).ending.code = 101 := by
  have hread : CommandLine.read bareSurroundings.mapping
      (Command.spelled .show (.ofString "m.json")) =
        .ok ⟨some (.ofString "m.json"), false, .show⟩ :=
    Command.read_spelled .show (fun _ h => by cases h) (by decide) (fun _ h => by cases h)
  have hfilter : Log.Filter.choose (some (Utf8.bytesOf "\u00A0a=")) false = none := by
    have hdecode := Utf8.decode?_eq_some_iff.mpr (Eq.refl (Utf8.bytesOf "\u00A0a="))
    rw [Log.Filter.choose, Option.bind_some, hdecode]
    rfl
  rw [run, hread]
  simp only [invoke, hfilter]
  rfl

/-- What a history asks of its runs is needed, even where the directory of the document is there,
nothing lies at its path and the commands are well formed. -/
theorem history_provisos_needed :
    (run bareSurroundings .empty (Command.spelled (.generate (some (.ofString "missing/x")))
        (.ofString "m.json"))).ending.code = 1
      ∧ ((FileTree.empty.makeParent [] (.ofString "m/")).2 = .ok ()
        ∧ FileTree.empty.isDirectory [] (.ofString "m/") = false
        ∧ (run bareSurroundings .empty (Command.spelled (.set .a "Z")
          (.ofString "m/"))).ending.code = 0
        ∧ loaded? [] (run bareSurroundings .empty (Command.spelled (.set .a "Z")
          (.ofString "m/"))).tree (.ofString "m/") ≠
            some (Session.new.set .a (.ofName "Z")).mapping)
      ∧ (FileTree.empty.Writable [] (.ofString "d/m.json")
        ∧ ¬ (run bareSurroundings .empty (Command.spelled (.generate (some (.ofString "d")))
          (.ofString "d/m.json"))).tree.Writable [] (.ofString "d/m.json"))
      ∧ (run { bareSurroundings with logFilter := some (Utf8.bytesOf "\u00A0a=") } .empty
        (Command.spelled .show (.ofString "m.json"))).ending.code = 101 := by
  obtain ⟨hcode, hloaded⟩ := loaded?_slashed
  refine ⟨code_generate_nowhere, ⟨rfl, rfl, hcode, ?_⟩, not_writable_generate, code_miscut_filter⟩
  rw [hloaded]
  intro h
  have hget := congrArg (fun mapping => mapping.map fun found => Mapping.get found .a) h
  cases hget

end PadBridge.Run
