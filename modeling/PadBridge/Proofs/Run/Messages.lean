import PadBridge.Proofs.Run.About

/-!
What a run says beside its output.  Every part of a run adds its notices behind those before it, so
they come in the order of the parts.  Generated code is the same in both places it can go to, and
what is said about it is the same as well.
-/

namespace PadBridge.Run

open CommandLine (Command Argument)

def Notice.isRecord : Notice → Bool
  | .event _ => true
  | .unmapped _ _ | .instructions => false

def warning (entry : GameCubeButton × String) : String :=
  "Warning: " ++ entry.1.name ++ " is mapped to unknown N64 button `" ++ entry.2
    ++ "`, no code generated for it\n"

def instructionsText : String :=
  "\nInstructions: copy the entire function and replace the existing `void " ++ functionName
    ++ "()` function in your gamecube.ino file with this newly generated code.\n"

theorem Notice.text_event (filter : Log.Filter) (event : Log.Event) :
    text filter (.event event) = if event.isShown filter then event.record else "" :=
  rfl

theorem Notice.text_unmapped (filter : Log.Filter) (entry : GameCubeButton × String) :
    text filter (.unmapped entry.1 entry.2) = warning entry :=
  rfl

theorem Notice.text_instructions (filter : Log.Filter) :
    text filter .instructions = instructionsText :=
  rfl

/-- What a run writes beside its output, apart from its log records. -/
def Outcome.messages (outcome : Outcome) : String :=
  String.join ((outcome.notices.filter fun notice => !notice.isRecord).map
    (Notice.text outcome.filter)) ++ outcome.ending.report


/-- Log records apart, the filter does not show. -/
theorem Outcome.messages_congr {left right : Outcome} (hnotices : left.notices = right.notices)
    (hending : left.ending = right.ending) : left.messages = right.messages := by
  rw [messages, messages, hnotices, hending]
  refine congrArg (String.join · ++ right.ending.report) ?_
  refine List.map_congr_left fun notice hnotice => ?_
  have hmessage := (List.mem_filter.mp hnotice).2
  cases notice with
  | event event => cases hmessage
  | unmapped source name => rfl
  | instructions => rfl

theorem Outcome.diagnostics_congr {left right : Outcome} (hnotices : left.notices = right.notices)
    (hending : left.ending = right.ending) (hfilter : left.filter = right.filter) :
    left.diagnostics = right.diagnostics := by
  rw [diagnostics, diagnostics, hnotices, hending, hfilter]

theorem filter_events (events : List Log.Event) :
    (events.map Notice.event).filter (fun notice => !notice.isRecord) = [] := by
  rw [List.filter_map]
  exact congrArg _ (List.filter_eq_nil_iff.mpr fun _ _ => Bool.false_ne_true)

/-- What an action says that is carried out on a tree with some output already written. -/
def Tells {α : Type} (action : Action α) (tree : FileTree) (output : String)
    (said : List Notice) : Prop :=
  ∀ notices, (action.run ⟨tree, output, notices⟩).2.notices = notices ++ said

section

variable {α β : Type} {tree between : FileTree} {output written : String} {said more : List Notice}

theorem tells_pure (value : α) : Tells (pure value) tree output [] :=
  fun notices => (List.append_nil notices).symm

theorem tells_print (text : String) : Tells (print text) tree output [] :=
  fun notices => (List.append_nil notices).symm

theorem tells_setTree (after : FileTree) :
    Tells (modify fun state : State => { state with tree := after } : Action Unit) tree output [] :=
  fun notices => (List.append_nil notices).symm

theorem tells_fail (failure : Failure) : Tells (fail failure : Action α) tree output [] :=
  fun notices => (List.append_nil notices).symm

theorem tells_note (notice : Notice) : Tells (note notice) tree output [notice] :=
  fun _ => rfl

theorem tells_noteAll (notices : List Notice) : Tells (noteAll notices) tree output notices :=
  fun _ => rfl

theorem tells_get_bind {next : State → Action β}
    (hnext : ∀ notices, Tells (next ⟨tree, output, notices⟩) tree output said) :
    Tells (get >>= next) tree output said :=
  fun notices => hnext notices notices

theorem Tells.bind {first : Action α} {next : α → Action β} {value : α}
    (hfirst : Tells first tree output said)
    (hends : Ends first tree output (.ok value) between written)
    (hnext : Tells (next value) between written more) :
    Tells (first >>= next) tree output (said ++ more) := by
  intro notices
  obtain ⟨middle, hmiddle⟩ := hends notices
  have hsaid := hfirst notices
  rw [hmiddle] at hsaid
  rw [run_bind, hmiddle, ← List.append_assoc, ← hsaid]
  exact hnext middle

/-- Of two actions the second one may have nothing to say. -/
theorem Tells.bind_silent {first : Action α} {next : α → Action β} {value : α}
    (hfirst : Tells first tree output said)
    (hends : Ends first tree output (.ok value) between written)
    (hnext : Tells (next value) between written []) :
    Tells (first >>= next) tree output said := by
  have htells := hfirst.bind hends hnext
  rwa [List.append_nil] at htells

theorem Tells.bind_error {first : Action α} {next : α → Action β} {abort : Abort}
    (hfirst : Tells first tree output said)
    (hends : Ends first tree output (.error abort) between written) :
    Tells (first >>= next) tree output said := by
  intro notices
  obtain ⟨middle, hmiddle⟩ := hends notices
  have hsaid := hfirst notices
  rw [hmiddle] at hsaid
  rw [run_bind, hmiddle]
  exact hsaid

end

def settingsEvents (surroundings : Surroundings) (tree : FileTree) : List Log.Event :=
  match Settings.load surroundings tree with
  | .ok _ => []
  | .error error => [.settingsIgnored error]

def sessionEvents (workDirectory : Location) (tree : FileTree) (path : Path) : List Log.Event :=
  if tree.contains workDirectory path then
    match tree.read workDirectory path with
    | .ok bytes => loadEvents bytes
    | .error _ => []
  else [.mappingMissing path]

section

variable {surroundings : Surroundings} {tree : FileTree} {path : Path} {output : String}

theorem tells_loadSettings :
    Tells (loadSettings surroundings) tree output
      ((settingsEvents surroundings tree).map .event) := by
  unfold loadSettings settingsEvents
  apply tells_get_bind
  intro notices
  cases Settings.load surroundings tree with
  | ok settings => exact tells_pure settings
  | error error => exact (tells_note _).bind (ends_log _) (tells_pure _)

/-- A document that is refused is not logged. -/
theorem loadEvents_of_decode_error {bytes : List UInt8} {error : Json.Error}
    (hdecode : Mapping.decode bytes = .error error) : loadEvents bytes = [] := by
  unfold Mapping.decode at hdecode
  unfold loadEvents
  cases hdocument : Document.ofBytes bytes with
  | ok document =>
      rw [hdocument] at hdecode
      cases hdecode
  | error error => rfl

theorem tells_loadSession :
    Tells (loadSession surroundings path) tree output
      ((sessionEvents surroundings.workDirectory tree path).map .event) := by
  unfold loadSession sessionEvents
  apply tells_get_bind
  intro notices
  by_cases hcontains : tree.contains surroundings.workDirectory path = true
  · simp only [hcontains, if_true]
    cases tree.read surroundings.workDirectory path with
    | error error => exact tells_fail _
    | ok bytes =>
        cases hdecode : Mapping.decode bytes with
        | ok mapping =>
            simp only [Session.new.load_of_decode_ok (Source.readAll_ofBytes bytes) hdecode]
            exact (tells_noteAll _).bind_silent (ends_noteAll _) (tells_pure _)
        | error error =>
            simp only [Session.new.load_of_decode_error (Source.readAll_ofBytes bytes) hdecode,
              loadEvents_of_decode_error hdecode]
            exact tells_fail _
  · simp only [hcontains]
    exact (tells_note _).bind (ends_log _) (tells_pure _)

/-- A run about a document says what is logged about its settings, and then what its command says
that is carried out with the settings in effect. -/
theorem run_of_tells {workDirectory : Location} {arguments : List Argument}
    {invocation : CommandLine.Invocation} {result : Except Abort Unit} {after : FileTree}
    {written : String} {said : List Notice}
    (habout : IsAbout workDirectory path surroundings tree arguments invocation)
    (hends : Ends (Task.perform ⟨surroundings, .effective surroundings tree, path⟩
      invocation.command) tree "" result after written)
    (htells : Tells (Task.perform ⟨surroundings, .effective surroundings tree, path⟩
      invocation.command) tree "" said) :
    ∃ filter, run surroundings tree arguments =
      ⟨after, written, (settingsEvents surroundings tree).map .event ++ said, filter,
        endingOf result⟩ := by
  have hperform : Tells (perform surroundings invocation) tree ""
      ((settingsEvents surroundings tree).map .event ++ said) := by
    apply tells_loadSettings.bind (ends_loadSettings surroundings tree "")
    simp only [← mappingPath_eq, habout.mappingPath]
    exact htells
  obtain ⟨chosen, hchosen⟩ := Option.ne_none_iff_exists'.mp habout.filter
  have hnotices : (run surroundings tree arguments).notices =
      (settingsEvents surroundings tree).map .event ++ said := by
    rw [run, habout.read]
    simp only [invoke, hchosen]
    exact hperform []
  obtain ⟨notices, filter, hrun⟩ := run_of_ends habout hends
  rw [hrun] at hnotices
  rw [← hnotices]
  exact ⟨filter, hrun⟩

/-- Which log records are shown depends on the surroundings and on one flag. -/
theorem choose_run {workDirectory : Location} {arguments : List Argument}
    {invocation : CommandLine.Invocation}
    (habout : IsAbout workDirectory path surroundings tree arguments invocation) :
    Log.Filter.choose surroundings.logFilter invocation.verbose =
      some (run surroundings tree arguments).filter := by
  obtain ⟨filter, hfilter⟩ := Option.ne_none_iff_exists'.mp habout.filter
  rw [hfilter, run, habout.read]
  simp only [invoke, hfilter]
  rfl

end

namespace Task

variable (task : Task) {tree : FileTree} {output : String} {mapping : Mapping}

/-- What generating code says about a mapping: one warning for each button that is left out, and the
instructions if the settings want them. -/
def codeNotices (mapping : Mapping) : List Notice :=
  (mapping.skipped.map fun entry => .unmapped entry.1 entry.2)
    ++ ((mapping.skipped.map fun entry => .event (.buttonSkipped entry.1 entry.2))
      ++ if task.settings.showInstructions then [.instructions] else [])

theorem tells_instructions (settings : Settings) :
    Tells (if settings.showInstructions then note .instructions else pure ()) tree output
      (if settings.showInstructions then [.instructions] else []) := by
  split
  · exact tells_note _
  · exact tells_pure ()

theorem tells_generate_none
    (hloaded : loaded? task.surroundings.workDirectory tree task.path = some mapping) :
    Tells (task.generate none) tree output
      ((sessionEvents task.surroundings.workDirectory tree task.path).map .event
        ++ task.codeNotices mapping) := by
  unfold generate
  refine tells_loadSession.bind (ends_loadSession hloaded) ?_
  refine (tells_noteAll _).bind (ends_noteAll _) ((tells_noteAll _).bind (ends_noteAll _) ?_)
  exact (tells_print _).bind (ends_print _) (tells_instructions _)

theorem tells_generate_some
    (hloaded : loaded? task.surroundings.workDirectory tree task.path = some mapping) {out : Path}
    {after : FileTree}
    (hwrite : tree.write task.surroundings.workDirectory out (Utf8.bytesOf mapping.generate) =
      .ok after) :
    Tells (task.generate (some out)) tree output
      ((sessionEvents task.surroundings.workDirectory tree task.path).map .event
        ++ task.codeNotices mapping) := by
  unfold generate
  refine tells_loadSession.bind (ends_loadSession hloaded) ?_
  refine (tells_noteAll _).bind (ends_noteAll _) ((tells_noteAll _).bind (ends_noteAll _) ?_)
  apply tells_get_bind
  intro notices
  simp only [Session.generate, hwrite]
  exact (tells_setTree after).bind (ends_setTree after)
    ((tells_print _).bind (ends_print _) (tells_instructions _))

/-- A document that cannot be loaded is the end of generating code, wherever it goes. -/
theorem ends_generate_error (output : String)
    (hloaded : loaded? task.surroundings.workDirectory tree task.path = none) :
    ∃ error, ∀ out, Ends (task.generate out) tree output
      (.error (.failed (.loading task.path error))) tree output := by
  obtain ⟨error, hload⟩ := ends_loadSession_error hloaded
  exact ⟨error, fun _ => hload.bind_error⟩

theorem tells_generate_error
    (hloaded : loaded? task.surroundings.workDirectory tree task.path = none) (out : Option Path) :
    Tells (task.generate out) tree output
      ((sessionEvents task.surroundings.workDirectory tree task.path).map .event) := by
  obtain ⟨_, hload⟩ := ends_loadSession_error hloaded
  exact tells_loadSession.bind_error hload

theorem filter_codeNotices (mapping : Mapping) :
    (task.codeNotices mapping).filter (fun notice => !notice.isRecord) =
      (mapping.skipped.map fun entry => .unmapped entry.1 entry.2)
        ++ if task.settings.showInstructions then [.instructions] else [] := by
  have hwarnings : (mapping.skipped.map fun entry => Notice.unmapped entry.1 entry.2).filter
      (fun notice => !notice.isRecord) =
        mapping.skipped.map fun entry => Notice.unmapped entry.1 entry.2 := by
    rw [List.filter_map]
    exact congrArg _ (List.filter_eq_self.mpr fun _ _ => rfl)
  have hrecords : (mapping.skipped.map fun entry =>
      Notice.event (.buttonSkipped entry.1 entry.2)).filter
        (fun notice => !notice.isRecord) = [] := by
    rw [← filter_events (mapping.skipped.map fun entry => .buttonSkipped entry.1 entry.2),
      List.map_map]
    rfl
  rw [codeNotices, List.filter_append, List.filter_append, hwarnings, hrecords, List.nil_append]
  split <;> rfl

end Task

/-- Of code that is generated without a failure only warnings and instructions tell. -/
theorem messages_of_codeNotices {outcome : Outcome} {events more : List Log.Event} {task : Task}
    {mapping : Mapping} (hending : outcome.ending = .done)
    (hnotices : outcome.notices =
      events.map .event ++ (more.map .event ++ task.codeNotices mapping)) :
    outcome.messages = String.join (mapping.skipped.map warning)
      ++ if task.settings.showInstructions then instructionsText else "" := by
  have htexts : (mapping.skipped.map fun entry => Notice.unmapped entry.1 entry.2).map
      (Notice.text outcome.filter) = mapping.skipped.map warning := by
    rw [List.map_map]
    exact List.map_congr_left fun entry _ => Notice.text_unmapped outcome.filter entry
  rw [Outcome.messages, hending, hnotices, List.filter_append, List.filter_append, filter_events,
    filter_events, List.nil_append, List.nil_append, task.filter_codeNotices, List.map_append,
    htexts, Ending.report, String.append_empty, String.join_append]
  refine congrArg (String.join (mapping.skipped.map warning) ++ ·) ?_
  split
  · rw [List.map_singleton, Notice.text_instructions, String.join_cons, String.join_nil,
      String.append_empty]
  · rfl

section Generating

variable {workDirectory : Location} {path out : Path} {surroundings : Surroundings}
  {tree : FileTree} {toOutput toFile : List Argument} {named otherNamed : Option Path}
  {verbose otherVerbose : Bool}

/-- Generated code is the same whether it is printed or written to a file, and what is said beside
the output is the same as well: one warning for each button that is left out, in their order, and
then the instructions if the settings want them.  Only log records can differ, if one of the runs
was to be verbose.  The file has the code and nothing else, whatever was in it before.  If the
document cannot be loaded both ways fail alike, print nothing and leave the tree as it is. -/
theorem generate_prints_what_it_writes
    (hprints : IsAbout workDirectory path surroundings tree toOutput
      ⟨named, verbose, .generate none⟩)
    (hwrites : IsAbout workDirectory path surroundings tree toFile
      ⟨otherNamed, otherVerbose, .generate (some out)⟩) :
    let printed := run surroundings tree toOutput
    let written := run surroundings tree toFile
    (∀ mapping, loaded? workDirectory tree path = some mapping →
      printed.ending.code = 0 ∧ printed.output = mapping.generate ∧ printed.tree = tree
        ∧ printed.messages = String.join (mapping.skipped.map warning)
          ++ (if (Settings.effective surroundings tree).showInstructions then instructionsText
            else "")
        ∧ ((∃ bytes after, tree.write workDirectory out bytes = .ok after) →
          written.ending.code = 0 ∧ written.output = "Wrote " ++ out.shown ++ "\n"
            ∧ tree.write workDirectory out (Utf8.bytesOf printed.output) = .ok written.tree
            ∧ written.tree.find workDirectory out = .ok (.file (Utf8.bytesOf printed.output))
            ∧ written.messages = printed.messages
            ∧ (otherVerbose = verbose → written.diagnostics = printed.diagnostics)))
      ∧ (loaded? workDirectory tree path = none →
        printed.ending.code = 1 ∧ written.ending.code = 1
          ∧ printed.output = "" ∧ written.output = ""
          ∧ printed.tree = tree ∧ written.tree = tree
          ∧ written.messages = printed.messages
          ∧ (otherVerbose = verbose → written.diagnostics = printed.diagnostics)) := by
  intro printed written
  obtain rfl := hprints.directory
  let task : Task := ⟨surroundings, .effective surroundings tree, path⟩
  have hfilter : otherVerbose = verbose → written.filter = printed.filter := by
    intro hsame
    have hprinted : Log.Filter.choose surroundings.logFilter verbose = some printed.filter :=
      choose_run hprints
    have hwritten : Log.Filter.choose surroundings.logFilter otherVerbose = some written.filter :=
      choose_run hwrites
    rw [hsame, hprinted] at hwritten
    exact (Option.some.inj hwritten).symm
  refine ⟨fun mapping hloaded => ?_, fun hloaded => ?_⟩
  · obtain ⟨_, hprinted⟩ := run_of_tells hprints (task.ends_generate_none hloaded)
      (task.tells_generate_none hloaded)
    change printed = _ at hprinted
    have hdone : printed.ending = .done := by rw [hprinted]; rfl
    have hcode : printed.output = mapping.generate := by rw [hprinted, String.empty_append]
    have htold : printed.notices = (settingsEvents surroundings tree).map .event
        ++ ((sessionEvents surroundings.workDirectory tree path).map .event
          ++ task.codeNotices mapping) := by rw [hprinted]
    have hmessages := messages_of_codeNotices hdone htold
    refine ⟨by rw [hdone]; rfl, hcode, by rw [hprinted], hmessages, ?_⟩
    rintro ⟨_, _, hwritable⟩
    obtain ⟨after, hwrite⟩ := FileTree.exists_write hwritable (Utf8.bytesOf mapping.generate)
    obtain ⟨_, hwritten⟩ := run_of_tells hwrites (task.ends_generate_some hloaded hwrite)
      (task.tells_generate_some hloaded hwrite)
    change written = _ at hwritten
    have hnotices : written.notices = printed.notices := by rw [hwritten, hprinted]
    have hending : written.ending = printed.ending := by rw [hwritten, hprinted]
    have hafter : written.tree = after := by rw [hwritten]
    rw [hcode, hafter]
    exact ⟨by rw [hending, hdone]; rfl, by rw [hwritten, String.empty_append], hwrite,
      FileTree.find_of_write_self hwrite, Outcome.messages_congr hnotices hending,
      fun hsame => Outcome.diagnostics_congr hnotices hending (hfilter hsame)⟩
  · obtain ⟨_, hends⟩ := task.ends_generate_error "" hloaded
    obtain ⟨_, hprinted⟩ := run_of_tells hprints (hends none)
      (task.tells_generate_error hloaded none)
    obtain ⟨_, hwritten⟩ := run_of_tells hwrites (hends (some out))
      (task.tells_generate_error hloaded (some out))
    change printed = _ at hprinted
    change written = _ at hwritten
    have hnotices : written.notices = printed.notices := by rw [hwritten, hprinted]
    have hending : written.ending = printed.ending := by rw [hwritten, hprinted]
    exact ⟨by rw [hprinted]; rfl, by rw [hwritten]; rfl, by rw [hprinted], by rw [hwritten],
      by rw [hprinted], by rw [hwritten], Outcome.messages_congr hnotices hending,
      fun hsame => Outcome.diagnostics_congr hnotices hending (hfilter hsame)⟩

end Generating

/-- The file that code is written to may be the document it was made from.  A document that is empty
cannot be loaded. -/
theorem generate_prints_what_it_writes_over_document :
    let path := Path.ofString "m.json"
    let mapping := Mapping.factory.set .a (.unknown "Quack")
    let tree := FileTree.empty.put [Utf8.bytesOf "m.json"] (.file (Utf8.bytesOf mapping.text))
    let spoiled := FileTree.empty.put [Utf8.bytesOf "m.json"] (.file [])
    let toOutput := Command.spelled (.generate none) path
    let toFile := Command.spelled (.generate (some path)) path
    let written := run bareSurroundings tree toFile
    (run bareSurroundings tree toOutput).output = mapping.generate
      ∧ written.tree.find [] path = .ok (.file (Utf8.bytesOf mapping.generate))
      ∧ written.output = "Wrote " ++ path.shown ++ "\n"
      ∧ written.messages = "Warning: A is mapped to unknown N64 button `Quack`, "
        ++ "no code generated for it\n" ++ instructionsText
      ∧ (run bareSurroundings spoiled toFile).ending.code = 1
      ∧ (run bareSurroundings spoiled toFile).tree = spoiled := by
  intro path mapping tree spoiled toOutput toFile written
  have hpath : path.bytes ≠ [] := by decide
  have hprints : ∀ files, IsAbout [] path bareSurroundings files toOutput
      ⟨some path, false, .generate none⟩ :=
    fun files => isAbout_bareSurroundings files _ hpath nofun
  have hwrites : ∀ files, IsAbout [] path bareSurroundings files toFile
      ⟨some path, false, .generate (some path)⟩ :=
    fun files => isAbout_bareSurroundings files _ hpath (by decide)
  have hdecode : Mapping.decode (Utf8.bytesOf mapping.text) = .ok mapping :=
    (Mapping.canonical_factory.set .a "Quack").decode_text
  have hsettings : Settings.effective bareSurroundings tree = .default :=
    Settings.effective_of_no_file rfl nofun
  obtain ⟨hloads, _⟩ := generate_prints_what_it_writes (hprints tree) (hwrites tree)
  obtain ⟨_, hcode, _, hmessages, hwritten⟩ := hloads mapping (loaded?_of_find rfl hdecode)
  obtain ⟨_, hwrote, _, hfind, hsame, _⟩ := hwritten ⟨[], _, rfl⟩
  obtain ⟨_, hfails⟩ := generate_prints_what_it_writes (hprints spoiled) (hwrites spoiled)
  obtain ⟨_, hrefused, _, _, _, hkept, _⟩ := hfails rfl
  rw [hcode] at hfind
  rw [hsettings] at hmessages
  exact ⟨hcode, hfind, hwrote, hsame.trans hmessages, hrefused, hkept⟩

end PadBridge.Run
