import PadBridge.CommandLine.Reader
import PadBridge.Proofs.Utf8

/-!
Spelling commands.  Every command can be given with every mapping document: options have their
values attached, and behind two dashes every text is an argument, whatever it looks like.
-/

namespace PadBridge.CommandLine

theorem word?_name (verb : Verb) : word? (Utf8.bytesOf verb.name) = some (.verb verb) := by
  rw [word?, Utf8.decodeString?_bytesOf]
  cases verb <;> rfl

theorem head?_name (verb : Verb) : some dash ≠ (Utf8.bytesOf verb.name).head? := by
  cases verb <;> decide

/-- No command starts with a dash. -/
theorem word?_of_dash (rest : Argument) : word? (dash :: rest) = none := by
  rw [word?]
  cases hdecode : Utf8.decodeString? (dash :: rest) with
  | none => rfl
  | some text =>
      have hhead : some dash = (Utf8.bytesOf text).head? :=
        congrArg List.head? (Utf8.decodeString?_eq_some_iff.mp hdecode)
      have hhelp : text ≠ "help" := by
        rintro rfl
        exact absurd hhead (by decide)
      have hverbs : (Verb.all.find? fun verb => verb.name = text) = none := by
        refine List.find?_eq_none.mpr fun verb _ => ?_
        rw [decide_eq_true_eq]
        rintro rfl
        exact head?_name verb hhead
      simp only [if_neg hhelp, hverbs, Option.map_none]

/-- An option with its value attached. -/
def Flag.argument (flag : Flag) (value : Argument) : Argument :=
  dash :: dash :: (Utf8.bytesOf flag.longName ++ equalsSign :: value)

theorem splitValue_longName (flag : Flag) (value : Argument) :
    splitValue (Utf8.bytesOf flag.longName ++ equalsSign :: value) =
      (Utf8.bytesOf flag.longName, some value) := by
  cases flag <;> rfl

theorem Flag.longName_injective {left right : Flag} (h : left.longName = right.longName) :
    left = right := by
  cases left <;> cases right <;> first | rfl | simp [longName] at h

theorem Level.longFlag?_longName {level : Level} {flag : Flag} (hflag : flag ∈ level.flags) :
    level.longFlag? flag.longName.toList = some flag := by
  rw [longFlag?]
  cases hfound : level.flags.find? fun other => other.longName.toList = flag.longName.toList with
  | none => simpa using List.find?_eq_none.mp hfound flag hflag
  | some other =>
      have hsame : other.longName.toList = flag.longName.toList := by
        simpa using List.find?_some hfound
      rw [Flag.longName_injective (String.toList_injective hsame)]

theorem readArgument_argument {level : Level} {flag : Flag} (hflag : flag ∈ level.flags)
    (hvalue : flag.takesValue = true) (progress : Progress) (value : Argument) :
    readArgument level progress (flag.argument value) = progress.attach flag value := by
  have hname : Utf8.decode? (Utf8.bytesOf flag.longName) = some flag.longName.toList :=
    Utf8.decode?_eq_some_iff.mpr rfl
  have hlong : readArgument level progress (flag.argument value) =
      readLong level progress (Utf8.bytesOf flag.longName ++ equalsSign :: value) := by
    cases flag <;> rfl
  rw [hlong, readLong, splitValue_longName]
  simp only [hname, Option.bind_some, Level.longFlag?_longName hflag, hvalue, if_true]

/-- An option with its value is taken at once when nothing is held back. -/
theorem readLevel_argument {level : Level} {flag : Flag} (hflag : flag ∈ level.flags)
    (hvalue : flag.takesValue = true) {before given : Given} {value : Argument}
    (hset : before.setValue flag value = .ok given) (expected : List Positional)
    (rest : List Argument) :
    readLevel level ⟨before, .nothing, expected, false⟩ (flag.argument value :: rest) =
      readLevel level ⟨given, .nothing, expected, false⟩ rest := by
  have hword : word? (flag.argument value) = none := word?_of_dash _
  rw [readLevel]
  simp only [hword, readArgument_argument hflag hvalue, Progress.attach, Progress.settle,
    Bool.false_eq_true, if_false, ite_self]
  change (before.setValue flag value >>= fun given => pure _) >>= _ = _
  rw [hset]
  rfl

theorem setValue_out (given : Given) (hgiven : given.out = none) {path : Path}
    (hpath : path.bytes ≠ []) :
    given.setValue .out path.bytes = .ok { given with out := some path } := by
  simp only [Given.setValue, Given.has, hgiven, Given.readPath, if_neg hpath]
  rfl

theorem setValue_mapping (given : Given) (hgiven : given.mapping = none) {path : Path}
    (hpath : path.bytes ≠ []) :
    given.setValue .mapping path.bytes = .ok { given with mapping := some path } := by
  simp only [Given.setValue, Given.has, hgiven, Given.readPath, if_neg hpath]
  rfl

theorem setValue_mappingFile (given : Given) (hgiven : given.mappingFile = none) {path : Path}
    (hpath : path.bytes ≠ []) :
    given.setValue .mappingFile path.bytes = .ok { given with mappingFile := some path } := by
  simp only [Given.setValue, Given.has, hgiven, Given.readPath, if_neg hpath]
  rfl

theorem setValue_showInstructions (given : Given) (hgiven : given.showInstructions = none)
    (choice : Bool) :
    given.setValue .showInstructions (Utf8.bytesOf (toString choice)) =
      .ok { given with showInstructions := some choice } := by
  simp only [Given.setValue, Given.has, hgiven]
  cases choice <;> rfl

def Given.ofMapping (mapping : Path) : Given :=
  { nothing with mapping := some mapping }


@[simp] theorem Given.mapping_ofMapping (mapping : Path) :
    (ofMapping mapping).mapping = some mapping := rfl

@[simp] theorem Given.verbose_ofMapping (mapping : Path) :
    (ofMapping mapping).verbose = false := rfl

namespace Command

def verb : Command → Verb
  | .generate _ => .generate
  | .set _ _ => .set
  | .show => .show
  | .reset => .reset
  | .clear => .clear
  | .buttons => .buttons
  | .config _ _ => .config

def paths : Command → List Path
  | .generate out => out.toList
  | .config mappingFile _ => mappingFile.toList
  | _ => []

def arguments : Command → List Argument
  | .generate out => out.toList.map fun path => Flag.out.argument path.bytes
  | .set source destination =>
      [[dash, dash], Utf8.bytesOf source.name, Utf8.bytesOf destination]
  | .config mappingFile showInstructions =>
      mappingFile.toList.map (fun path => Flag.mappingFile.argument path.bytes)
        ++ showInstructions.toList.map fun choice =>
          Flag.showInstructions.argument (Utf8.bytesOf (toString choice))
  | .show | .reset | .clear | .buttons => []

def given : Command → Given
  | .generate out => { Given.nothing with out }
  | .set source destination =>
      { Given.nothing with source := some source, destination := some destination }
  | .config mappingFile showInstructions => { Given.nothing with mappingFile, showInstructions }
  | .show | .reset | .clear | .buttons => .nothing

/-- A command line for a command about a mapping document. -/
def spelled (command : Command) (mapping : Path) : List Argument :=
  Flag.mapping.argument mapping.bytes :: Utf8.bytesOf command.verb.name :: command.arguments

theorem command_given (command : Command) :
    CommandLine.command command.verb command.given = .ok command := by
  cases command <;> rfl

/-- Behind two dashes come the button and the destination; the latter is held back. -/
theorem readLevel_set (source : GameCubeButton) (destination : String) :
    readLevel (.command .set) (.start (.command .set)) (arguments (.set source destination)) =
      .ok (⟨{ Given.nothing with source := some source },
        .positional .destination (Utf8.bytesOf destination), [], true⟩, none) := by
  have hsource : Given.nothing.setPositional .source (Utf8.bytesOf source.name) =
      .ok { Given.nothing with source := some source } := by
    simp [Given.setPositional, Utf8.decodeString?_bytesOf, GameCubeButton.ofName]
  change readLevel _ ⟨.nothing, .positional .source (Utf8.bytesOf source.name),
    [.destination], true⟩ _ = _
  simp only [readLevel, readPositional, Progress.hold, Progress.settle, hsource, if_true]
  rfl

/-- Every text is a destination. -/
theorem settle_destination (source : GameCubeButton) (destination : String) :
    Progress.settle ⟨{ Given.nothing with source := some source },
        .positional .destination (Utf8.bytesOf destination), [], true⟩ =
      .ok ⟨given (.set source destination), .nothing, [], true⟩ := by
  simp only [Progress.settle, Given.setPositional, Utf8.decodeString?_bytesOf]
  rfl

theorem readLevel_arguments (command : Command) (hpaths : ∀ path ∈ command.paths, path.bytes ≠ []) :
    ∃ progress settled,
      readLevel (.command command.verb) (.start (.command command.verb)) command.arguments =
          .ok (progress, none)
        ∧ progress.settle = .ok settled ∧ settled.given = command.given := by
  cases command with
  | «show» => exact ⟨_, _, rfl, rfl, rfl⟩
  | reset => exact ⟨_, _, rfl, rfl, rfl⟩
  | clear => exact ⟨_, _, rfl, rfl, rfl⟩
  | buttons => exact ⟨_, _, rfl, rfl, rfl⟩
  | generate out =>
      refine ⟨⟨given (.generate out), .nothing, [], false⟩, _, ?_, rfl, rfl⟩
      cases out with
      | none => rfl
      | some path =>
          have hset := setValue_out .nothing rfl (hpaths path (by simp [paths]))
          have hflag : Flag.out ∈ (Level.command .generate).flags := by decide
          exact readLevel_argument hflag rfl hset [] []
  | set source destination =>
      exact ⟨_, _, readLevel_set source destination, settle_destination source destination, rfl⟩
  | config mappingFile showInstructions =>
      refine ⟨⟨given (.config mappingFile showInstructions), .nothing, [], false⟩, _, ?_, rfl, rfl⟩
      have hchoice : readLevel (.command .config)
          ⟨{ Given.nothing with mappingFile }, .nothing, [], false⟩
          (arguments (.config none showInstructions)) =
            .ok (⟨given (.config mappingFile showInstructions), .nothing, [], false⟩, none) := by
        cases showInstructions with
        | none => rfl
        | some choice =>
            have hset := setValue_showInstructions { Given.nothing with mappingFile } rfl choice
            have hflag : Flag.showInstructions ∈ (Level.command .config).flags := by decide
            exact readLevel_argument hflag rfl hset [] []
      cases mappingFile with
      | none => exact hchoice
      | some path =>
          have hset := setValue_mappingFile .nothing rfl (hpaths path (by simp [paths]))
          have hflag : Flag.mappingFile ∈ (Level.command .config).flags := by decide
          exact (readLevel_argument hflag rfl hset [] _).trans hchoice

theorem complete_eq {progress settled : Progress} (hsettle : progress.settle = .ok settled)
    {mapping : Option Path} (hmapping : ∀ path, mapping = some path → path.bytes ≠ []) :
    complete progress mapping = .ok settled.given := by
  rw [complete, hsettle]
  cases mapping with
  | none =>
      cases hgiven : settled.given.mapping <;>
        simp [bind, Except.bind, pure, Except.pure, hgiven]
  | some path =>
      have hread : Given.readPath .mapping path.bytes = .ok ⟨path.bytes⟩ := by
        rw [Given.readPath, if_neg (hmapping path rfl)]
      cases hgiven : settled.given.mapping <;>
        simp [bind, Except.bind, pure, Except.pure, hgiven, hread]

/-- Every command about every mapping document can be given; only empty paths cannot. -/
theorem read_spelled (command : Command) (hpaths : ∀ path ∈ command.paths, path.bytes ≠ [])
    {mapping : Path} (hmapping : mapping.bytes ≠ []) {chosen : Option Path}
    (hchosen : ∀ path, chosen = some path → path.bytes ≠ []) :
    read chosen (command.spelled mapping) = .ok ⟨some mapping, false, command⟩ := by
  obtain ⟨progress, settled, hinner, hsettle, hgiven⟩ := readLevel_arguments command hpaths
  have htop : readLevel .top (.start .top) (command.spelled mapping) =
      .ok (⟨.ofMapping mapping, .nothing, [], false⟩, some (command.verb, command.arguments)) := by
    have hset := setValue_mapping .nothing rfl hmapping
    have hflag : Flag.mapping ∈ Level.top.flags := by decide
    apply (readLevel_argument hflag rfl hset [] _).trans
    rw [readLevel]
    simp [Pending.isAwaiting, word?_name, Given.ofMapping]
  have hsettleTop : Progress.settle ⟨.ofMapping mapping, .nothing, [], false⟩ =
      .ok ⟨.ofMapping mapping, .nothing, [], false⟩ := rfl
  have houter := complete_eq hsettleTop hchosen
  have hcommand : CommandLine.command command.verb settled.given = .ok command := by
    rw [hgiven, command_given]
  have hnone : settled.given.mapping = none := by
    rw [hgiven]
    cases command <;> rfl
  have hquiet : settled.given.verbose = false := by
    rw [hgiven]
    cases command <;> rfl
  rw [read, htop]
  simp [bind, Except.bind, pure, Except.pure, hinner, complete_eq hsettle hchosen, hcommand,
    houter, hnone, hquiet]

end Command

end PadBridge.CommandLine
