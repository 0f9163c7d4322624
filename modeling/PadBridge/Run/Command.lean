import PadBridge.Run.Action

/-!
The commands of the program, and a whole run from its command line to its ending.
-/

namespace PadBridge.Run

open CommandLine (Command Invocation Argument Page Stop)

/-- The width of the columns of button names. -/
def nameWidth : Nat := 14

def rule : String :=
  String.ofList (List.replicate 40 '-') ++ "\n"

def column (name : String) : String :=
  Text.pad .left nameWidth name

/-- The list of a mapping's buttons and of its other entries. -/
def mappingList (mapping : Mapping) : String :=
  String.join (mapping.entries.map fun entry =>
      "GameCube " ++ column entry.1.name ++ " -> " ++ entry.2.name ++ "\n")
    ++ String.join (mapping.extra.entries.map fun entry =>
      "(unused) " ++ column entry.1 ++ " -> " ++ entry.2 ++ "\n")

/-- The list of both controllers' buttons. -/
def buttonList : String :=
  "GameCube buttons\n" ++ rule
    ++ String.join (GameCubeButton.all.map fun button =>
      column button.name ++ " " ++ button.condition.expression ++ "\n")
    ++ "\nN64 buttons\n" ++ rule
    ++ String.join (N64Button.all.map fun button =>
      column button.name ++ " " ++ button.bit.assignment ++ "\n")
    ++ column Target.noneName ++ " (unassigned)\n"

/-- What a command works with. -/
structure Task where
  surroundings : Surroundings
  settings : Settings
  /-- The mapping document. -/
  path : Path

namespace Task

def load (task : Task) : Action Session :=
  loadSession task.surroundings task.path

def save (task : Task) (session : Session) : Action Unit :=
  saveSession task.surroundings task.path session

def generate (task : Task) (out : Option Path) : Action Unit := do
  let session ← task.load
  let skipped := session.mapping.skipped
  noteAll (skipped.map fun entry => .unmapped entry.1 entry.2)
  noteAll (skipped.map fun entry => .event (.buttonSkipped entry.1 entry.2))
  let code := session.generate
  match out with
  | none => print code
  | some path =>
      match (← get).tree.write task.surroundings.workDirectory path (Utf8.bytesOf code) with
      | .error error => fail (.writingCode path error)
      | .ok tree =>
          modify fun state => { state with tree }
          print ("Wrote " ++ path.shown ++ "\n")
  if task.settings.showInstructions then note .instructions

def set (task : Task) (source : GameCubeButton) (destination : String) : Action Unit := do
  let target := Target.ofName destination
  if let .unknown name := target then log (.targetUnknown source name)
  let session ← task.load
  log (.assigned source target)
  task.save (session.set source target)
  print (source.name ++ " -> " ++ target.name ++ "\n")

def showMapping (task : Task) : Action Unit := do
  let session ← task.load
  print ("Mapping: " ++ task.path.shown ++ "\n" ++ rule ++ mappingList session.mapping)

/-- Load the session, or if that fails start with a new one. -/
def loadOrNew (task : Task) : Action Session :=
  tryCatch task.load fun
    | .failed failure => do
        log (.mappingDiscarded failure)
        return .new
    | .crashed => throw .crashed

def reset (task : Task) : Action Unit := do
  let session ← task.loadOrNew
  task.save session.reset
  print ("Restored factory mapping in " ++ task.path.shown ++ "\n")

def clear (task : Task) : Action Unit := do
  let mapping := Mapping.unassigned
  noteAll (mapping.entries.map fun entry => .event (.assigned entry.1 entry.2))
  task.save ⟨mapping⟩
  print ("Unassigned every button in " ++ task.path.shown ++ "\n")

def config (task : Task) (mappingFile : Option Path) (showInstructions : Option Bool) :
    Action Unit := do
  let (settings, changed) := task.settings.update mappingFile showInstructions
  if changed then
    let (tree, saved) := settings.save task.surroundings (← get).tree
    modify fun state => { state with tree }
    match saved with
    | .ok path => print ("Saved " ++ path.shown ++ "\n")
    | .error error => fail (.savingSettings error)
  match settings.toToml with
  | .ok text => print (String.ofList text)
  | .error error => fail (.showingSettings error)

def perform (task : Task) : Command → Action Unit
  | .generate out => task.generate out
  | .set source destination => task.set source destination
  | .show => task.showMapping
  | .reset => task.reset
  | .clear => task.clear
  | .buttons => print buttonList
  | .config mappingFile showInstructions => task.config mappingFile showInstructions

end Task

/-- The settings of a run.  Settings that cannot be read are ignored. -/
def loadSettings (surroundings : Surroundings) : Action Settings := do
  match Settings.load surroundings (← get).tree with
  | .ok settings => return settings
  | .error error =>
      log (.settingsIgnored error)
      return .default

/-- Carry out an invocation. -/
def perform (surroundings : Surroundings) (invocation : Invocation) : Action Unit := do
  let settings ← loadSettings surroundings
  let path := invocation.mapping.getD settings.mappingFile
  Task.perform ⟨surroundings, settings, path⟩ invocation.command

/-- The outcome of a run that has done nothing. -/
def idle (tree : FileTree) (output : String) (ending : Ending) : Outcome where
  tree := tree
  output := output
  notices := []
  filter := .atLevel .warn
  ending := ending

/-- The outcome of an invocation.  Without a filter for its log records nothing is done. -/
def invoke (surroundings : Surroundings) (tree : FileTree) (invocation : Invocation) : Outcome :=
  match Log.Filter.choose surroundings.logFilter invocation.verbose with
  | none => idle tree "" .crashed
  | some filter =>
      let (result, state) := (perform surroundings invocation).run ⟨tree, "", []⟩
      let ending := match result with
        | .ok () => Ending.done
        | .error (.failed failure) => .failed failure
        | .error .crashed => .crashed
      { state with filter, ending }

/-- The outcome of a command line that asks for nothing to be done, or for nothing that can be. -/
def stop (surroundings : Surroundings) (tree : FileTree) (reason : Stop) : Outcome :=
  let text (page : Page) : String := page.text surroundings.mapping
  match reason with
  | .help page => idle tree (text page) .done
  | .version => idle tree CommandLine.versionLine .done
  | .nothing => idle tree "" (.unasked (text .top))
  | .refused error => idle tree "" (.refused error)

/-- A run of the program. -/
def run (surroundings : Surroundings) (tree : FileTree) (arguments : List Argument) : Outcome :=
  match CommandLine.read surroundings.mapping arguments with
  | .ok invocation => invoke surroundings tree invocation
  | .error reason => stop surroundings tree reason

end PadBridge.Run
