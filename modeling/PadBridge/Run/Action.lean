import PadBridge.Run.Outcome

/-!
The parts that commands are made of: saying something, loading the mapping and saving it.
-/

namespace PadBridge.Run

def print (text : String) : Action Unit :=
  modify fun state => { state with output := state.output ++ text }

def note (notice : Notice) : Action Unit :=
  modify fun state => { state with notices := state.notices ++ [notice] }

def log (event : Log.Event) : Action Unit :=
  note (.event event)

def noteAll (notices : List Notice) : Action Unit :=
  modify fun state => { state with notices := state.notices ++ notices }

def fail {α : Type} (failure : Failure) : Action α :=
  throw (.failed failure)

/-- What is logged about one entry of a document. -/
def entryEvent (entry : String × String) : Log.Event :=
  match GameCubeButton.ofName? entry.1 with
  | some source => .assigned source (.ofName entry.2)
  | none => .keyKept entry.1

/-- What is logged about a document that is loaded. -/
def loadEvents (bytes : List UInt8) : List Log.Event :=
  match Document.ofBytes bytes with
  | .ok document => document.entries.map entryEvent ++ [.documentLoaded]
  | .error _ => []

/-- The session of a mapping document; without a document the factory mapping. -/
def loadSession (surroundings : Surroundings) (path : Path) : Action Session := do
  let tree := (← get).tree
  if tree.contains surroundings.workDirectory path then
    match tree.read surroundings.workDirectory path with
    | .error error => fail (.loading path (.unreadable (.file error)))
    | .ok bytes =>
        match Session.new.load (.ofBytes bytes) with
        | (session, .ok ()) =>
            noteAll ((loadEvents bytes).map .event)
            return session
        | (_, .error error) => fail (.loading path error)
  else
    log (.mappingMissing path)
    return .new

/-- Keep a session as a mapping document.  A crash is a panic that unwinds: what `FileTree.replace`
leaves out about builds that abort is left out here too. -/
def saveSession (surroundings : Surroundings) (path : Path) (session : Session) :
    Action Unit := do
  let (tree, made) := (← get).tree.makeParent surroundings.workDirectory path
  modify fun state => { state with tree }
  if let .error error := made then fail (.makingDirectories error)
  match tree.replace surroundings.workDirectory path (session.save .memory).1.taken with
  | .replaced tree =>
      modify fun state => { state with tree }
      log (.mappingSaved path)
  | .failed error => fail (.saving path error)
  | .nameless => throw .crashed

end PadBridge.Run
