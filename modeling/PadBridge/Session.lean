import PadBridge.Document
import PadBridge.Sketch
import PadBridge.Stream.Sink
import PadBridge.Text.Utf8

/-!
A session owns the mapping one user is editing.  Loading replaces the mapping as a whole or, when
it fails, not at all; all bytes are read before any of them is looked at.
-/

namespace PadBridge

/-- Why a mapping document is not loaded or not saved. -/
inductive DocumentError where
  | malformed (cause : Json.Error)
  | unreadable (cause : StreamFailure)
  | unwritable (cause : StreamFailure)

namespace DocumentError

/-- The text of the error behind this one. -/
def cause : DocumentError → String
  | .malformed cause => cause.message
  | .unreadable cause => cause.message
  | .unwritable cause => cause.message

def message : DocumentError → String
  | .malformed cause => "could not load mapping: " ++ cause.message
  | .unreadable _ => "could not read mapping document"
  | .unwritable _ => "could not write mapping document"

end DocumentError

namespace Mapping

/-- Read a source to its end and decode what was read. -/
def readFrom (source : Source) : Except DocumentError Mapping :=
  match source.readAll with
  | .error failure => .error (.unreadable failure)
  | .ok bytes => (decode bytes).mapError .malformed

/-- Write the document of a mapping to a sink. -/
def writeTo (mapping : Mapping) (sink : Sink) : Sink × Except DocumentError Unit :=
  let (sink, outcome) := sink.deliver (Utf8.bytesOf mapping.text)
  (sink, outcome.mapError .unwritable)

end Mapping

/-- The mapping one user is editing. -/
structure Session where
  mapping : Mapping

namespace Session

def new : Session :=
  ⟨.factory⟩

def get (session : Session) (source : GameCubeButton) : Target :=
  session.mapping.get source

def set (session : Session) (source : GameCubeButton) (target : Target) : Session :=
  ⟨session.mapping.set source target⟩

/-- Back to the factory mapping. -/
def reset (session : Session) : Session :=
  ⟨session.mapping.reset⟩

def generate (session : Session) : String :=
  session.mapping.generate

/-- Replace the mapping by the one that is read.  A failed load leaves the session alone. -/
def load (session : Session) (source : Source) : Session × Except DocumentError Unit :=
  match Mapping.readFrom source with
  | .ok mapping => (⟨mapping⟩, .ok ())
  | .error error => (session, .error error)

def save (session : Session) (sink : Sink) : Sink × Except DocumentError Unit :=
  session.mapping.writeTo sink

end Session

end PadBridge
