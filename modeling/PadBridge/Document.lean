import PadBridge.Json.Object
import PadBridge.Json.Printer
import PadBridge.Mapping

/-!
Mapping documents: GameCube button names with the names of their destinations, in a fixed order.
A mapping is written button by button and then entry by entry; reading starts from the factory
mapping, so a button that a document leaves out keeps its factory destination.  As a text a
document is a JSON object of strings.
-/

namespace PadBridge

/-- Button names with destination names, in the order in which they are written. -/
abbrev Document := Ledger

namespace Document

/-- Read a document from the bytes of its text.  Of a repeated key the first place and the last
value count. -/
def ofBytes (bytes : List UInt8) : Except Json.Error Document :=
  (Json.readObject bytes).map Ledger.ofList

def text (document : Document) : String :=
  Json.printObject document.entries

end Document

namespace Mapping

/-- The buttons of a mapping, by name. -/
def namedEntries (mapping : Mapping) : List (String × String) :=
  mapping.entries.map fun entry => (entry.1.name, entry.2.name)

/-- The document of a mapping.  An extra entry whose key is a button's name takes that button's
place. -/
def toDocument (mapping : Mapping) : Document :=
  (Ledger.ofList mapping.namedEntries).insertAll mapping.extra.entries

/-- Take over one entry of a document. -/
def read (mapping : Mapping) (key value : String) : Mapping :=
  match GameCubeButton.ofName? key with
  | some button => mapping.set button (.ofName value)
  | none => mapping.setExtra key value

/-- The mapping a document describes. -/
def ofDocument (document : Document) : Mapping :=
  document.entries.foldl (fun mapping entry => mapping.read entry.1 entry.2) .factory

/-- What is left of a mapping when its document is read again. -/
def recode (mapping : Mapping) : Mapping :=
  ofDocument mapping.toDocument

/-- Read the bytes of a document's text as a mapping. -/
def decode (bytes : List UInt8) : Except Json.Error Mapping :=
  (Document.ofBytes bytes).map ofDocument

/-- The text of the document of a mapping. -/
def text (mapping : Mapping) : String :=
  mapping.toDocument.text

end Mapping

end PadBridge
