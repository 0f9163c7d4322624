/-!
The tree of a TOML document.  Entries stand in document order under distinct keys.  A table
remembers how it came to be, because that decides what later lines may still add to it.
-/

namespace PadBridge.Toml

/-- How a table came to be. -/
inductive Origin where
  /-- Written between braces, and complete. -/
  | inline
  /-- Named by a header of its own. -/
  | header
  /-- Passed by a header on the way to another table. -/
  | implied
  /-- Passed by a dotted key. -/
  | dotted
deriving Repr, DecidableEq

inductive Value where
  | text (value : String)
  | integer (value : Int)
  | number (value : Float)
  | boolean (value : Bool)
  /-- A date, a time, or both. -/
  | moment
  | array (items : List Value)
  | table (origin : Origin) (entries : List (String × Value))
  /-- The tables of equal headers in double brackets, of which there is at least one. -/
  | tables (earlier : List (List (String × Value))) (last : List (String × Value))

/-- Values under distinct keys. -/
abbrev Entries := List (String × Value)

namespace Entries

def find? (entries : Entries) (key : String) : Option Value :=
  entries.lookup key

/-- Add an entry at the end, under a key that is new. -/
def add? (entries : Entries) (key : String) (value : Value) : Option Entries :=
  match entries.find? key with
  | some _ => none
  | none => some (entries ++ [(key, value)])

/-- Replace the value of a key where it stands. -/
def replace (entries : Entries) (key : String) (value : Value) : Entries :=
  entries.map fun entry => if entry.1 = key then (key, value) else entry

def erase (entries : Entries) (key : String) : Entries :=
  entries.filter fun entry => entry.1 ≠ key

/-- Whether a dotted key may pass a table: not one that is complete or has a header. -/
def passable : Origin → Bool
  | .dotted | .implied => true
  | .inline | .header => false

/-- Add an entry under a dotted key, `path` being its parts but the last.  Only a table made by
dotted keys can be added to; of an array of tables the last one can be passed. -/
def insertDotted (entries : Entries) : List String → String → Value → Option Entries
  | [], key, value => entries.add? key value
  | part :: path, key, value =>
      match entries.find? part with
      | none => do
          let inner ← insertDotted [] path key value
          return entries ++ [(part, .table .dotted inner)]
      | some (.table origin inner) =>
          if passable origin ∧ (path = [] → origin = .dotted) then do
            let inner ← insertDotted inner path key value
            return entries.replace part (.table origin inner)
          else none
      | some (.tables earlier last) =>
          if path = [] then none
          else do
            let last ← insertDotted last path key value
            return entries.replace part (.tables earlier last)
      | some _ => none

/-- Change the table at the path of a header.  Missing tables on the way are implied, and of an
array of tables the last one is meant. -/
def changeAt (change : Entries → Option Entries) (entries : Entries) :
    List String → Option Entries
  | [] => change entries
  | part :: path =>
      match entries.find? part with
      | none => do
          let inner ← changeAt change [] path
          return entries ++ [(part, .table .implied inner)]
      | some (.table .inline _) => none
      | some (.table origin inner) => do
          let inner ← changeAt change inner path
          return entries.replace part (.table origin inner)
      | some (.tables earlier last) => do
          let last ← changeAt change last path
          return entries.replace part (.tables earlier last)
      | some _ => none

/-- Open the table of a header.  A table that was only implied so far moves to the end. -/
def openTable (key : String) (entries : Entries) : Option Entries :=
  match entries.find? key with
  | none => some (entries ++ [(key, .table .header [])])
  | some (.table .implied inner) => some (entries.erase key ++ [(key, .table .header inner)])
  | some _ => none

/-- Open the next table of a header in double brackets. -/
def openNext (key : String) (entries : Entries) : Option Entries :=
  match entries.find? key with
  | none => some (entries ++ [(key, .tables [] [])])
  | some (.tables earlier last) => some (entries.replace key (.tables (earlier ++ [last]) []))
  | some _ => none

end Entries

/-- A key with its parts; the last part stands by itself. -/
structure Key where
  path : List String
  last : String
deriving Repr, DecidableEq

def Key.parts (key : Key) : List String :=
  key.path ++ [key.last]

/-- The table that some pairs between braces make. -/
def inlineTable? (pairs : List (Key × Value)) : Option Value := do
  let entries ← pairs.foldlM
    (fun (entries : Entries) pair => entries.insertDotted pair.1.path pair.1.last pair.2) []
  return .table .inline entries

/-- One line of a document. -/
inductive Statement where
  | entry (key : Key) (value : Value)
  | header (key : Key)
  | nextHeader (key : Key)

/-- A document as far as it has been read, and the path of the table that entries go to. -/
structure Outline where
  entries : Entries
  current : List String

namespace Outline

def empty : Outline :=
  ⟨[], []⟩

def extend (outline : Outline) : Statement → Option Outline
  | .entry key value => do
      let entries ← outline.entries.changeAt
        (fun inner => inner.insertDotted key.path key.last value) outline.current
      return { outline with entries }
  | .header key => do
      let entries ← outline.entries.changeAt (Entries.openTable key.last) key.path
      return ⟨entries, key.parts⟩
  | .nextHeader key => do
      let entries ← outline.entries.changeAt (Entries.openNext key.last) key.path
      return ⟨entries, key.parts⟩

end Outline

/-- The top level of a document, unless a line contradicts the lines before it. -/
def Entries.ofStatements? (statements : List Statement) : Option Entries :=
  (statements.foldlM Outline.extend .empty).map Outline.entries

end PadBridge.Toml
