import PadBridge.Log.Directive
import PadBridge.Text.Utf8

/-!
Which log records are shown.  A filter is a comma separated list of directives.  A record follows
the most specific directive that covers its target; a record no directive covers is not shown.
-/

namespace PadBridge.Log

/-- Split a text at commas, leaving out empty pieces. -/
def pieces (text : List Char) : List (List Char) :=
  (split text).filter (· ≠ [])
where
  split : List Char → List (List Char)
    | [] => [[]]
    | c :: rest =>
        if c = ',' then [] :: split rest
        else
          match split rest with
          | [] => [[c]]
          | piece :: more => (c :: piece) :: more

/-- Which records are shown. -/
structure Filter where
  directives : List Directive
deriving Repr, DecidableEq

namespace Filter

/-- Show a level and all that is more important. -/
def atLevel (level : Level) : Filter :=
  ⟨[⟨none, false, none, level⟩]⟩

/-- Read a filter; the empty one shows errors. -/
def read (text : List Char) : Except Misreading Filter :=
  match pieces text with
  | [] => .ok (atLevel .error)
  | parts => do return ⟨(← parts.mapM Directive.read).filter (·.isAboutRecords)⟩

/-- The filter of a run: the chosen one if it is well formed, else by how much the user asks for.
A chosen one that cannot even be taken apart leaves the run without a filter. -/
def choose (chosen : Option (List UInt8)) (verbose : Bool) : Option Filter :=
  match (chosen.bind Utf8.decode?).map read with
  | some (.ok filter) => some filter
  | some (.error .miscut) => none
  | some (.error .malformed) | none => some (atLevel (if verbose then .debug else .warn))

/-- The directive a target follows: the most specific one, of equal ones the last. -/
def directiveFor? (filter : Filter) (target : String) : Option Directive :=
  (filter.directives.filter (·.covers target)).foldl (fun best directive =>
    match best with
    | none => some directive
    | some other => if other.weight ≤ directive.weight then some directive else some other) none

def shows (filter : Filter) (target : String) (level : Level) : Bool :=
  match filter.directiveFor? target with
  | none => false
  | some directive => level.rank ≤ directive.level.rank

end Filter

end PadBridge.Log
