import PadBridge.Text.Hex
import PadBridge.Text.Letter

/-!
Patterns for the values of fields in log filters.  Nothing is ever compared with one here, so all
that counts is which texts are patterns.  There are no classes of characters beyond ASCII and no
rules for their case, so what would need them is refused: named classes, edges of words and the
neglect of case unless a pattern keeps to ASCII, and what could match a part of a character if it
does.
-/

namespace PadBridge.Log.Pattern

open Text (hexDigit? scalar? isBlank isLetter isLetterOrDigit)

/-- How deep patterns nest at most. -/
def depthLimit : Nat := 250

/-- The depth of some parts side by side, a single one counting as itself. -/
def bundle : List Nat → Nat
  | [] => 0
  | [depth] => depth
  | depths => 1 + depths.foldl max 0

/-- What is switched on while a part of a pattern is read. -/
structure Switches where
  ignoreCase : Bool
  /-- Whether the pattern goes beyond ASCII. -/
  unicode : Bool
  /-- Whether blanks and comments may stand between the parts. -/
  spaced : Bool
deriving Repr, DecidableEq

namespace Switches

def initial : Switches where
  ignoreCase := false
  unicode := true
  spaced := false

/-- The letters of all switches. -/
def letters : List Char :=
  ['i', 'm', 's', 'U', 'u', 'R', 'x']

/-- Turn switches on, and off those behind a hyphen. -/
def turn (switches : Switches) (marks : List Char) : Switches :=
  let on := marks.takeWhile (· ≠ '-')
  let value (letter : Char) (old : Bool) : Bool :=
    if letter ∈ on then true else if letter ∈ marks then false else old
  { ignoreCase := value 'i' switches.ignoreCase
    unicode := value 'u' switches.unicode
    spaced := value 'x' switches.spaced }

end Switches

/-- The marks of a switch, up to the parenthesis or colon behind them. -/
def marks (seen : List Char) : List Char → Option (List Char × Char × List Char)
  | [] => none
  | c :: rest =>
      if c = ':' ∨ c = ')' then
        if seen.head? = some '-' then none else some (seen.reverse, c, rest)
      else if (c = '-' ∨ c ∈ Switches.letters) ∧ c ∉ seen then marks (c :: seen) rest
      else none

/-- Pass blanks, and comments up to the end of their line. -/
def skipBlanks (comment : Bool) : List Char → List Char
  | [] => []
  | c :: rest =>
      if comment then skipBlanks (c ≠ '\n') rest
      else if isBlank c then skipBlanks false rest
      else if c = '#' then skipBlanks true rest
      else c :: rest

/-- Pass what may stand between two parts. -/
def skip (switches : Switches) (input : List Char) : List Char :=
  if switches.spaced then skipBlanks false input else input

/-- A part that is not composed of others. -/
inductive Atom where
  /-- A character; `byte` tells whether it is given by two hexadecimal digits. -/
  | literal (c : Char) (byte : Bool)
  /-- The digits, the blanks or the characters of words, or all others. -/
  | named (negated : Bool)
  /-- An end of the text. -/
  | anchor
  /-- An edge of a word, or a place that is none. -/
  | edge
deriving Repr, DecidableEq

namespace Atom

/-- Whether an atom may stand outside of sets. -/
def isAllowed (switches : Switches) : Atom → Bool
  | .literal c byte =>
      if switches.unicode then !switches.ignoreCase else !(byte && 0x80 ≤ c.toNat)
  | .named negated => !switches.unicode && !negated
  | .anchor => true
  | .edge => !switches.unicode

/-- Whether an atom may be an item of a set. -/
def isItem (switches : Switches) : Atom → Bool
  | .literal c _ => if switches.unicode then !switches.ignoreCase else c.toNat < 0x80
  | .named negated => !switches.unicode && !negated
  | .anchor | .edge => false

end Atom

/-- The value of so many hexadecimal digits. -/
def hexNumber (switches : Switches) : Nat → Nat → List Char → Option (Nat × List Char)
  | 0, value, input => some (value, input)
  | count + 1, value, input =>
      match skip switches input with
      | [] => none
      | c :: rest =>
          match hexDigit? c with
          | some digit => hexNumber switches count (value * 16 + digit) rest
          | none => none

/-- A character by its number. -/
def hexLiteral (switches : Switches) (count : Nat) (input : List Char) :
    Option (Atom × List Char) := do
  let (value, rest) ← hexNumber switches count 0 input
  return (.literal (← scalar? value) (count = 2), rest)

/-- What a letter behind a backslash stands for. -/
def lettered? : Char → Option Atom
  | 'a' => some (.literal '\x07' false)
  | 'f' => some (.literal '\x0C' false)
  | 't' => some (.literal '\t' false)
  | 'n' => some (.literal '\n' false)
  | 'r' => some (.literal '\r' false)
  | 'v' => some (.literal '\x0B' false)
  | 'd' | 's' | 'w' => some (.named false)
  | 'D' | 'S' | 'W' => some (.named true)
  | 'A' | 'z' => some .anchor
  | 'b' | 'B' | '<' | '>' => some .edge
  | _ => none

/-- What stands behind a backslash. -/
def escape (switches : Switches) : List Char → Option (Atom × List Char)
  | [] => none
  | 'x' :: rest => hexLiteral switches 2 rest
  | 'u' :: rest => hexLiteral switches 4 rest
  | 'U' :: rest => hexLiteral switches 8 rest
  | c :: rest =>
      match lettered? c with
      | some atom => if c = 'b' ∧ rest.head? = some '\x7b' then none else some (atom, rest)
      | none =>
          if c.toNat < 0x80 ∧ !c.isAlphanum then some (.literal c false, rest) else none

/-- A character of a set, as itself or behind a backslash. -/
def setAtom (switches : Switches) : List Char → Option (Atom × List Char)
  | [] => none
  | '\\' :: rest => escape switches rest
  | c :: rest => some (.literal c false, rest)

/-- The character that decides whether a hyphen makes a range.  Blanks before it do not count, nor
does the mark that begins a comment, but the comment does. -/
def behindHyphen (switches : Switches) (rest : List Char) : Option Char :=
  if switches.spaced then
    match rest.dropWhile isBlank with
    | [] => rest.head?
    | '#' :: more => ((more.dropWhile isBlank).head?).or rest.head?
    | c :: _ => some c
  else rest.head?

/-- An item of a set: a character, some characters that have a name, or a range. -/
def setItem (switches : Switches) (input : List Char) : Option (List Char) := do
  let (first, rest) ← setAtom switches input
  match skip switches rest with
  | [] => none
  | c :: rest =>
      let next := behindHyphen switches rest
      if c ≠ '-' ∨ next = some ']' ∨ next = some '-' then
        if first.isItem switches then return c :: rest else none
      else
        let (last, rest) ← setAtom switches (skip switches rest)
        match first, last with
        | .literal low _, .literal high _ =>
            if low ≤ high ∧ first.isItem switches ∧ last.isItem switches then return rest else none
        | _, _ => none

/-- A set that is being read, or as much of one as stands inside the same brackets. -/
structure OpenSet where
  /-- The depths of the items behind the last operator. -/
  items : List Nat
  /-- The depth of what stands before that operator. -/
  before : Option Nat
deriving Repr, DecidableEq

namespace OpenSet

def empty : OpenSet :=
  ⟨[], none⟩

def add (set : OpenSet) (depth : Nat) : OpenSet :=
  { set with items := depth :: set.items }

def depth (set : OpenSet) : Nat :=
  match set.before with
  | none => bundle set.items
  | some before => 1 + max before (bundle set.items)

/-- Go on behind an operator. -/
def operate (set : OpenSet) : OpenSet :=
  ⟨[], some set.depth⟩

end OpenSet

/-- The hyphens at the start of a set, each of which is an item. -/
def leadingHyphens (switches : Switches) (set : OpenSet) (input : List Char) :
    OpenSet × List Char :=
  match skip switches input with
  | '-' :: rest =>
      if rest.length < input.length then leadingHyphens switches (set.add 0) rest
      else (set, rest)
  | input => (set, input)
termination_by input.length

/-- The start of a set, from behind its bracket.  A closing bracket that comes first is an item. -/
def startSet (switches : Switches) (input : List Char) : Option (OpenSet × List Char) := do
  let (negated, input) := match skip switches input with
    | '^' :: rest => (true, rest)
    | input => (false, input)
  if negated ∧ !switches.unicode then none
  let (set, input) := leadingHyphens switches .empty input
  let (set, input) := match set.items, input with
    | [], ']' :: rest => (set.add 0, rest)
    | _, _ => (set, input)
  if set.items ≠ [] ∧ !(Atom.literal '-' false).isItem switches then none
  return (set, input)

/-- The sets that have names between colons. -/
def setNames : List String :=
  ["alnum", "alpha", "ascii", "blank", "cntrl", "digit", "graph", "lower", "print", "punct",
    "space", "upper", "word", "xdigit"]

/-- A set by its name, from behind its bracket, and whether it is negated. -/
def namedSet? (input : List Char) : Option (Bool × List Char) :=
  match input with
  | ':' :: rest =>
      let (negated, rest) := match rest with
        | '^' :: rest => (true, rest)
        | _ => (false, rest)
      let name := rest.takeWhile (· ≠ ':')
      match rest.drop name.length with
      | ':' :: ']' :: more =>
          if String.ofList name ∈ setNames then some (negated, more) else none
      | _ => none
  | _ => none

/-- How far the reading of a set has come. -/
inductive SetProgress where
  /-- Inside a set and the ones around it. -/
  | within (set : OpenSet) (around : List OpenSet)
  | done (depth : Nat)

/-- Read a part of a set. -/
def setStep (switches : Switches) (set : OpenSet) (around : List OpenSet) (input : List Char) :
    Option (SetProgress × List Char) :=
  match skip switches input with
  | '[' :: rest =>
      match namedSet? rest with
      | some (negated, rest) =>
          if if switches.unicode then switches.ignoreCase else negated then none
          else some (.within (set.add 0) around, rest)
      | none =>
          (startSet switches rest).map fun (inner, rest) => (.within inner (set :: around), rest)
  | ']' :: rest =>
      let depth := 1 + set.depth
      match around with
      | [] => some (.done depth, rest)
      | outer :: around => some (.within (outer.add depth) around, rest)
  | '&' :: '&' :: rest | '-' :: '-' :: rest | '~' :: '~' :: rest =>
      some (.within set.operate around, rest)
  | input => (setItem switches input).map fun rest => (.within (set.add 0) around, rest)

/-- Read a set to its end. -/
def setFrom (switches : Switches) (set : OpenSet) (around : List OpenSet) (input : List Char) :
    Option (Nat × List Char) :=
  match setStep switches set around input with
  | none => none
  | some (.done depth, rest) => some (depth, rest)
  | some (.within set around, rest) =>
      if rest.length < input.length then setFrom switches set around rest else none
termination_by input.length

/-- The depth of a set, from behind its bracket. -/
def readSet (switches : Switches) (input : List Char) : Option (Nat × List Char) := do
  let (set, rest) ← startSet switches input
  setFrom switches set [] rest

/-- A part of a pattern that is complete. -/
structure Piece where
  /-- Whether it can be repeated; a switch cannot. -/
  repeatable : Bool
  depth : Nat
deriving Repr, DecidableEq

/-- The parts side by side, the last one first, and the depths of the alternatives before them. -/
structure Branches where
  pieces : List Piece
  before : List Nat
deriving Repr, DecidableEq

namespace Branches

def empty : Branches :=
  ⟨[], []⟩

def add (branches : Branches) (piece : Piece) : Branches :=
  { branches with pieces := piece :: branches.pieces }

def last (branches : Branches) : Nat :=
  bundle (branches.pieces.map Piece.depth)

/-- Go on with another alternative. -/
def branch (branches : Branches) : Branches :=
  ⟨[], branches.last :: branches.before⟩

def depth (branches : Branches) : Nat :=
  bundle (branches.last :: branches.before)

end Branches

/-- A group that has been opened: what stands around it. -/
structure Frame where
  branches : Branches
  switches : Switches
deriving Repr, DecidableEq

/-- How far a pattern has been read. -/
structure Progress where
  switches : Switches
  branches : Branches
  /-- The groups that are open, the innermost first. -/
  frames : List Frame
  /-- The names of groups. -/
  names : List (List Char)
deriving Repr, DecidableEq

namespace Progress

def initial : Progress :=
  ⟨.initial, .empty, [], []⟩

def add (progress : Progress) (piece : Piece) : Progress :=
  { progress with branches := progress.branches.add piece }

/-- Open a group, in which other switches may be on. -/
def enter (progress : Progress) (switches : Switches) : Progress :=
  { progress with
    switches
    branches := .empty
    frames := ⟨progress.branches, progress.switches⟩ :: progress.frames }

/-- Close a group. -/
def leave (progress : Progress) : Option Progress :=
  match progress.frames with
  | [] => none
  | frame :: frames =>
      let piece : Piece := ⟨true, 1 + progress.branches.depth⟩
      some { progress with
        switches := frame.switches
        branches := frame.branches.add piece
        frames }

/-- Repeat the last part. -/
def repeated (progress : Progress) : Option Progress :=
  match progress.branches.pieces with
  | ⟨true, depth⟩ :: pieces =>
      some { progress with
        branches := { progress.branches with pieces := ⟨true, 1 + depth⟩ :: pieces } }
  | _ => none

end Progress

/-- Whether a text can be the name of a group. -/
def isName : List Char → Bool
  | [] => false
  | first :: rest =>
      (first = '_' || isLetter first)
        && rest.all fun c => c ∈ ['_', '.', '[', ']'] || isLetterOrDigit c

/-- A group with a name, from behind the bracket before the name. -/
def namedGroup (progress : Progress) (input : List Char) : Option (Progress × List Char) :=
  let name := input.takeWhile (· ≠ '>')
  match input.drop name.length with
  | '>' :: rest =>
      if isName name ∧ name ∉ progress.names then
        some ({ progress.enter progress.switches with names := name :: progress.names }, rest)
      else none
  | _ => none

/-- The start of a group, or a switch, from behind its parenthesis. -/
def group (progress : Progress) (input : List Char) : Option (Progress × List Char) :=
  match skip progress.switches input with
  | '?' :: '!' :: _ | '?' :: '=' :: _ | '?' :: '<' :: '!' :: _ | '?' :: '<' :: '=' :: _ => none
  | '?' :: 'P' :: '<' :: rest | '?' :: '<' :: rest => namedGroup progress rest
  | '?' :: rest =>
      match marks [] rest with
      | none | some ([], ')', _) => none
      | some (marks, close, rest) =>
          let switches := progress.switches.turn marks
          if close = ')' then some ({ progress.add ⟨false, 0⟩ with switches }, rest)
          else some (progress.enter switches, rest)
  | input => some (progress.enter progress.switches, input)

/-- A part that is no operator. -/
def single (progress : Progress) (input : List Char) : Option (Progress × List Char) := do
  let switches := progress.switches
  match input with
  | '[' :: rest =>
      let (depth, rest) ← readSet switches rest
      return (progress.add ⟨true, depth⟩, rest)
  | '.' :: rest => if switches.unicode then return (progress.add ⟨true, 0⟩, rest) else none
  | '^' :: rest | '$' :: rest => return (progress.add ⟨true, 0⟩, rest)
  | _ =>
      let (atom, rest) ← setAtom switches input
      if atom.isAllowed switches then return (progress.add ⟨true, 0⟩, rest) else none

/-- Read a part of a pattern.  Counted repetitions end with a brace, which no pattern can hold. -/
def step (progress : Progress) (input : List Char) : Option (Progress × List Char) :=
  match input with
  | '(' :: rest => group progress rest
  | ')' :: rest => progress.leave.map fun progress => (progress, rest)
  | '|' :: rest => some ({ progress with branches := progress.branches.branch }, rest)
  | '\x7b' :: _ => none
  | '?' :: rest | '*' :: rest | '+' :: rest =>
      let rest := if rest.head? = some '?' then rest.tail else rest
      progress.repeated.map fun progress => (progress, rest)
  | input => single progress input

/-- Read a pattern to its end. -/
def readFrom (progress : Progress) (input : List Char) : Option Progress :=
  match skip progress.switches input with
  | [] => some progress
  | c :: rest =>
      match step progress (c :: rest) with
      | none => none
      | some (progress, rest) =>
          if rest.length < input.length then readFrom progress rest else none
termination_by input.length

end Pattern

/-- Whether a text is a pattern. -/
def isPattern (text : List Char) : Bool :=
  match Pattern.readFrom .initial text with
  | some progress => progress.frames.isEmpty && progress.branches.depth ≤ Pattern.depthLimit
  | none => false

end PadBridge.Log
