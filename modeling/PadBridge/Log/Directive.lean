import PadBridge.Log.Level
import PadBridge.Log.Pattern

/-!
The directives of a log filter: a level, or a target, or a target with a level, and behind a target
brackets that name a span and a field.  Blanks around a directive are passed over when its parts are
looked for, but its parts are then cut from the whole text at the byte positions found without the
blanks, so that blanks in front shift every part; a cut inside a character is a fault of its own.
-/

namespace PadBridge.Log

open Text (isLetterOrDigit trim)

/-- A field that a directive asks for. -/
structure Field where
  name : List Char
  /-- Whether it also has to have a certain value. -/
  isValued : Bool
deriving Repr, DecidableEq

structure Directive where
  /-- What a target has to start with. -/
  target : Option (List Char)
  /-- Whether it is about a span only. -/
  inSpan : Bool
  field : Option Field
  level : Level
deriving Repr, DecidableEq

/-- Why a directive is not read. -/
inductive Misreading where
  | malformed
  /-- A part begins or ends inside a character. -/
  | miscut
deriving Repr, DecidableEq

namespace Directive

/-- Split a text behind a number of bytes. -/
def splitBytes : Nat → List Char → Except Misreading (List Char × List Char)
  | 0, text => .ok ([], text)
  | _ + 1, [] => .error .miscut
  | count + 1, c :: rest =>
      if c.utf8Size ≤ count + 1 then do
        let (front, back) ← splitBytes (count + 1 - c.utf8Size) rest
        return (c :: front, back)
      else .error .miscut

/-- The text behind a byte position. -/
def cutFrom (text : List Char) (first : Nat) : Except Misreading (List Char) := do
  return (← splitBytes first text).2

/-- The text between two byte positions. -/
def cut (text : List Char) (first last : Nat) : Except Misreading (List Char) := do
  cutFrom (← splitBytes last text).1 first

/-- Digits, and what follows them. -/
def spanDigits (text : List Char) : List Char × List Char :=
  text.span Char.isDigit

/-- Whether a text is a power of ten behind a number, or nothing. -/
def isExponent : List Char → Bool
  | [] => true
  | mark :: rest =>
      let digits := match rest with
        | '+' :: digits | '-' :: digits => digits
        | digits => digits
      (mark = 'e' || mark = 'E') && !digits.isEmpty && digits.all Char.isDigit

/-- Whether a text is a number, behind an optional sign. -/
def isNumber (text : List Char) : Bool :=
  let text := match text with
    | '+' :: rest | '-' :: rest => rest
    | rest => rest
  let (whole, rest) := spanDigits text
  let (fraction, rest) := match rest with
    | '.' :: rest => spanDigits rest
    | rest => ([], rest)
  String.ofList (text.map Char.toLower) ∈ ["inf", "infinity", "nan"]
    || (!(whole ++ fraction).isEmpty && isExponent rest)

/-- Read a field: a name, and behind an equals sign a number or a pattern for its value.  What
stands behind a second equals sign does not count. -/
def readField (text : List Char) : Except Misreading Field :=
  let (name, rest) := text.span (· ≠ '=')
  match rest with
  | [] => if text = [] then .error .malformed else .ok ⟨name, false⟩
  | _ :: rest =>
      let value := rest.takeWhile (· ≠ '=')
      if isNumber value || isPattern value then .ok ⟨name, true⟩ else .error .malformed

/-- Which part of a directive is being read, and at which byte it begins. -/
inductive Part where
  | start
  /-- A level or a target. -/
  | word (first : Nat)
  | span (first : Nat)
  | field (first : Nat)
  /-- What may follow a field. -/
  | fieldEnd
  /-- What may follow the brackets. -/
  | bracketEnd
  | level (first : Nat)
deriving Repr, DecidableEq

/-- How far a directive has been read. -/
structure Progress where
  directive : Directive
  part : Part
  /-- The bytes that have been passed. -/
  position : Nat
deriving Repr, DecidableEq

def Progress.start : Progress :=
  ⟨⟨none, false, none, .trace⟩, .start, 0⟩

/-- Whether a target or a level can start with a character. -/
def startsWord (c : Char) : Bool :=
  c = '-' || c = ':' || c = '_' || isLetterOrDigit c

/-- Take one character; `text` is the whole text. -/
def take (text : List Char) (progress : Progress) (c : Char) : Except Misreading Progress := do
  let here := progress.position
  let directive := progress.directive
  let next := here + c.utf8Size
  let stay : Progress := { progress with position := next }
  match progress.part with
  | .start =>
      if c = '[' then return { stay with part := .span next }
      else if startsWord c then return { stay with part := .word here }
      else throw .malformed
  | .word first =>
      if c = '=' then
        return ⟨{ directive with target := ← cut text first here }, .level next, next⟩
      else if c = '[' then
        return ⟨{ directive with target := ← cut text first here }, .span next, next⟩
      else return stay
  | .span first =>
      if c = ']' then
        let _ ← cut text first here
        return ⟨{ directive with inSpan := true }, .bracketEnd, next⟩
      else if c = '\x7b' then
        let name ← cut text first here
        return ⟨{ directive with inSpan := !name.isEmpty }, .field next, next⟩
      else return stay
  | .field first =>
      if c = '\x7d' then
        let field ← readField (← cut text first here)
        return ⟨{ directive with field }, .fieldEnd, next⟩
      else return stay
  | .fieldEnd => if c = ']' then return { stay with part := .bracketEnd } else throw .malformed
  | .bracketEnd =>
      if c = '=' then return { stay with part := .level next } else throw .malformed
  | .level _ => return stay

/-- The directive that has been read when the text ends. -/
def finish (text : List Char) (progress : Progress) : Except Misreading Directive := do
  let directive := progress.directive
  match progress.part with
  | .word first =>
      let word ← cutFrom text first
      match Level.ofText? word with
      | some level => return { directive with level }
      | none => return { directive with target := word }
  | .level first =>
      let word ← cutFrom text first
      if word = [] then return directive
      else
        match Level.ofText? word with
        | some level => return { directive with level }
        | none => throw .malformed
  | .bracketEnd => return directive
  | .start | .span _ | .field _ | .fieldEnd => throw .malformed

def read (text : List Char) : Except Misreading Directive := do
  finish text (← (trim text).foldlM (take text) .start)

/-- Whether records that lie in no span can follow a directive: one that asks for a span or for a
value is only about what lies in spans. -/
def isAboutRecords (directive : Directive) : Bool :=
  !directive.inSpan && !directive.field.any Field.isValued

/-- The one field of every record here. -/
def messageField : String := "message"

def covers (directive : Directive) (target : String) : Bool :=
  (match directive.target with
    | none => true
    | some start => start.isPrefixOf target.toList)
    && directive.field.all fun field => field.name = messageField.toList

/-- How specific a directive is: longer targets first, then those that name a field. -/
def weight (directive : Directive) : Nat :=
  let field := if directive.field.isSome then 1 else 0
  match directive.target with
  | none => field
  | some start => 2 * (start.length + 1) + field

end Directive

end PadBridge.Log
