/-!
Scanners look at the front of a text: they give a value and what follows it, or refuse the text.
A text that any of them refuses is no TOML document, so there is nothing to say about where.
-/

namespace PadBridge.Toml

/-- Why a text is no TOML document. -/
inductive Fault where
  /-- The text ends where a value is due. -/
  | valueMissing
  /-- A line without content, or a comment, holds what no line can hold. -/
  | brokenLine
  | malformed
deriving Repr, DecidableEq

/-- What is said about a fault.  About two of them there is nothing to say. -/
def Fault.explanation : Fault → String
  | .valueMissing | .brokenLine => ""
  | .malformed => "malformed document"

abbrev Scanner (α : Type) := StateT (List Char) (Except Fault) α

namespace Scanner

def ofFunction {α : Type} (scan : List Char → Option (α × List Char)) : Scanner α :=
  fun input =>
    match scan input with
    | some found => .ok found
    | none => .error .malformed

def refuse {α : Type} (fault : Fault) : Scanner α :=
  fun _ => .error fault

/-- Refuse the text unless a condition holds. -/
def require (condition : Prop) [Decidable condition] : Scanner Unit :=
  if condition then pure () else refuse .malformed

/-- Scan with another fault in place of the one that is found. -/
def blaming {α : Type} (fault : Fault) (scanner : Scanner α) : Scanner α :=
  fun input => (scanner input).mapError fun _ => fault

/-- The character at the front, which stays. -/
def front : Scanner (Option Char) :=
  ofFunction fun input => some (input.head?, input)

/-- One character of a class. -/
def one (accepts : Char → Bool) : Scanner Char :=
  ofFunction fun
    | [] => none
    | c :: rest => if accepts c then some (c, rest) else none

/-- The longest run of characters of a class, which may be empty. -/
def run (accepts : Char → Bool) : Scanner (List Char) :=
  ofFunction fun input => some (input.takeWhile accepts, input.dropWhile accepts)

/-- The characters of `text`. -/
def exact (text : String) : Scanner Unit :=
  ofFunction fun input =>
    if text.toList.isPrefixOf input then some ((), input.drop text.length) else none

/-- Whether `text` stands at the front; then it is passed. -/
def accept (text : String) : Scanner Bool :=
  ofFunction fun input =>
    if text.toList.isPrefixOf input then some (true, input.drop text.length)
    else some (false, input)

/-- Pass what stands at the front and means nothing. -/
def pass (rest : List Char → List Char) : Scanner Unit :=
  ofFunction fun input => some ((), rest input)

/-- Items one after the other, as long as each says that another one follows.  An item that takes
nothing is refused. -/
def chainFrom {α : Type} (item : Scanner (α × Bool)) (input : List Char) :
    Except Fault (List α × List Char) :=
  match item input with
  | .error fault => .error fault
  | .ok ((value, more), rest) =>
      if more then
        if _hshorter : rest.length < input.length then
          (chainFrom item rest).map fun (values, last) => (value :: values, last)
        else .error .malformed
      else .ok ([value], rest)
termination_by input.length

def chain {α : Type} (item : Scanner (α × Bool)) : Scanner (List α) :=
  chainFrom item

end Scanner

/-- Spaces and tabs. -/
def isBlank (c : Char) : Bool :=
  c = ' ' || c = '\t'

def skipBlank : Scanner Unit :=
  .pass (·.dropWhile isBlank)

/-- What follows a line end. -/
def afterNewline? : List Char → Option (List Char)
  | '\n' :: rest => some rest
  | '\r' :: '\n' :: rest => some rest
  | _ => none

def newline : Scanner Unit :=
  .ofFunction fun input => (afterNewline? input).map fun rest => ((), rest)

/-- What may stand in a comment: anything but controls, and the tab. -/
def isCommentChar (c : Char) : Bool :=
  c = '\t' || (0x20 ≤ c.toNat && c.toNat ≠ 0x7F)

/-- A line end, or the end of the text. -/
def lineEnd : Scanner Unit := do
  match ← Scanner.front with
  | none => return
  | some _ => newline

/-- The rest of a line that holds nothing but a comment. -/
def endOfLine : Scanner Unit := do
  skipBlank
  if (← Scanner.front) = some '#' then
    let _ ← Scanner.run isCommentChar
  lineEnd

end PadBridge.Toml
