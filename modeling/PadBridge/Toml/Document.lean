import PadBridge.Toml.Number
import PadBridge.Toml.Text
import PadBridge.Toml.Value

/-!
Reading a TOML document: first its lines, then the tree they describe.
-/

namespace PadBridge.Toml

/-- Arrays and inline tables nest less deep than this, and a dotted key has fewer parts. -/
def depthLimit : Nat := 80

/-- One part of a key between its blanks, and whether a dot follows. -/
def dottedPart : Scanner (String × Bool) := do
  skipBlank
  let part ← keyPart
  skipBlank
  return (part, ← Scanner.accept ".")

/-- A key with its dots. -/
def key : Scanner Key := do
  let parts ← Scanner.chain dottedPart
  Scanner.require (parts.length < depthLimit)
  match parts.getLast? with
  | some last => return ⟨parts.dropLast, last⟩
  | none => Scanner.refuse .malformed

/-- A number, a date or a time. -/
def numeralOrMoment : Scanner Value := do
  let input ← get
  if dateStarts input then
    dateAndTime
    return .moment
  else if timeStarts input then
    time
    return .moment
  else
    match ← numeral with
    | .integer value => return .integer value
    | .number value => return .number value

/-- A value that holds no others. -/
def scalar : Scanner Value := do
  match ← Scanner.front with
  | some '"' | some '\'' => return .text (← text)
  | some 't' =>
      Scanner.exact "true"
      return .boolean true
  | some 'f' =>
      Scanner.exact "false"
      return .boolean false
  | _ => numeralOrMoment

/-- Blanks, and the line end behind them if there is one; then there may be more. -/
def skippedLine : Scanner (Unit × Bool) := do
  skipBlank
  match ← Scanner.front with
  | some '#' =>
      let _ ← Scanner.run isCommentChar
      newline
      return ((), true)
  | some '\n' | some '\r' =>
      newline
      return ((), true)
  | _ => return ((), false)

/-- Passes blanks, line ends and comments. -/
def skipLines : Scanner Unit := do
  let _ ← Scanner.chain skippedLine

/-- An item of an array, and whether another one follows.  A comma may follow the last one. -/
def arrayItem (item : Scanner Value) : Scanner (Value × Bool) := do
  let value ← item
  skipLines
  if ← Scanner.accept "," then
    skipLines.blaming .brokenLine
    return (value, !(← Scanner.accept "]"))
  else
    Scanner.exact "]"
    return (value, false)

/-- The items of an array, from behind its bracket. -/
def arrayItems (item : Scanner Value) : Scanner (List Value) := do
  skipLines.blaming .brokenLine
  if ← Scanner.accept "]" then return []
  Scanner.chain (arrayItem item)

/-- A key and its value. -/
def pair (item : Scanner Value) : Scanner (Key × Value) := do
  let key ← key
  Scanner.exact "="
  skipBlank
  if (← Scanner.front).isNone then Scanner.refuse .valueMissing
  return (key, ← item)

/-- A pair of an inline table, and whether another one follows. -/
def inlinePair (item : Scanner Value) : Scanner ((Key × Value) × Bool) := do
  let entry ← pair item
  skipBlank
  if ← Scanner.accept "," then return (entry, true)
  else
    Scanner.exact "\x7d"
    return (entry, false)

/-- The pairs of an inline table, from behind its brace. -/
def inlinePairs (item : Scanner Value) : Scanner (List (Key × Value)) := do
  skipBlank
  if ← Scanner.accept "\x7d" then return []
  Scanner.chain (inlinePair item)

/-- A value in which others nest up to `depth` deep. -/
def value : Nat → Scanner Value
  | 0 => scalar
  | depth + 1 => do
      if ← Scanner.accept "[" then return .array (← arrayItems (value depth))
      else if ← Scanner.accept "\x7b" then
        match inlineTable? (← inlinePairs (value depth)) with
        | some table => return table
        | none => Scanner.refuse .malformed
      else scalar

/-- A header, from behind its first bracket. -/
def header : Scanner Statement := do
  if ← Scanner.accept "[" then
    let key ← key
    Scanner.exact "]]"
    return .nextHeader key
  else
    let key ← key
    Scanner.exact "]"
    return .header key

/-- What a line says, if anything. -/
def statement : Scanner (Option Statement) := do
  skipBlank
  match ← Scanner.front with
  | none | some '#' | some '\n' | some '\r' => return none
  | some '[' =>
      Scanner.exact "["
      return some (← header)
  | some _ =>
      let (key, value) ← pair (value (depthLimit - 1))
      return some (.entry key value)

/-- A line, and whether another one follows. -/
def line : Scanner (Option Statement × Bool) := do
  match ← statement with
  | some found =>
      endOfLine
      return (some found, (← Scanner.front).isSome)
  | none =>
      endOfLine.blaming .brokenLine
      return (none, (← Scanner.front).isSome)

/-- The lines of a text up to the first one that is none, and its fault. -/
def linesFrom (input : List Char) : List Statement × Option Fault :=
  match line input with
  | .error fault => ([], some fault)
  | .ok ((found, more), rest) =>
      if more then
        if _hshorter : rest.length < input.length then
          let (later, fault) := linesFrom rest
          (found.toList ++ later, fault)
        else ([], some .malformed)
      else (found.toList, none)
termination_by input.length

/-- A mark at the start of a text that says nothing but how it is encoded. -/
def skipByteOrderMark : List Char → List Char
  | '\uFEFF' :: rest => rest
  | input => input

/-- The top level entries of a document.  A line that contradicts the lines before it counts before
a fault in a later line. -/
def parse (input : List Char) : Except Fault Entries :=
  let (statements, fault) := linesFrom (skipByteOrderMark input)
  match Entries.ofStatements? statements, fault with
  | none, _ => .error .malformed
  | some _, some fault => .error fault
  | some entries, none => .ok entries

end PadBridge.Toml
