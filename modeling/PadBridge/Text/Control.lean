/-!
Control sequences, with which a text can steer a terminal, and the text without them.  A sequence
begins with an escape character; what follows decides how long it is.  Also left out are the
controls that stand alone, apart from those that are whitespace.
-/

namespace PadBridge.Text

/-- What kind of sequence has been begun. -/
inductive Sequence where
  /-- None. -/
  | none
  | escape
  /-- An escape that one more character ends. -/
  | selection
  /-- Numbers and a letter behind an opening bracket. -/
  | command
  /-- The numbers in front of the string of a device. -/
  | device
  | deviceNumbers
  | deviceTail
  /-- A string that a terminator of one byte can end. -/
  | string
  /-- A string that the bell can end. -/
  | title
deriving Repr, DecidableEq

namespace Sequence

def isWide (c : Char) : Bool :=
  0x80 ≤ c.toNat

/-- Whether one of the bytes of a character is the one that ends a string. -/
def holdsTerminator (c : Char) : Bool :=
  (String.utf8EncodeChar c).contains 0x9C

/-- Whether a character from the space to the slash, which leads on in a sequence. -/
def isLeader (c : Char) : Bool :=
  ' ' ≤ c && c ≤ '/'

/-- Whether a digit or one of the marks behind the digits. -/
def isParameter (c : Char) : Bool :=
  '0' ≤ c && c ≤ '?'

/-- Whether a character that ends a command. -/
def isFinal (c : Char) : Bool :=
  '@' ≤ c && c ≤ '~'

/-- What is begun behind an escape character. -/
def begin (c : Char) : Sequence :=
  if c = '[' then .command
  else if c = ']' then .title
  else if c = 'P' then .device
  else if c = 'X' ∨ c = '^' ∨ c = '_' then .string
  else if isLeader c then .selection
  else if isParameter c || isFinal c then .none
  else .escape

/-- How a sequence goes on with a character that is not shown. -/
def next (sequence : Sequence) (c : Char) : Sequence :=
  if c = '\x1B' then .escape
  else if c = '\x18' ∨ c = '\x1A' then .none
  else
    match sequence with
    | .none => .none
    | .escape => begin c
    | .selection => if isParameter c || isFinal c then .none else .selection
    | .command => if isFinal c then .none else .command
    | .device =>
        if isFinal c then .string
        else if isLeader c then .deviceTail
        else if isParameter c then .deviceNumbers
        else .device
    | .deviceNumbers =>
        if isFinal c || ('<' ≤ c && c ≤ '?') then .string
        else if isLeader c then .deviceTail
        else .deviceNumbers
    | .deviceTail => if isFinal c || isParameter c then .string else .deviceTail
    | .string => if holdsTerminator c then .none else .string
    | .title => if c = '\x07' then .none else .title

end Sequence

/-- The controls that are whitespace. -/
def isLayout (c : Char) : Bool :=
  c = '\t' || c = '\n' || c = '\x0C' || c = '\r'

/-- Whether a character outside of sequences is shown. -/
def isPlain (c : Char) : Bool :=
  (0x20 ≤ c.toNat && c ≠ '\x7F') || isLayout c

/-- Whether whitespace in a sequence is shown, and all that follows it up to the next control. -/
def Sequence.yields : Sequence → Bool
  | .escape | .selection | .command => true
  | _ => false

/-- The characters that are shown; `showing` tells whether the one before was. -/
def plainFrom (showing : Bool) (sequence : Sequence) : List Char → List Char
  | [] => []
  | c :: rest =>
      if isPlain c && (showing || sequence = .none || (sequence.yields && isLayout c)) then
        c :: plainFrom true (if Sequence.isWide c then .none else sequence) rest
      else plainFrom false (sequence.next c) rest

/-- A text without control sequences. -/
def plain (text : String) : String :=
  String.ofList (plainFrom false .none text.toList)

/-- A text that is composed of pieces in different styles.  A change of style ends the sequence that
a piece has left open. -/
def plainPieces (pieces : List String) : String :=
  String.join (pieces.map plain)


end PadBridge.Text
