import PadBridge.Decimal
import PadBridge.Text.Quoted

/-!
What can be wrong with a JSON text, and where.  A reader that gives up says how many bytes it has
left unread; only against the whole text does that become a line and a column.
-/

namespace PadBridge.Json

/-- A value that stands where another kind of value is due. -/
inductive Found where
  | null
  | boolean (value : Bool)
  | integer (value : Int)
  | number (value : Float)
  | text (value : String)
  | sequence
  | map

/-- The kind of value that is due. -/
inductive Wanted where
  | map
  | text
deriving Repr, DecidableEq

/-- Why a text is not read. -/
inductive Cause where
  | endInValue
  | endInObject
  | endInText
  | mismatch (found : Found) (wanted : Wanted)
  | literalExpected
  | valueExpected
  | keyExpected
  | trailingComma
  | colonExpected
  | commaOrEndExpected
  | trailingCharacters
  | invalidNumber
  | numberOutOfRange
  | controlCharacter
  | invalidEscape
  | loneSurrogate
  | brokenSurrogatePair
  | invalidUnicode

/-- Numbers are written out in full while their leading digit stands for `10 ^ -5` to `10 ^ 15`. -/
def numberStyle : Decimal.Style :=
  { positional := fun magnitude => -5 ≤ magnitude && magnitude ≤ 15
    halfway := .even }

namespace Found

def describe : Found → String
  | .null => "null"
  | .boolean value => "boolean `" ++ toString value ++ "`"
  | .integer value => "integer `" ++ toString value ++ "`"
  | .number value => "floating point `" ++ numberStyle.text value ++ "`"
  | .text value => "string " ++ Text.quoted value
  | .sequence => "sequence"
  | .map => "map"

end Found

def Wanted.describe : Wanted → String
  | .map => "a map"
  | .text => "a string"

def Cause.message : Cause → String
  | .endInValue => "EOF while parsing a value"
  | .endInObject => "EOF while parsing an object"
  | .endInText => "EOF while parsing a string"
  | .mismatch found wanted =>
      "invalid type: " ++ found.describe ++ ", expected " ++ wanted.describe
  | .literalExpected => "expected ident"
  | .valueExpected => "expected value"
  | .keyExpected => "key must be a string"
  | .trailingComma => "trailing comma"
  | .colonExpected => "expected `:`"
  | .commaOrEndExpected => "expected `,` or `\x7d`"
  | .trailingCharacters => "trailing characters"
  | .invalidNumber => "invalid number"
  | .numberOutOfRange => "number out of range"
  | .controlCharacter =>
      "control character (\\u0000-\\u001F) found while parsing a string"
  | .invalidEscape => "invalid escape"
  | .loneSurrogate => "lone leading surrogate in hex escape"
  | .brokenSurrogatePair => "unexpected end of hex escape"
  | .invalidUnicode => "invalid unicode code point"

/-- A cause, with how many bytes were left unread and how far the column lies before that. -/
structure Fault where
  cause : Cause
  unread : Nat
  back : Nat := 0

/-- A fault at the byte in front of `rest`. -/
def Fault.before (cause : Cause) (rest : List UInt8) : Fault :=
  { cause, unread := rest.length }

/-- A fault at the first byte of `rest`, which counts as read; at the end there is none. -/
def Fault.at (cause : Cause) (rest : List UInt8) : Fault :=
  { cause, unread := rest.length - 1 }

/-- A place in a text: lines count from one, and the column is the number of bytes since the last
line end. -/
structure Position where
  line : Nat
  column : Nat
deriving Repr, DecidableEq

/-- The place behind some bytes. -/
def Position.after (bytes : List UInt8) : Position where
  line := 1 + bytes.count 0x0A
  column := (bytes.reverse.takeWhile (· != 0x0A)).length

/-- A cause at its place in the text. -/
structure Error where
  cause : Cause
  position : Position

def Fault.locate (fault : Fault) (input : List UInt8) : Error :=
  let position := Position.after (input.take (input.length - fault.unread))
  { cause := fault.cause
    position := { position with column := position.column - fault.back } }

def Error.message (error : Error) : String :=
  error.cause.message ++ " at line " ++ toString error.position.line ++ " column "
    ++ toString error.position.column

end PadBridge.Json
