import Mathlib.Logic.Function.Basic
import PadBridge.Layout
import PadBridge.Text.Hex

/-!
The language of the adapter's firmware, as far as a generated function uses it: comments, one
function without arguments, `memset` of the whole buffer, tests of unsigned status fields, and
bits that are set in the buffer.  A text is cut into tokens and read as instructions; only then do
names, fields and indices have to exist.
-/

namespace PadBridge.Firmware

/-- What a text is made of, apart from blanks and comments. -/
inductive Token where
  | word (text : String)
  | symbol (c : Char)
  /-- The operator `|=`, which is one token. -/
  | orAssign
deriving Repr, DecidableEq

/-- Letters, digits and the underscore, of which names and numerals are made. -/
def isWordChar (c : Char) : Bool :=
  c.isAlphanum || c = '_'

def flush : List Char → List Token
  | [] => []
  | word => [.word (String.ofList word)]

/-- The tokens of one line.  `pending` is the word that is being gathered; two slashes begin a
comment, which ends with its line. -/
def scan (pending : List Char) : List Char → List Token
  | [] => flush pending
  | '/' :: '/' :: _ => flush pending
  | '|' :: '=' :: rest => flush pending ++ .orAssign :: scan [] rest
  | c :: rest =>
      if isWordChar c then scan (pending ++ [c]) rest
      else if c = ' ' ∨ c = '\t' then flush pending ++ scan [] rest
      else flush pending ++ .symbol c :: scan [] rest

def lines : List Char → List (List Char)
  | [] => [[]]
  | c :: rest =>
      if c = '\n' then [] :: lines rest
      else
        match lines rest with
        | [] => [[c]]
        | line :: more => (c :: line) :: more

def tokens (text : List Char) : List Token :=
  (lines text).flatMap (scan [])

def digitsValue? (base : Nat) : List Char → Option Nat :=
  List.foldlM (fun value c =>
    match Text.hexDigit? c with
    | some digit => if digit < base then some (value * base + digit) else none
    | none => none) 0

/-- The value of a numeral, hexadecimal behind `0x` and decimal else.  Other numerals that begin
with a zero are octal, which is not used. -/
def numeral? (text : String) : Option Nat :=
  match text.toList with
  | [] => none
  | ['0'] => some 0
  | '0' :: 'x' :: digit :: digits => digitsValue? 16 (digit :: digits)
  | '0' :: _ => none
  | digits => digitsValue? 10 digits

structure Test where
  record : String
  field : String
  operator : Char
  operand : Nat
deriving Repr, DecidableEq

inductive Instruction where
  /-- `if (test) {` -/
  | enter (test : Test)
  /-- The brace that ends a block or the function. -/
  | leave
  /-- `memset(array, value, sizeof(measured));` -/
  | fill (array : String) (value : Nat) (measured : String)
  /-- `array[index] |= mask;` -/
  | raise (array : String) (index mask : Nat)
deriving Repr, DecidableEq

/-- The instructions of a function, from behind its opening brace. -/
def instructions : List Token → Option (List Instruction)
  | [] => some []
  | .symbol '\x7d' :: rest => do return .leave :: (← instructions rest)
  | .word "if" :: .symbol '(' :: .word record :: .symbol '.' :: .word field :: .symbol operator
      :: .word operand :: .symbol ')' :: .symbol '\x7b' :: rest => do
      return .enter ⟨record, field, operator, ← numeral? operand⟩ :: (← instructions rest)
  | .word "memset" :: .symbol '(' :: .word array :: .symbol ',' :: .word value :: .symbol ','
      :: .word "sizeof" :: .symbol '(' :: .word measured :: .symbol ')' :: .symbol ')'
      :: .symbol ';' :: rest => do
      return .fill array (← numeral? value) measured :: (← instructions rest)
  | .word array :: .symbol '[' :: .word index :: .symbol ']' :: .orAssign :: .word mask
      :: .symbol ';' :: rest => do
      return .raise array (← numeral? index) (← numeral? mask) :: (← instructions rest)
  | _ => none

/-- The two bytes that are sent to the N64. -/
abbrev Buffer := Fin 2 → UInt8

/-- The field of a record by name.  There is one record, the status of the controller. -/
def field? (status : PadStatus) (record field : String) : Option UInt8 :=
  if record = "gc_status" then
    match field with
    | "data1" => some status.data1
    | "data2" => some status.data2
    | "cstick_x" => some status.cStickX
    | "cstick_y" => some status.cStickY
    | _ => none
  else none

/-- Whether a test holds.  Fields are unsigned, so they are compared as numbers. -/
def Test.holds? (test : Test) (status : PadStatus) : Option Bool := do
  let value ← field? status test.record test.field
  match test.operator with
  | '&' => some (value.toNat &&& test.operand != 0)
  | '>' => some (test.operand < value.toNat)
  | '<' => some (value.toNat < test.operand)
  | _ => none

/-- Set the bits of a mask in one byte; what exceeds the byte is lost. -/
def Buffer.raise (buffer : Buffer) (index : Fin 2) (mask : Nat) : Buffer :=
  Function.update buffer index (UInt8.ofNat ((buffer index).toNat ||| mask))

/-- Execute instructions to the end of the function.  `blocks` tells of every open block, the
innermost first, whether its test held; outside of all blocks a closing brace ends the function, and
nothing may follow it. -/
def execute (status : PadStatus) (blocks : List Bool) :
    List Instruction → Buffer → Option Buffer
  | [], _ => none
  | .leave :: rest, buffer =>
      match blocks with
      | [] => if rest = [] then some buffer else none
      | _ :: outer => execute status outer rest buffer
  | .enter test :: rest, buffer => do
      execute status ((← test.holds? status) :: blocks) rest buffer
  | .fill array value measured :: rest, buffer =>
      if array = "n64_buffer" ∧ measured = array then
        execute status blocks rest (if blocks.all id then fun _ => UInt8.ofNat value else buffer)
      else none
  | .raise array index mask :: rest, buffer =>
      if h : array = "n64_buffer" ∧ index < 2 then
        execute status blocks rest
          (if blocks.all id then buffer.raise ⟨index, h.2⟩ mask else buffer)
      else none

def call (text : String) (status : PadStatus) (buffer : Buffer) : Option Buffer :=
  match tokens text.toList with
  | .word "void" :: .word "mapGamecubeToN64" :: .symbol '(' :: .symbol ')' :: .symbol '\x7b'
      :: body => do execute status [] (← instructions body) buffer
  | _ => none

end PadBridge.Firmware
