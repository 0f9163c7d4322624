import PadBridge.Json.Number
import PadBridge.Json.Text

/-!
Reading the one kind of JSON text that is a mapping document: an object all of whose members are
strings.  Members are read one by one, so of several faults the first in reading order counts.
-/

namespace PadBridge.Json

def openBrace : UInt8 := 0x7B
def closeBrace : UInt8 := 0x7D
def openBracket : UInt8 := 0x5B
def colon : UInt8 := 0x3A
def comma : UInt8 := 0x2C

/-- Space, tab and the two line ends. -/
def isBlank (byte : UInt8) : Bool :=
  byte = 0x20 || byte = 0x09 || byte = 0x0A || byte = 0x0D

def skipBlank (input : List UInt8) : List UInt8 :=
  input.dropWhile isBlank

theorem length_skipBlank (input : List UInt8) : (skipBlank input).length ≤ input.length :=
  (List.dropWhile_suffix isBlank).length_le

/-- The rest of a literal, byte by byte. -/
def literal : List UInt8 → List UInt8 → Except Fault (List UInt8)
  | [], input => .ok input
  | _ :: _, [] => .error (.at .endInValue [])
  | expected :: more, byte :: rest =>
      if byte = expected then literal more rest else .error (.before .literalExpected rest)

/-- The fault of a literal that stands where another kind of value is due. -/
def misplacedLiteral (wanted : Wanted) (found : Found) (rest input : List UInt8) : Fault :=
  match literal rest input with
  | .ok left => .before (.mismatch found wanted) left
  | .error fault => fault

/-- The fault of a number that stands where another kind of value is due. -/
def misplacedNumber (wanted : Wanted) (negative : Bool) (input : List UInt8) : Fault :=
  match number negative input with
  | .ok (found, rest) => .before (.mismatch found wanted) rest
  | .error fault => fault

/-- The fault of a string that stands where another kind of value is due. -/
def misplacedText (wanted : Wanted) (input : List UInt8) : Fault :=
  match text input with
  | .ok (value, rest) => .before (.mismatch (.text value) wanted) rest
  | .error fault => fault

/-- What is wrong with a value that is not of the wanted kind.  A fault inside the value comes
first; sequences and objects are not looked into. -/
def misplaced (wanted : Wanted) (lead : UInt8) (rest : List UInt8) : Fault :=
  if lead = quote then misplacedText wanted rest
  else if lead = openBracket then .before (.mismatch .sequence wanted) (lead :: rest)
  else if lead = openBrace then .before (.mismatch .map wanted) (lead :: rest)
  else if lead = 0x2D then misplacedNumber wanted true rest
  else if (decimalDigit? lead).isSome then misplacedNumber wanted false (lead :: rest)
  else if lead = 0x6E then misplacedLiteral wanted .null [0x75, 0x6C, 0x6C] rest
  else if lead = 0x74 then misplacedLiteral wanted (.boolean true) [0x72, 0x75, 0x65] rest
  else if lead = 0x66 then
    misplacedLiteral wanted (.boolean false) [0x61, 0x6C, 0x73, 0x65] rest
  else .at .valueExpected (lead :: rest)

/-- The value of a member. -/
def memberValue (input : List UInt8) : Except Fault (String × List UInt8) :=
  match skipBlank input with
  | [] => .error (.at .endInValue [])
  | lead :: rest =>
      if lead = quote then text rest else .error (misplaced .text lead rest)

/-- The colon and the value of a member, from behind its key. -/
def memberAfterKey (key : String) (input : List UInt8) :
    Except Fault ((String × String) × List UInt8) :=
  match skipBlank input with
  | [] => .error (.at .endInObject [])
  | byte :: rest =>
      if byte = colon then
        (memberValue rest).map fun (value, after) => ((key, value), after)
      else .error (.at .colonExpected (byte :: rest))

/-- A member, from behind the quote that opens its key. -/
def member (input : List UInt8) : Except Fault ((String × String) × List UInt8) :=
  match text input with
  | .error fault => .error fault
  | .ok (key, rest) => memberAfterKey key rest

theorem length_memberValue {input rest : List UInt8} {value : String}
    (h : memberValue input = .ok (value, rest)) : rest.length < input.length := by
  unfold memberValue at h
  split at h
  · cases h
  · rename_i lead more hblank
    have hskip := length_skipBlank input
    rw [hblank, List.length_cons] at hskip
    split at h
    · exact Nat.lt_of_lt_of_le (length_text h) (by omega)
    · cases h

theorem length_memberAfterKey {input rest : List UInt8} {key : String}
    {entry : String × String} (h : memberAfterKey key input = .ok (entry, rest)) :
    rest.length < input.length := by
  unfold memberAfterKey at h
  split at h
  · cases h
  · rename_i byte more hblank
    have hskip := length_skipBlank input
    rw [hblank, List.length_cons] at hskip
    split at h
    · cases hvalue : memberValue more with
      | error fault => rw [hvalue] at h; cases h
      | ok pair =>
          rw [hvalue] at h
          cases h
          have hlength := length_memberValue hvalue
          omega
    · cases h

/-- A member takes at least one byte. -/
theorem length_member {input rest : List UInt8} {entry : String × String}
    (h : member input = .ok (entry, rest)) : rest.length < input.length := by
  unfold member at h
  split at h
  · cases h
  · rename_i hkey
    exact Nat.lt_trans (length_memberAfterKey h) (length_text hkey)

/-- The members that follow another one, up to the closing brace. -/
def laterMembers (input : List UInt8) :
    Except Fault (List (String × String) × List UInt8) :=
  match _hblank : skipBlank input with
  | [] => .error (.at .endInObject [])
  | byte :: rest =>
      if byte = closeBrace then .ok ([], rest)
      else if byte ≠ comma then .error (.at .commaOrEndExpected (byte :: rest))
      else
        match _hkey : skipBlank rest with
        | [] => .error (.at .endInValue [])
        | lead :: more =>
            if lead = quote then
              match _hmember : member more with
              | .error fault => .error fault
              | .ok (entry, after) =>
                  (laterMembers after).map fun (entries, last) => (entry :: entries, last)
            else if lead = closeBrace then .error (.at .trailingComma (lead :: more))
            else .error (.at .keyExpected (lead :: more))
termination_by input.length
decreasing_by
  have hinput := length_skipBlank input
  have hrest := length_skipBlank rest
  have hmember := length_member _hmember
  rw [_hblank, List.length_cons] at hinput
  rw [_hkey, List.length_cons] at hrest
  omega

/-- The members of an object, from behind its opening brace. -/
def members (input : List UInt8) : Except Fault (List (String × String) × List UInt8) :=
  match skipBlank input with
  | [] => .error (.at .endInObject [])
  | lead :: rest =>
      if lead = closeBrace then .ok ([], rest)
      else if lead = quote then
        match member rest with
        | .error fault => .error fault
        | .ok (entry, after) =>
            (laterMembers after).map fun (entries, last) => (entry :: entries, last)
      else .error (.at .keyExpected (lead :: rest))

/-- Nothing but blanks may follow the object. -/
def checkEnd (input : List UInt8) : Except Fault Unit :=
  match skipBlank input with
  | [] => .ok ()
  | byte :: rest => .error (.at .trailingCharacters (byte :: rest))

/-- The members of an object that is the whole text. -/
def wholeObject (input : List UInt8) : Except Fault (List (String × String)) :=
  match skipBlank input with
  | [] => .error (.at .endInValue [])
  | lead :: rest =>
      if lead = openBrace then
        match members rest with
        | .error fault => .error fault
        | .ok (entries, after) => (checkEnd after).map fun _ => entries
      else .error (misplaced .map lead rest)

/-- The members of an object of strings, in order and with repetitions. -/
def readObject (input : List UInt8) : Except Error (List (String × String)) :=
  (wholeObject input).mapError (·.locate input)

end PadBridge.Json
