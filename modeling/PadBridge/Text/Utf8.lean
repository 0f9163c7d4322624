/-!
UTF-8.  A byte string is looked at from its front, which either is a whole character or is broken:
then the longest piece that could still have begun a character is set aside.  Reading, measuring
the readable front and replacing what cannot be read are three folds over that one view.
-/

namespace PadBridge.Utf8

/-- The bytes of a text. -/
def encode (text : List Char) : List UInt8 :=
  text.flatMap String.utf8EncodeChar

def bytesOf (text : String) : List UInt8 :=
  encode text.toList

/-- Whether a byte can continue a character. -/
def isContinuation (byte : UInt8) : Bool :=
  0x80 ≤ byte && byte ≤ 0xBF

/-- How many bytes follow a leading byte, and in which range the first of them has to lie.  The
ranges leave out overlong forms, surrogates and values beyond the last scalar value. -/
def follow? (lead : UInt8) : Option (Nat × UInt8 × UInt8) :=
  if 0xC2 ≤ lead && lead ≤ 0xDF then some (1, 0x80, 0xBF)
  else if lead = 0xE0 then some (2, 0xA0, 0xBF)
  else if lead = 0xED then some (2, 0x80, 0x9F)
  else if 0xE1 ≤ lead && lead ≤ 0xEF then some (2, 0x80, 0xBF)
  else if lead = 0xF0 then some (3, 0x90, 0xBF)
  else if 0xF1 ≤ lead && lead ≤ 0xF3 then some (3, 0x80, 0xBF)
  else if lead = 0xF4 then some (3, 0x80, 0x8F)
  else none

/-- The front of a byte string: a character, or a piece that is none. -/
inductive Front where
  | char (c : Char) (rest : List UInt8)
  | broken (rest : List UInt8)

def Front.rest : Front → List UInt8
  | .char _ rest => rest
  | .broken rest => rest

/-- Six more bits of a value. -/
def extend (value : Nat) (byte : UInt8) : Nat :=
  value * 64 + byte.toNat % 64

/-- Read the continuation bytes of a character whose leading bits are `value`. -/
def continued : Nat → Nat → List UInt8 → Front
  | 0, value, rest => .char (Char.ofNat value) rest
  | _ + 1, _, [] => .broken []
  | count + 1, value, byte :: rest =>
      if isContinuation byte then continued count (extend value byte) rest
      else .broken (byte :: rest)

/-- The front of `lead :: rest`. -/
def front (lead : UInt8) (rest : List UInt8) : Front :=
  if lead < 0x80 then .char (Char.ofNat lead.toNat) rest
  else
    match follow? lead, rest with
    | some (count, low, high), second :: more =>
        if low ≤ second && second ≤ high then
          continued (count - 1) (extend (lead.toNat % Nat.pow 2 (6 - count)) second) more
        else .broken rest
    | _, _ => .broken rest

theorem length_rest_continued (count value : Nat) (bytes : List UInt8) :
    (continued count value bytes).rest.length ≤ bytes.length := by
  induction bytes generalizing count value with
  | nil => cases count <;> simp [continued, Front.rest]
  | cons byte rest ih =>
      cases count with
      | zero => simp [continued, Front.rest]
      | succ count =>
          by_cases hnext : isContinuation byte
          · simpa [continued, hnext] using Nat.le_succ_of_le (ih count (extend value byte))
          · simp [continued, hnext, Front.rest]

/-- The front takes at least the leading byte. -/
theorem length_rest_front (lead : UInt8) (rest : List UInt8) :
    (front lead rest).rest.length ≤ rest.length := by
  unfold front
  split
  · simp [Front.rest]
  · split
    · rename_i count low high second more _
      split
      · exact Nat.le_succ_of_le (length_rest_continued _ _ more)
      · simp [Front.rest]
    · simp [Front.rest]

/-- The text of a byte string, if all of it can be read. -/
def decode? : List UInt8 → Option (List Char)
  | [] => some []
  | lead :: rest =>
      match _hfront : front lead rest with
      | .char c more => (decode? more).map (c :: ·)
      | .broken _ => none
termination_by bytes => bytes.length
decreasing_by
  have hlength := length_rest_front lead rest
  simp only [_hfront, Front.rest] at hlength
  exact Nat.lt_succ_of_le hlength

/-- The length in bytes of the part in front of the first piece that cannot be read. -/
def validLength : List UInt8 → Nat
  | [] => 0
  | lead :: rest =>
      match _hfront : front lead rest with
      | .char c more => (String.utf8EncodeChar c).length + validLength more
      | .broken _ => 0
termination_by bytes => bytes.length
decreasing_by
  have hlength := length_rest_front lead rest
  simp only [_hfront, Front.rest] at hlength
  exact Nat.lt_succ_of_le hlength

/-- The text of a byte string with a replacement character for every piece that cannot be read. -/
def lossy : List UInt8 → List Char
  | [] => []
  | lead :: rest =>
      match _hfront : front lead rest with
      | .char c more => c :: lossy more
      | .broken more => '\uFFFD' :: lossy more
termination_by bytes => bytes.length
decreasing_by
  all_goals
    have hlength := length_rest_front lead rest
    simp only [_hfront, Front.rest] at hlength
    exact Nat.lt_succ_of_le hlength

/-- The characters in front of the first piece that cannot be read, and what is left. -/
def split : List UInt8 → List Char × List UInt8
  | [] => ([], [])
  | lead :: rest =>
      match _hfront : front lead rest with
      | .char c more =>
          let (text, left) := split more
          (c :: text, left)
      | .broken _ => ([], lead :: rest)
termination_by bytes => bytes.length
decreasing_by
  have hlength := length_rest_front lead rest
  simp only [_hfront, Front.rest] at hlength
  exact Nat.lt_succ_of_le hlength

/-- The text of a byte string as a string, if all of it can be read. -/
def decodeString? (bytes : List UInt8) : Option String :=
  (decode? bytes).map String.ofList

/-- The text of a byte string as it is shown, with replacements. -/
def shown (bytes : List UInt8) : String :=
  String.ofList (lossy bytes)

end PadBridge.Utf8
