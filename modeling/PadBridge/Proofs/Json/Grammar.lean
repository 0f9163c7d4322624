/-!
Which texts are objects of strings.  The grammar is written over bytes, says what every piece
stands for, and does not mention how a text is read.
-/

namespace PadBridge.Json

inductive HexDigit : UInt8 → Nat → Prop where
  | decimal {value : Nat} (hvalue : value < 10) : HexDigit (.ofNat (0x30 + value)) value
  | upper {value : Nat} (hvalue : value < 6) : HexDigit (.ofNat (0x41 + value)) (10 + value)
  | lower {value : Nat} (hvalue : value < 6) : HexDigit (.ofNat (0x61 + value)) (10 + value)

/-- Four hexadecimal digits, with the code unit they stand for. -/
inductive CodeUnit : List UInt8 → Nat → Prop where
  | digits {first second third fourth : UInt8} {a b c d : Nat} (hfirst : HexDigit first a)
      (hsecond : HexDigit second b) (hthird : HexDigit third c) (hfourth : HexDigit fourth d) :
      CodeUnit [first, second, third, fourth] (a * 4096 + b * 256 + c * 16 + d)

/-- The letters that stand for one character behind a backslash: the quote, the backslash, the
slash, and b, f, n, r and t. -/
def shortEscapes : List (UInt8 × Char) :=
  [(0x22, '"'), (0x5C, '\\'), (0x2F, '/'), (0x62, '\x08'), (0x66, '\x0C'), (0x6E, '\n'),
    (0x72, '\r'), (0x74, '\t')]

/-- An escape, with its backslash and the character it stands for.  A code unit stands for a
character by itself unless it is one half of a surrogate pair; then the other half has to follow. -/
inductive Escape : List UInt8 → Char → Prop where
  | short {letter : UInt8} {c : Char} (hletter : (letter, c) ∈ shortEscapes) :
      Escape [0x5C, letter] c
  | unit {digits : List UInt8} {c : Char} (hdigits : CodeUnit digits c.toNat) :
      Escape (0x5C :: 0x75 :: digits) c
  | pair {highDigits lowDigits : List UInt8} {high low : Nat} {c : Char}
      (hhigh : CodeUnit highDigits (0xD800 + high)) (hlow : CodeUnit lowDigits (0xDC00 + low))
      (hhighRange : high < 0x400) (hlowRange : low < 0x400)
      (hc : c.toNat = 0x10000 + high * 0x400 + low) :
      Escape (0x5C :: 0x75 :: highDigits ++ 0x5C :: 0x75 :: lowDigits) c

/-- How a character can stand in a string: as its UTF-8 bytes, unless it is the quote, the
backslash or a control character, or as an escape. -/
inductive Spells : List UInt8 → Char → Prop where
  | raw {c : Char} (hquote : c ≠ '"') (hbackslash : c ≠ '\\') (hcontrol : 0x20 ≤ c.toNat) :
      Spells (String.utf8EncodeChar c) c
  | escaped {piece : List UInt8} {c : Char} (hpiece : Escape piece c) : Spells piece c

inductive Body : List UInt8 → List Char → Prop where
  | nil : Body [] []
  | cons {piece rest : List UInt8} {c : Char} {text : List Char} (hpiece : Spells piece c)
      (hrest : Body rest text) : Body (piece ++ rest) (c :: text)

inductive Quoted : List UInt8 → String → Prop where
  | mk {body : List UInt8} {value : String} (hbody : Body body value.toList) :
      Quoted (0x22 :: body ++ [0x22]) value

/-- Spaces, tabs and line ends. -/
def Blanks (bytes : List UInt8) : Prop :=
  ∀ byte ∈ bytes, byte = 0x20 ∨ byte = 0x09 ∨ byte = 0x0A ∨ byte = 0x0D

inductive Member : List UInt8 → String × String → Prop where
  | mk {key before after value : List UInt8} {name text : String} (hkey : Quoted key name)
      (hbefore : Blanks before) (hafter : Blanks after) (hvalue : Quoted value text) :
      Member (key ++ before ++ 0x3A :: after ++ value) (name, text)

/-- Members with commas between them, at least one. -/
inductive Members : List UInt8 → List (String × String) → Prop where
  | one {piece : List UInt8} {entry : String × String} (hpiece : Member piece entry) :
      Members piece [entry]
  | more {piece before after rest : List UInt8} {entry : String × String}
      {entries : List (String × String)} (hpiece : Member piece entry) (hbefore : Blanks before)
      (hafter : Blanks after) (hrest : Members rest entries) :
      Members (piece ++ before ++ 0x2C :: after ++ rest) (entry :: entries)

/-- An object of strings, from brace to brace. -/
inductive ObjectOf : List UInt8 → List (String × String) → Prop where
  | empty {blanks : List UInt8} (hblanks : Blanks blanks) :
      ObjectOf (0x7B :: blanks ++ [0x7D]) []
  | filled {before pieces after : List UInt8} {entries : List (String × String)}
      (hbefore : Blanks before) (hpieces : Members pieces entries) (hafter : Blanks after) :
      ObjectOf (0x7B :: before ++ pieces ++ after ++ [0x7D]) entries

/-- A whole text: an object of strings with nothing but blanks around it. -/
inductive IsObjectText : List UInt8 → List (String × String) → Prop where
  | mk {before object after : List UInt8} {entries : List (String × String)}
      (hbefore : Blanks before) (hobject : ObjectOf object entries) (hafter : Blanks after) :
      IsObjectText (before ++ object ++ after) entries

theorem Blanks.nil : Blanks [] := by
  simp [Blanks]

theorem Blanks.single {byte : UInt8}
    (hbyte : byte = 0x20 ∨ byte = 0x09 ∨ byte = 0x0A ∨ byte = 0x0D) : Blanks [byte] := by
  simpa [Blanks] using hbyte

end PadBridge.Json
