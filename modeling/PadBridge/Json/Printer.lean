/-!
Writing an object of strings as JSON: one member a line, indented by two spaces.  Only the quote,
the backslash and the controls of ASCII are escaped.
-/

namespace PadBridge.Json

def hexDigitLower (value : Nat) : Char :=
  Char.ofNat (if value < 10 then 48 + value else 87 + value)

/-- How one character stands in a string. -/
def escapedChar (c : Char) : List Char :=
  match c with
  | '"' => ['\\', '"']
  | '\\' => ['\\', '\\']
  | '\x08' => ['\\', 'b']
  | '\x0C' => ['\\', 'f']
  | '\n' => ['\\', 'n']
  | '\r' => ['\\', 'r']
  | '\t' => ['\\', 't']
  | c =>
      if c.toNat < 0x20 then
        ['\\', 'u', '0', '0', hexDigitLower (c.toNat / 16), hexDigitLower (c.toNat % 16)]
      else [c]

def stringLiteral (text : String) : List Char :=
  ['"'] ++ text.toList.flatMap escapedChar ++ ['"']

def memberLine (entry : String × String) : List Char :=
  [' ', ' '] ++ stringLiteral entry.1 ++ [':', ' '] ++ stringLiteral entry.2

/-- The lines of an object, with a comma behind every member but the last. -/
def memberLines : List (String × String) → List Char
  | [] => []
  | [entry] => '\n' :: memberLine entry ++ ['\n']
  | entry :: rest => '\n' :: memberLine entry ++ [','] ++ memberLines rest

def objectText (entries : List (String × String)) : List Char :=
  ['\x7b'] ++ memberLines entries ++ ['\x7d']

/-- The text of an object of strings. -/
def printObject (entries : List (String × String)) : String :=
  String.ofList (objectText entries)

end PadBridge.Json
