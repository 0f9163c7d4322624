/-!
Writing a string for a TOML document in the first form that can hold it: between quotes, between
apostrophes, between three of either, and only if all of these fail with escapes.
-/

namespace PadBridge.Toml

/-- The four forms of a string. -/
inductive Form where
  | basic
  | literal
  | blockBasic
  | blockLiteral
deriving Repr, DecidableEq

def Form.quote : Form → Char
  | .basic | .blockBasic => '"'
  | .literal | .blockLiteral => '\''

def Form.isBlock : Form → Bool
  | .basic | .literal => false
  | .blockBasic | .blockLiteral => true

def Form.hasEscapes : Form → Bool
  | .basic | .blockBasic => true
  | .literal | .blockLiteral => false

/-- Controls other than the tab. -/
def isControl (c : Char) : Bool :=
  (c.toNat < 0x20 && c ≠ '\t') || c.toNat = 0x7F

/-- Whether a character stands three times in a row; `seen` of them went before. -/
def hasRunOfThree (c : Char) (seen : Nat) : List Char → Bool
  | [] => false
  | next :: rest =>
      if next = c then 2 ≤ seen || hasRunOfThree c (seen + 1) rest else hasRunOfThree c 0 rest

/-- Whether a form can hold a text without escapes. -/
def Form.holds (form : Form) (text : List Char) : Bool :=
  text.all (fun c => !isControl c || (form.isBlock && c = '\n'))
    && (!form.hasEscapes || !text.contains '\\')
    && if form.isBlock then !hasRunOfThree form.quote 0 text else !text.contains form.quote

/-- The form in which a text is written. -/
def Form.of (text : List Char) : Form :=
  match [Form.basic, .literal, .blockBasic, .blockLiteral].find? (·.holds text) with
  | some form => form
  | none => if text.contains '\n' then .blockBasic else .basic

def hexDigitUpper (value : Nat) : Char :=
  Char.ofNat (if value < 10 then 48 + value else 55 + value)

/-- How a character that cannot stand for itself is written. -/
def escaped (c : Char) : List Char :=
  match c with
  | '\x08' => ['\\', 'b']
  | '\t' => ['\\', 't']
  | '\n' => ['\\', 'n']
  | '\x0C' => ['\\', 'f']
  | '\r' => ['\\', 'r']
  | '"' => ['\\', '"']
  | '\\' => ['\\', '\\']
  | c => ['\\', 'u', '0', '0', hexDigitUpper (c.toNat / 16), hexDigitUpper (c.toNat % 16)]

/-- What a form with escapes writes for a text.  Between three quotes a quote is escaped only when
two go before it unescaped; `seen` of them do. -/
def escapedText (form : Form) (seen : Nat) : List Char → List Char
  | [] => []
  | c :: rest =>
      if c = '"' ∧ form.isBlock ∧ seen < 2 then c :: escapedText form (seen + 1) rest
      else if (isControl c ∧ ¬(form.isBlock ∧ c = '\n')) ∨ c ∈ ['\t', '"', '\\'] then
        escaped c ++ escapedText form 0 rest
      else c :: escapedText form 0 rest

/-- A text in a form.  One with line ends starts on a line of its own. -/
def Form.write (form : Form) (text : List Char) : List Char :=
  let quotes := List.replicate (if form.isBlock then 3 else 1) form.quote
  let opening := if form.isBlock && text.contains '\n' then ['\n'] else []
  let body := if form.hasEscapes then escapedText form 0 text else text
  quotes ++ opening ++ body ++ quotes

/-- A text as a TOML string. -/
def quoted (text : List Char) : List Char :=
  (Form.of text).write text

end PadBridge.Toml
