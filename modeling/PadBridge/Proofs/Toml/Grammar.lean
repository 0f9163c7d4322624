import PadBridge.Proofs.Toml.Places

/-!
Which texts are TOML documents.  The grammar goes by the rules of TOML 1.0 from the blanks up to
whole documents, says what every piece stands for, and does not mention how a text is read.  What a
reader may refuse although TOML has it is a parameter of the grammar.
-/

namespace PadBridge.Toml.Grammar

/-- How much of TOML there is. -/
structure Limits where
  /-- How deep arrays and tables between braces may nest in a value. -/
  nesting : Nat
  /-- How many parts a key may have. -/
  keyParts : Nat
  /-- Whether a number may be too large for a double. -/
  hugeNumbers : Bool

/-- The limits within which documents are read. -/
def Limits.reading : Limits :=
  ⟨79, 79, false⟩

section Blank

/-- Spaces and tabs. -/
def Blanks (spelled : List Char) : Prop :=
  ∀ c ∈ spelled, c = ' ' ∨ c = '\t'

inductive Newline : List Char → Prop where
  | feed : Newline ['\n']
  | returnFeed : Newline ['\r', '\n']

/-- What can stand for itself: anything but the controls other than the tab. -/
def IsPlain (c : Char) : Prop :=
  c = '\t' ∨ (0x20 ≤ c.toNat ∧ c.toNat ≠ 0x7F)

/-- A comment, which may be left out. -/
inductive Comment : List Char → Prop where
  | none : Comment []
  | some {said : List Char} (hsaid : ∀ c ∈ said, IsPlain c) : Comment ('#' :: said)

/-- What may stand between the items of an array: blanks, and lines that end here. -/
inductive Gap : List Char → Prop where
  | last {blanks : List Char} (hblanks : Blanks blanks) : Gap blanks
  | line {blanks comment newline rest : List Char} (hblanks : Blanks blanks)
      (hcomment : Comment comment) (hnewline : Newline newline) (hrest : Gap rest) :
      Gap (blanks ++ comment ++ newline ++ rest)

end Blank

section Digit

/-- A digit of a base up to sixteen, in either case. -/
inductive Digit (base : Nat) : Char → Nat → Prop where
  | decimal {value : Nat} (hvalue : value < 10) (hbase : value < base) :
      Digit base (.ofNat (0x30 + value)) value
  | upper {value : Nat} (hvalue : value < 6) (hbase : 10 + value < base) :
      Digit base (.ofNat (0x41 + value)) (10 + value)
  | lower {value : Nat} (hvalue : value < 6) (hbase : 10 + value < base) :
      Digit base (.ofNat (0x61 + value)) (10 + value)

def numberOf (base : Nat) (digits : List Nat) : Nat :=
  digits.foldl (fun number digit => number * base + digit) 0

/-- As many digits as there are values. -/
inductive Digits (base : Nat) : List Char → List Nat → Prop where
  | nil : Digits base [] []
  | cons {c : Char} {digit : Nat} {rest : List Char} {digits : List Nat}
      (hc : Digit base c digit) (hrest : Digits base rest digits) :
      Digits base (c :: rest) (digit :: digits)

/-- At least one digit, and single underscores between any two. -/
inductive Grouped (base : Nat) : List Char → List Nat → Prop where
  | one {c : Char} {digit : Nat} (hc : Digit base c digit) : Grouped base [c] [digit]
  | next {c : Char} {digit : Nat} {rest : List Char} {digits : List Nat}
      (hc : Digit base c digit) (hrest : Grouped base rest digits) :
      Grouped base (c :: rest) (digit :: digits)
  | apart {c : Char} {digit : Nat} {rest : List Char} {digits : List Nat}
      (hc : Digit base c digit) (hrest : Grouped base rest digits) :
      Grouped base (c :: '_' :: rest) (digit :: digits)

end Digit

section Text

/-- What stands for one character behind a backslash. -/
def shortEscapes : List (Char × Char) :=
  [('b', '\x08'), ('t', '\t'), ('n', '\n'), ('f', '\x0C'), ('r', '\r'), ('"', '"'), ('\\', '\\')]

/-- An escape, with its backslash: a letter, or the number of a character. -/
inductive Escape : List Char → Char → Prop where
  | short {letter c : Char} (hletter : (letter, c) ∈ shortEscapes) : Escape ['\\', letter] c
  | four {spelled : List Char} {digits : List Nat} {c : Char} (hdigits : Digits 16 spelled digits)
      (hcount : digits.length = 4) (hc : numberOf 16 digits = c.toNat) :
      Escape ('\\' :: 'u' :: spelled) c
  | eight {spelled : List Char} {digits : List Nat} {c : Char} (hdigits : Digits 16 spelled digits)
      (hcount : digits.length = 8) (hc : numberOf 16 digits = c.toNat) :
      Escape ('\\' :: 'U' :: spelled) c

/-- What stands between the quotes of a string on one line in which backslashes have a meaning. -/
inductive BasicBody : List Char → List Char → Prop where
  | nil : BasicBody [] []
  | plain {c : Char} {rest text : List Char} (hplain : IsPlain c) (hquote : c ≠ '"')
      (hbackslash : c ≠ '\\') (hrest : BasicBody rest text) : BasicBody (c :: rest) (c :: text)
  | escape {piece rest text : List Char} {c : Char} (hpiece : Escape piece c)
      (hrest : BasicBody rest text) : BasicBody (piece ++ rest) (c :: text)

inductive Basic : List Char → List Char → Prop where
  | mk {body text : List Char} (hbody : BasicBody body text) : Basic ('"' :: body ++ ['"']) text

/-- A string on one line in which all characters stand for themselves. -/
inductive Literal : List Char → List Char → Prop where
  | mk {text : List Char} (htext : ∀ c ∈ text, IsPlain c ∧ c ≠ '\'') :
      Literal ('\'' :: text ++ ['\'']) text

/-- What a line that goes on behind a backslash leaves out. -/
inductive Fold : List Char → Prop where
  | nil : Fold []
  | blank {c : Char} {rest : List Char} (hc : c = ' ' ∨ c = '\t') (hrest : Fold rest) :
      Fold (c :: rest)
  | newline {newline rest : List Char} (hnewline : Newline newline) (hrest : Fold rest) :
      Fold (newline ++ rest)

/-- What stands between three quotes and three quotes in a string on several lines in which
backslashes have a meaning; `seen` quotes stand directly in front.  No more than two in a row belong
to it.  A backslash at the end of a line leaves out everything up to the next character that is
neither blank nor a line end. -/
inductive BasicBlock : Nat → List Char → List Char → Prop where
  | nil {seen : Nat} : BasicBlock seen [] []
  | quote {seen : Nat} {rest text : List Char} (hseen : seen < 2)
      (hrest : BasicBlock (seen + 1) rest text) : BasicBlock seen ('"' :: rest) ('"' :: text)
  | plain {seen : Nat} {c : Char} {rest text : List Char} (hplain : IsPlain c) (hquote : c ≠ '"')
      (hbackslash : c ≠ '\\') (hrest : BasicBlock 0 rest text) :
      BasicBlock seen (c :: rest) (c :: text)
  | newline {seen : Nat} {newline rest text : List Char} (hnewline : Newline newline)
      (hrest : BasicBlock 0 rest text) : BasicBlock seen (newline ++ rest) ('\n' :: text)
  | escape {seen : Nat} {piece rest text : List Char} {c : Char} (hpiece : Escape piece c)
      (hrest : BasicBlock 0 rest text) : BasicBlock seen (piece ++ rest) (c :: text)
  | fold {seen : Nat} {blanks newline skipped rest text : List Char} (hblanks : Blanks blanks)
      (hnewline : Newline newline) (hskipped : Fold skipped)
      (hnext : ∀ c ∈ rest.head?, c ∉ [' ', '\t', '\n', '\r'])
      (hrest : BasicBlock 0 rest text) :
      BasicBlock seen ('\\' :: blanks ++ newline ++ skipped ++ rest) text

/-- What stands between three quotes and three quotes in a string on several lines in which all
characters stand for themselves. -/
inductive LiteralBlock : Nat → List Char → List Char → Prop where
  | nil {seen : Nat} : LiteralBlock seen [] []
  | quote {seen : Nat} {rest text : List Char} (hseen : seen < 2)
      (hrest : LiteralBlock (seen + 1) rest text) : LiteralBlock seen ('\'' :: rest) ('\'' :: text)
  | plain {seen : Nat} {c : Char} {rest text : List Char} (hplain : IsPlain c) (hquote : c ≠ '\'')
      (hrest : LiteralBlock 0 rest text) : LiteralBlock seen (c :: rest) (c :: text)
  | newline {seen : Nat} {newline rest text : List Char} (hnewline : Newline newline)
      (hrest : LiteralBlock 0 rest text) : LiteralBlock seen (newline ++ rest) ('\n' :: text)

/-- What stands behind three quotes: a line end that comes first does not count. -/
inductive Opened (Block : List Char → List Char → Prop) : List Char → List Char → Prop where
  | newline {newline body text : List Char} (hnewline : Newline newline) (hbody : Block body text) :
      Opened Block (newline ++ body) text
  | direct {body text : List Char} (hfirst : ∀ c ∈ body.head?, c ≠ '\n' ∧ c ≠ '\r')
      (hbody : Block body text) : Opened Block body text

/-- A string of any of the four kinds. -/
inductive StringText : List Char → List Char → Prop where
  | basic {spelled text : List Char} (hspelled : Basic spelled text) : StringText spelled text
  | literal {spelled text : List Char} (hspelled : Literal spelled text) : StringText spelled text
  | basicBlock {body text : List Char} (hbody : Opened (BasicBlock 0) body text) :
      StringText ('"' :: '"' :: '"' :: body ++ ['"', '"', '"']) text
  | literalBlock {body text : List Char} (hbody : Opened (LiteralBlock 0) body text) :
      StringText ('\'' :: '\'' :: '\'' :: body ++ ['\'', '\'', '\'']) text

end Text

section Keys

def IsBare (c : Char) : Prop :=
  ('A' ≤ c ∧ c ≤ 'Z') ∨ ('a' ≤ c ∧ c ≤ 'z') ∨ ('0' ≤ c ∧ c ≤ '9') ∨ c = '-' ∨ c = '_'

inductive KeyPart : List Char → String → Prop where
  | bare {word : List Char} (hne : word ≠ []) (hword : ∀ c ∈ word, IsBare c) :
      KeyPart word (.ofList word)
  | basic {spelled text : List Char} (hspelled : Basic spelled text) :
      KeyPart spelled (.ofList text)
  | literal {spelled text : List Char} (hspelled : Literal spelled text) :
      KeyPart spelled (.ofList text)

/-- A key with dots between its parts. -/
inductive Dotted : List Char → Key → Prop where
  | one {part : List Char} {name : String} (hpart : KeyPart part name) : Dotted part ⟨[], name⟩
  | more {part before after rest : List Char} {name last : String} {path : List String}
      (hpart : KeyPart part name) (hbefore : Blanks before) (hafter : Blanks after)
      (hrest : Dotted rest ⟨path, last⟩) :
      Dotted (part ++ before ++ '.' :: after ++ rest) ⟨name :: path, last⟩

end Keys

section Numbers

inductive Sign : List Char → Bool → Prop where
  | none : Sign [] false
  | plus : Sign ['+'] false
  | minus : Sign ['-'] true

def withSign (negative : Bool) (size : Nat) : Int :=
  if negative then -size else size

/-- The whole part of a number in base ten.  A zero in front stands alone. -/
inductive Whole : List Char → List Nat → Prop where
  | mk {spelled : List Char} {digits : List Nat} (hspelled : Grouped 10 spelled digits)
      (hzero : digits.head? = some 0 → digits = [0]) : Whole spelled digits

def baseSigns : List (Char × Nat) :=
  [('x', 16), ('o', 8), ('b', 2)]

inductive IntegerText : List Char → Int → Prop where
  | decimal {sign spelled : List Char} {negative : Bool} {digits : List Nat}
      (hsign : Sign sign negative) (hspelled : Whole spelled digits) :
      IntegerText (sign ++ spelled) (withSign negative (numberOf 10 digits))
  | based {letter : Char} {base : Nat} {spelled : List Char} {digits : List Nat}
      (hletter : (letter, base) ∈ baseSigns) (hspelled : Grouped base spelled digits) :
      IntegerText ('0' :: letter :: spelled) (numberOf base digits)

/-- An integer has 64 bits. -/
def InRange (value : Int) : Prop :=
  -9223372036854775808 ≤ value ∧ value < 9223372036854775808

inductive Fraction : List Char → List Nat → Prop where
  | none : Fraction [] []
  | some {spelled : List Char} {digits : List Nat} (hspelled : Grouped 10 spelled digits) :
      Fraction ('.' :: spelled) digits

inductive Exponent : List Char → Int → Prop where
  | none : Exponent [] 0
  | some {letter : Char} {sign spelled : List Char} {negative : Bool} {digits : List Nat}
      (hletter : letter = 'e' ∨ letter = 'E') (hsign : Sign sign negative)
      (hspelled : Grouped 10 spelled digits) :
      Exponent (letter :: sign ++ spelled) (withSign negative (numberOf 10 digits))

/-- Whether `digits * 10 ^ exponent` is so large that the nearest double is infinite.  The limit,
`2 ^ 1024 - 2 ^ 970`, lies half a step above the largest double. -/
def Overflows (digits : Nat) (exponent : Int) : Prop :=
  (1 <<< 1024 - 1 <<< 970) * Nat.pow 10 (-exponent).toNat ≤ digits * Nat.pow 10 exponent.toNat

/-- A number that is no integer. -/
inductive NumberText (limits : Limits) : List Char → Prop where
  | decimal {sign whole fraction exponent : List Char} {negative : Bool}
      {digits decimals : List Nat} {scale : Int} (hsign : Sign sign negative)
      (hwhole : Whole whole digits) (hfraction : Fraction fraction decimals)
      (hexponent : Exponent exponent scale) (hmarked : fraction ≠ [] ∨ exponent ≠ [])
      (hsize : limits.hugeNumbers = true ∨ negative = true
        ∨ ¬ Overflows (numberOf 10 (digits ++ decimals)) (scale - decimals.length)) :
      NumberText limits (sign ++ whole ++ fraction ++ exponent)
  | named {sign name : List Char} {negative : Bool} (hsign : Sign sign negative)
      (hname : name = ['i', 'n', 'f'] ∨ name = ['n', 'a', 'n']) : NumberText limits (sign ++ name)

end Numbers

section Moments

/-- Exactly `count` digits, with their number. -/
inductive Fixed (count : Nat) : List Char → Nat → Prop where
  | mk {spelled : List Char} {digits : List Nat} (hspelled : Digits 10 spelled digits)
      (hcount : digits.length = count) : Fixed count spelled (numberOf 10 digits)

/-- How many days the months of a year have. -/
def daysOfMonths (year : Nat) : List Nat :=
  let february := if year % 4 = 0 ∧ (year % 100 ≠ 0 ∨ year % 400 = 0) then 29 else 28
  [31, february, 31, 30, 31, 30, 31, 31, 30, 31, 30, 31]

inductive DateText : List Char → Prop where
  | mk {yearText monthText dayText : List Char} {year month day days : Nat}
      (hyear : Fixed 4 yearText year) (hmonth : Fixed 2 monthText (month + 1))
      (hday : Fixed 2 dayText day) (hdays : (daysOfMonths year)[month]? = some days)
      (hfirst : 1 ≤ day) (hlast : day ≤ days) :
      DateText (yearText ++ '-' :: monthText ++ '-' :: dayText)

inductive HourText : List Char → Prop where
  | mk {hourText minuteText : List Char} {hour minute : Nat} (hhour : Fixed 2 hourText hour)
      (hminute : Fixed 2 minuteText minute) (hhours : hour ≤ 23) (hminutes : minute ≤ 59) :
      HourText (hourText ++ ':' :: minuteText)

/-- The part of a second, which may be left out. -/
inductive SubsecondText : List Char → Prop where
  | none : SubsecondText []
  | some {spelled : List Char} {digits : List Nat} (hspelled : Digits 10 spelled digits)
      (hne : spelled ≠ []) : SubsecondText ('.' :: spelled)

/-- The time of a day, perhaps with a leap second. -/
inductive TimeText : List Char → Prop where
  | mk {hour secondText subsecond : List Char} {second : Nat} (hhour : HourText hour)
      (hsecond : Fixed 2 secondText second) (hseconds : second ≤ 60)
      (hsubsecond : SubsecondText subsecond) :
      TimeText (hour ++ ':' :: secondText ++ subsecond)

/-- How far a time is ahead, which may be left out. -/
inductive OffsetText : List Char → Prop where
  | none : OffsetText []
  | zulu {letter : Char} (hletter : letter = 'Z' ∨ letter = 'z') : OffsetText [letter]
  | hours {sign : Char} {hour : List Char} (hsign : sign = '+' ∨ sign = '-')
      (hhour : HourText hour) : OffsetText (sign :: hour)

/-- A date, a time, or both. -/
inductive MomentText : List Char → Prop where
  | date {date : List Char} (hdate : DateText date) : MomentText date
  | time {time : List Char} (htime : TimeText time) : MomentText time
  | both {date time offset : List Char} {separator : Char} (hdate : DateText date)
      (hseparator : separator ∈ ['T', 't', ' ']) (htime : TimeText time)
      (hoffset : OffsetText offset) : MomentText (date ++ separator :: time ++ offset)

end Moments

section Values

/-- A value that holds no others. -/
inductive Scalar (limits : Limits) : List Char → Item → Prop where
  | text {spelled text : List Char} (hspelled : StringText spelled text) :
      Scalar limits spelled (.text (.ofList text))
  | integer {spelled : List Char} {value : Int} (hspelled : IntegerText spelled value)
      (hrange : InRange value) : Scalar limits spelled (.integer value)
  | number {spelled : List Char} (hspelled : NumberText limits spelled) :
      Scalar limits spelled .number
  | yes : Scalar limits ['t', 'r', 'u', 'e'] (.boolean true)
  | no : Scalar limits ['f', 'a', 'l', 's', 'e'] (.boolean false)
  | moment {spelled : List Char} (hspelled : MomentText spelled) : Scalar limits spelled .moment

variable (limits : Limits) (Inner : List Char → Item → Prop)

/-- The items of an array up to its bracket, at least one.  A comma may follow the last. -/
inductive Items : List Char → Prop where
  | last {value gap : List Char} {item : Item} (hvalue : Inner value item) (hgap : Gap gap) :
      Items (value ++ gap ++ [']'])
  | lastComma {value gap after : List Char} {item : Item} (hvalue : Inner value item)
      (hgap : Gap gap) (hafter : Gap after) : Items (value ++ gap ++ ',' :: after ++ [']'])
  | more {value gap after rest : List Char} {item : Item} (hvalue : Inner value item)
      (hgap : Gap gap) (hafter : Gap after) (hrest : Items rest) :
      Items (value ++ gap ++ ',' :: after ++ rest)

inductive ArrayText : List Char → Prop where
  | empty {gap : List Char} (hgap : Gap gap) : ArrayText ('[' :: gap ++ [']'])
  | filled {gap rest : List Char} (hgap : Gap gap) (hrest : Items Inner rest) :
      ArrayText ('[' :: gap ++ rest)

inductive PairText : List Char → Key → Item → Prop where
  | mk {spelled before after value : List Char} {key : Key} {item : Item}
      (hkey : Dotted spelled key) (hparts : key.parts.length ≤ limits.keyParts)
      (hbefore : Blanks before) (hafter : Blanks after) (hvalue : Inner value item) :
      PairText (spelled ++ before ++ '=' :: after ++ value) key item

/-- The pairs of a table between braces up to its brace, at least one. -/
inductive Pairs : List Char → List (Key × Item) → Prop where
  | last {pair blanks : List Char} {key : Key} {item : Item}
      (hpair : PairText limits Inner pair key item) (hblanks : Blanks blanks) :
      Pairs (pair ++ blanks ++ ['\x7d']) [(key, item)]
  | more {pair before after rest : List Char} {key : Key} {item : Item}
      {pairs : List (Key × Item)} (hpair : PairText limits Inner pair key item)
      (hbefore : Blanks before) (hafter : Blanks after) (hrest : Pairs rest pairs) :
      Pairs (pair ++ before ++ ',' :: after ++ rest) ((key, item) :: pairs)

/-- A table between braces.  Its pairs go together like the lines of a document. -/
inductive InlineText : List Char → Prop where
  | empty {blanks : List Char} (hblanks : Blanks blanks) : InlineText ('\x7b' :: blanks ++ ['\x7d'])
  | filled {blanks rest : List Char} {pairs : List (Key × Item)} (hblanks : Blanks blanks)
      (hrest : Pairs limits Inner rest pairs)
      (hpairs : Consistent (pairs.map fun pair => .entry pair.1 pair.2)) :
      InlineText ('\x7b' :: blanks ++ rest)

/-- A value whose parts are values already. -/
inductive Nested : List Char → Item → Prop where
  | scalar {spelled : List Char} {item : Item} (hspelled : Scalar limits spelled item) :
      Nested spelled item
  | array {spelled : List Char} (hspelled : ArrayText Inner spelled) : Nested spelled .array
  | inline {spelled : List Char} (hspelled : InlineText limits Inner spelled) :
      Nested spelled .inline

end Values

/-- A value in which others nest up to `depth` deep. -/
def IsValue (limits : Limits) : Nat → List Char → Item → Prop
  | 0 => Scalar limits
  | depth + 1 => Nested limits (IsValue limits depth)

inductive HeaderText (limits : Limits) : List Char → Key → Prop where
  | mk {before spelled after : List Char} {key : Key} (hbefore : Blanks before)
      (hkey : Dotted spelled key) (hparts : key.parts.length ≤ limits.keyParts)
      (hafter : Blanks after) : HeaderText limits (before ++ spelled ++ after) key

inductive LineText (limits : Limits) : List Char → Option Line → Prop where
  | empty : LineText limits [] none
  | entry {pair : List Char} {key : Key} {item : Item}
      (hpair : PairText limits (IsValue limits limits.nesting) pair key item) :
      LineText limits pair (some (.entry key item))
  | header {inner : List Char} {key : Key} (hinner : HeaderText limits inner key) :
      LineText limits ('[' :: inner ++ [']']) (some (.header key))
  | nextHeader {inner : List Char} {key : Key} (hinner : HeaderText limits inner key) :
      LineText limits ('[' :: '[' :: inner ++ [']', ']']) (some (.nextHeader key))

inductive WholeLine (limits : Limits) : List Char → Option Line → Prop where
  | mk {before spelled after comment : List Char} {said : Option Line} (hbefore : Blanks before)
      (hspelled : LineText limits spelled said) (hafter : Blanks after)
      (hcomment : Comment comment) : WholeLine limits (before ++ spelled ++ after ++ comment) said

/-- Lines with their ends.  The last one has none. -/
inductive Lines (limits : Limits) : List Char → List Line → Prop where
  | last {spelled : List Char} {said : Option Line} (hspelled : WholeLine limits spelled said) :
      Lines limits spelled said.toList
  | more {spelled newline rest : List Char} {said : Option Line} {lines : List Line}
      (hspelled : WholeLine limits spelled said) (hnewline : Newline newline)
      (hrest : Lines limits rest lines) :
      Lines limits (spelled ++ newline ++ rest) (said.toList ++ lines)

/-- A text that consists of lines.  A byte order mark may stand in front. -/
inductive Written (limits : Limits) : List Char → List Line → Prop where
  | plain {text : List Char} {lines : List Line} (hlines : Lines limits text lines) :
      Written limits text lines
  | marked {text : List Char} {lines : List Line} (hlines : Lines limits text lines) :
      Written limits ('\uFEFF' :: text) lines

/-- A text is a document with these lines: it consists of them, and they go together. -/
structure IsDocument (limits : Limits) (text : List Char) (lines : List Line) : Prop where
  written : Written limits text lines
  consistent : Consistent lines

end PadBridge.Toml.Grammar
