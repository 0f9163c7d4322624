import PadBridge.Toml.Scanner

/-!
Numbers, dates and times of a TOML text.  Single underscores may stand between the digits of a
number.  An integer must fit into 64 bits, and a number that rounds to positive infinity is refused.
-/

namespace PadBridge.Toml

/-- Whether every underscore stands between two digits and the last character is a digit;
`digitBefore` tells whether one precedes. -/
def groupsDigits (digitBefore : Bool) : List Char → Bool
  | [] => digitBefore
  | c :: rest => if c = '_' then digitBefore && groupsDigits false rest else groupsDigits true rest

/-- Digits of a kind, without the underscores between them. -/
def groupedDigits (isDigit : Char → Bool) : Scanner (List Char) := do
  let digits ← Scanner.run fun c => isDigit c || c = '_'
  Scanner.require (groupsDigits false digits)
  return digits.filter (· ≠ '_')

/-- The value of a digit in a base of up to sixteen. -/
def digitValue (c : Char) : Nat :=
  if c.isDigit then c.toNat - 48 else if c.isUpper then c.toNat - 55 else c.toNat - 87

def isDigitOf (base : Nat) (c : Char) : Bool :=
  (c.isDigit || ('A' ≤ c && c ≤ 'F') || ('a' ≤ c && c ≤ 'f')) && digitValue c < base

def valueOf (base : Nat) (digits : List Char) : Nat :=
  digits.foldl (fun value c => value * base + digitValue c) 0

/-- A number in sign and size. -/
def signed (negative : Bool) (size : Nat) : Int :=
  if negative then -(size : Int) else size

def isWord (value : Int) : Bool :=
  -(Nat.pow 2 63 : Nat) ≤ value && value < (Nat.pow 2 63 : Nat)

/-- What a number turns out to be. -/
inductive Numeral where
  | integer (value : Int)
  | number (value : Float)

/-- The double nearest to `digits * 10 ^ exponent`.  Far beyond the range of doubles the exponent
alone decides. -/
def nearestDouble (digits : Nat) (exponent : Int) : Float :=
  let count := (Nat.toDigits 10 digits).length
  if digits = 0 ∨ (count : Int) + exponent < -400 then 0
  else if 400 < (count : Int) + exponent then Float.ofScientific 1 false 400
  else if 0 ≤ exponent then Float.ofScientific digits false exponent.toNat
  else Float.ofScientific digits true (-exponent).toNat

/-- An integer in another base than ten, from behind its sign `0x`, `0o` or `0b`. -/
def basedInteger (base : Nat) : Scanner Numeral := do
  let digits ← groupedDigits (isDigitOf base)
  let value : Int := valueOf base digits
  Scanner.require (isWord value)
  return .integer value

/-- The sign in front of a number, which may be left out; whether it is negative. -/
def sign : Scanner Bool := do
  if ← Scanner.accept "-" then return true
  else
    let _ ← Scanner.accept "+"
    return false

/-- The digits behind a point, if there is one. -/
def fractionPart : Scanner (Option (List Char)) := do
  if ← Scanner.accept "." then return some (← groupedDigits Char.isDigit) else return none

def exponentMark : Scanner Bool := do
  if ← Scanner.accept "e" then return true else Scanner.accept "E"

/-- The exponent of ten, if there is one. -/
def exponentPart : Scanner (Option Int) := do
  if ← exponentMark then
    let negative ← sign
    let digits ← groupedDigits Char.isDigit
    return some (signed negative (valueOf 10 digits))
  else return none

/-- The least number whose nearest double is infinite, `2 ^ 1024 - 2 ^ 970`. -/
def doubleLimit : Nat :=
  1 <<< 1024 - 1 <<< 970

/-- Whether the double nearest to `digits * 10 ^ exponent` is infinite.  Far beyond the range of
doubles, and below one, the exponent alone decides. -/
def overflows (digits : Nat) (exponent : Int) : Bool :=
  if digits = 0 ∨ exponent + digits.log2 + 1 ≤ 0 then false
  else if 400 < exponent then true
  else doubleLimit * Nat.pow 10 (-exponent).toNat ≤ digits * Nat.pow 10 exponent.toNat

/-- A number in base ten, from behind its sign. -/
def decimal (negative : Bool) : Scanner Numeral := do
  let whole ← groupedDigits Char.isDigit
  Scanner.require (whole.length = 1 ∨ whole.head? ≠ some '0')
  let fraction ← fractionPart
  let scale ← exponentPart
  if fraction.isSome || scale.isSome then
    let decimals := fraction.getD []
    let digits := valueOf 10 (whole ++ decimals)
    let exponent := scale.getD 0 - decimals.length
    Scanner.require (negative || !overflows digits exponent)
    let size := nearestDouble digits exponent
    return .number (if negative then -size else size)
  else
    let value := signed negative (valueOf 10 whole)
    Scanner.require (isWord value)
    return .integer value

def infinity : Float := 1.0 / 0.0

def notANumber : Float := 0.0 / 0.0

/-- A number, from behind its sign. -/
def unsignedNumeral (negative : Bool) : Scanner Numeral := do
  if ← Scanner.accept "inf" then return .number (if negative then -infinity else infinity)
  if ← Scanner.accept "nan" then return .number notANumber
  decimal negative

def numeral : Scanner Numeral := do
  if ← Scanner.accept "0x" then basedInteger 16
  else if ← Scanner.accept "0o" then basedInteger 8
  else if ← Scanner.accept "0b" then basedInteger 2
  else unsignedNumeral (← sign)

/-- Exactly `count` digits. -/
def fixedDigits (count : Nat) : Scanner Nat :=
  .ofFunction fun input =>
    let digits := input.take count
    if digits.length = count ∧ digits.all Char.isDigit then
      some (valueOf 10 digits, input.drop count)
    else none

def fixedDigitsUpTo (count limit : Nat) : Scanner Unit := do
  Scanner.require ((← fixedDigits count) ≤ limit)

/-- The number of days of a month, as calendars count since the Gregorian reform. -/
def daysOfMonth (year month : Nat) : Nat :=
  let isLeap := year % 4 = 0 ∧ (year % 100 ≠ 0 ∨ year % 400 = 0)
  if month = 2 then if isLeap then 29 else 28
  else if month ∈ [4, 6, 9, 11] then 30
  else 31

def date : Scanner Unit := do
  let year ← fixedDigits 4
  Scanner.exact "-"
  let month ← fixedDigits 2
  Scanner.require (1 ≤ month ∧ month ≤ 12)
  Scanner.exact "-"
  let day ← fixedDigits 2
  Scanner.require (1 ≤ day ∧ day ≤ daysOfMonth year month)

/-- The hour and the minute of a time or of an offset. -/
def hourAndMinute : Scanner Unit := do
  fixedDigitsUpTo 2 23
  Scanner.exact ":"
  fixedDigitsUpTo 2 59

/-- The time of a day.  A minute may have a leap second. -/
def time : Scanner Unit := do
  hourAndMinute
  Scanner.exact ":"
  fixedDigitsUpTo 2 60
  if ← Scanner.accept "." then
    let digits ← Scanner.run Char.isDigit
    Scanner.require (digits ≠ [])

def isOffsetSign (c : Char) : Bool :=
  c = '+' || c = '-'

/-- The offset of a time, which may be left out. -/
def offset : Scanner Unit := do
  match ← Scanner.front with
  | some c =>
      if c = 'Z' ∨ c = 'z' then
        let _ ← Scanner.one fun _ => true
      else if isOffsetSign c then
        let _ ← Scanner.one isOffsetSign
        hourAndMinute
  | none => return

/-- Whether a time follows a date, behind one character that separates them. -/
def timeFollows : List Char → Bool
  | separator :: first :: second :: ':' :: _ =>
      (separator = 'T' || separator = 't' || separator = ' ') && first.isDigit && second.isDigit
  | _ => false

/-- A date with the time that may follow it. -/
def dateAndTime : Scanner Unit := do
  date
  if timeFollows (← get) then
    let _ ← Scanner.one fun _ => true
    time
    offset

/-- Whether a date starts here. -/
def dateStarts (input : List Char) : Bool :=
  (input.take 4).all Char.isDigit && input[4]? = some '-'

/-- Whether a time starts here. -/
def timeStarts (input : List Char) : Bool :=
  (input.take 2).all Char.isDigit && input[2]? = some ':'

end PadBridge.Toml
