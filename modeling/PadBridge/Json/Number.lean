import PadBridge.Json.Fault

/-!
Numbers of a JSON text.  A number never is what is due here; it is read to say which number stands
there, and because a number that is malformed or too large is a fault of its own.
-/

namespace PadBridge.Json

def decimalDigit? (byte : UInt8) : Option Nat :=
  if 0x30 ≤ byte && byte ≤ 0x39 then some (byte.toNat - 0x30) else none

/-- The digits at the front. -/
def digitRun : List UInt8 → List Nat × List UInt8
  | [] => ([], [])
  | byte :: rest =>
      match decimalDigit? byte with
      | none => ([], byte :: rest)
      | some digit =>
          let (more, after) := digitRun rest
          (digit :: more, after)

/-- The fault of a place where a digit is due. -/
def digitMissing (input : List UInt8) : Fault :=
  .at (if input.isEmpty then .endInValue else .invalidNumber) input

/-- The digits at the front, at least one. -/
def digits (input : List UInt8) : Except Fault (List Nat × List UInt8) :=
  match digitRun input with
  | ([], _) => .error (digitMissing input)
  | run => .ok run

/-- Take over digits as long as the value has 64 bits; the others are left. -/
def absorb (value : Nat) : List Nat → Nat × List Nat
  | [] => (value, [])
  | digit :: rest =>
      let next := value * 10 + digit
      if next < Nat.pow 2 64 then absorb next rest else (value, digit :: rest)

/-- A power of ten as a double. -/
def powerOfTen (exponent : Nat) : Float :=
  Float.ofScientific 1 false exponent

/-- The exponents of the largest double and of the powers of ten it is scaled by. -/
def largestExponent : Int := 308

/-- A number times a power of ten; none if that is no double.  Each step multiplies or divides by
one power of ten and rounds. -/
def scaled (number : Float) (exponent : Int) : Option Float :=
  if number == 0 then some number
  else if largestExponent < exponent then none
  else if 0 ≤ exponent then
    let product := number * powerOfTen exponent.toNat
    if product.isInf then none else some product
  else if -largestExponent ≤ exponent then some (number / powerOfTen (-exponent).toNat)
  else scaled (number / powerOfTen largestExponent.toNat) (exponent + largestExponent)
termination_by (-exponent).toNat
decreasing_by
  simp only [largestExponent] at *
  omega

/-- An exponent of ten with its sign. -/
structure Exponent where
  negative : Bool
  digits : List Nat

/-- Exponents up to this are counted. -/
def exponentLimit : Nat := Nat.pow 2 31 - 1

/-- The value of some digits, or the number of digits behind the one that passes the limit. -/
def exponentValue (sofar : Nat) : List Nat → Except Nat Nat
  | [] => .ok sofar
  | digit :: rest =>
      let next := sofar * 10 + digit
      if exponentLimit < next then .error rest.length else exponentValue next rest

/-- The parts of a number, without its sign. -/
structure Parts where
  whole : List Nat
  fraction : List Nat
  exponent : Option Exponent

def isExponentMark (byte : UInt8) : Bool :=
  byte = 0x65 || byte = 0x45

/-- The exponent at the front, if there is one. -/
def exponentPart : List UInt8 → Except Fault (Option Exponent × List UInt8)
  | [] => .ok (none, [])
  | mark :: rest =>
      if isExponentMark mark then
        let negative := rest.head? = some 0x2D
        let unsigned := if negative ∨ rest.head? = some 0x2B then rest.drop 1 else rest
        (digits unsigned).map fun (run, after) => (some ⟨negative, run⟩, after)
      else .ok (none, mark :: rest)

/-- The fraction at the front, if there is one. -/
def fractionPart : List UInt8 → Except Fault (List Nat × List UInt8)
  | [] => .ok ([], [])
  | point :: rest => if point = 0x2E then digits rest else .ok ([], point :: rest)

/-- The digits before the point.  A zero stands alone. -/
def wholePart (input : List UInt8) : Except Fault (List Nat × List UInt8) :=
  match input with
  | 0x30 :: rest =>
      match rest with
      | [] => .ok ([0], [])
      | next :: _ =>
          if (decimalDigit? next).isSome then .error (.at .invalidNumber rest)
          else .ok ([0], rest)
  | _ => digits input

def parts (input : List UInt8) : Except Fault (Parts × List UInt8) := do
  let (whole, rest) ← wholePart input
  let (fraction, rest) ← fractionPart rest
  let (exponent, rest) ← exponentPart rest
  return (⟨whole, fraction, exponent⟩, rest)

/-- The number that some parts stand for; `unread` bytes follow them.  Digits beyond 64 bits do not
count, apart from their place. -/
def Parts.evaluate (parts : Parts) (negative : Bool) (unread : Nat) : Except Fault Found :=
  let (value, dropped) := absorb 0 parts.whole
  let integral := dropped.isEmpty && parts.fraction.isEmpty && parts.exponent.isNone
  if integral && !negative then .ok (.integer value)
  else if integral && 0 < value && value ≤ Nat.pow 2 63 then .ok (.integer (-value))
  else
    let (value, ignored) := absorb value parts.fraction
    let places : Int := (dropped.length : Int) - ((parts.fraction.length : Int) - ignored.length)
    let sign (number : Float) : Found := .number (if negative then -number else number)
    let outOfRange (unread : Nat) : Fault := { cause := .numberOutOfRange, unread }
    let scale (exponent : Int) : Except Fault Found :=
      match scaled value.toUInt64.toFloat exponent with
      | some number => .ok (sign number)
      | none => .error (outOfRange unread)
    match parts.exponent with
    | none => scale places
    | some exponent =>
        match exponentValue 0 exponent.digits with
        | .ok size => scale (places + if exponent.negative then -(size : Int) else size)
        | .error left =>
            if value ≠ 0 ∧ !exponent.negative then .error (outOfRange (unread + left))
            else .ok (sign 0)

/-- The number at the front, from behind its sign. -/
def number (negative : Bool) (input : List UInt8) : Except Fault (Found × List UInt8) := do
  let (parts, rest) ← parts input
  let found ← parts.evaluate negative rest.length
  return (found, rest)

end PadBridge.Json
