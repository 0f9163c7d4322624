/-!
How important a log record is.
-/

namespace PadBridge.Log

/-- How important a record is, and with `off` in front how much is shown. -/
inductive Level where
  | off
  | error
  | warn
  | info
  | debug
  | trace
deriving Repr, DecidableEq

namespace Level

def all : List Level :=
  [.off, .error, .warn, .info, .debug, .trace]

/-- The place among the levels, which also stands for the level in a filter. -/
def rank (level : Level) : Nat :=
  all.idxOf level

def name : Level → String
  | .off => "OFF"
  | .error => "ERROR"
  | .warn => "WARN"
  | .info => "INFO"
  | .debug => "DEBUG"
  | .trace => "TRACE"

/-- The value of decimal digits, behind an optional plus sign. -/
def number? (text : List Char) : Option Nat :=
  let digits := if text.head? = some '+' then text.tail else text
  if digits ≠ [] ∧ digits.all Char.isDigit then
    some (digits.foldl (fun value c => value * 10 + (c.toNat - 48)) 0)
  else none

/-- A level by name, in any case, or by number. -/
def ofText? (text : List Char) : Option Level :=
  match number? text with
  | some rank => all[rank]?
  | none => all.find? fun level => level.name.toList = text.map Char.toUpper

end Level

end PadBridge.Log
