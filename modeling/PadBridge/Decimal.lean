/-!
The decimal text of a binary floating point number.  Of all decimals that read back as the number
the ones with the fewest digits are taken, and of those the nearest; a number halfway between two
of them goes where the style of writing says.  The search is exact: the number and the ends of the
interval that rounds to it are fractions over one denominator, and on the grid of each digit count
only the two neighbours of the number are looked at.
-/

namespace PadBridge

/-- The decimal `digits * 10 ^ exponent`. -/
structure Decimal where
  digits : Nat
  exponent : Int
deriving Repr, DecidableEq

namespace Decimal

/-- Which of its two neighbours a number takes when it lies halfway between them. -/
inductive Halfway where
  /-- The one that ends in an even digit. -/
  | even
  /-- The one further from zero. -/
  | away
deriving Repr, DecidableEq

/-- Whether the neighbour nearer to zero is taken when its last digits are `digits`. -/
def Halfway.takesFloor : Halfway → Nat → Bool
  | .even, digits => digits % 2 == 0
  | .away, _ => false

/-- How many decimal digits a number has; zero has none. -/
def digitCount (n : Nat) : Nat :=
  if n = 0 then 0 else (Nat.toDigits 10 n).length

/-- A positive number `value / scale`, and the interval that is rounded to it. -/
structure Rounding where
  low : Nat
  value : Nat
  high : Nat
  scale : Nat
  /-- Whether the ends of the interval round to the number as well. -/
  closed : Bool

/-- The rounding interval of `mantissa * 2 ^ exponent` in double precision.  The gap below the
first mantissa of a binade is half as wide as the one above it. -/
def Rounding.ofBinary (mantissa : Nat) (exponent : Int) : Rounding :=
  let unit := Nat.pow 2 exponent.toNat
  let below := if mantissa = Nat.pow 2 52 ∧ exponent ≠ -1074 then 1 else 2
  { low := (4 * mantissa - below) * unit
    value := 4 * mantissa * unit
    high := (4 * mantissa + 2) * unit
    scale := 4 * Nat.pow 2 (-exponent).toNat
    closed := mantissa % 2 == 0 }

namespace Rounding

/-- The exponent of the leading digit. -/
def magnitude (rounding : Rounding) : Int :=
  if rounding.scale ≤ rounding.value then
    (digitCount (rounding.value / rounding.scale) : Int) - 1
  else
    -(digitCount ((rounding.scale - 1) / rounding.value) : Int)

/-- Whether a decimal reads back as the number. -/
def admits (rounding : Rounding) (decimal : Decimal) : Bool :=
  let point := decimal.digits * rounding.scale * Nat.pow 10 decimal.exponent.toNat
  let low := rounding.low * Nat.pow 10 (-decimal.exponent).toNat
  let high := rounding.high * Nat.pow 10 (-decimal.exponent).toNat
  if rounding.closed then low ≤ point && point ≤ high else low < point && point < high

/-- The decimal with `count` digits that reads back, if there is one; of two the nearer, and if both
are as near the one that `halfway` takes. -/
def onGrid (rounding : Rounding) (halfway : Halfway) (count : Nat) : Option Decimal :=
  let exponent : Int := rounding.magnitude - (count : Int) + 1
  let step := rounding.scale * Nat.pow 10 exponent.toNat
  let value := rounding.value * Nat.pow 10 (-exponent).toNat
  let floor : Decimal := ⟨value / step, exponent⟩
  let ceiling : Decimal := ⟨value / step + 1, exponent⟩
  let twice := 2 * (value % step)
  let nearer :=
    if twice < step ∨ (twice = step ∧ halfway.takesFloor floor.digits) then [floor, ceiling]
    else [ceiling, floor]
  nearer.find? rounding.admits

end Rounding

/-- The shortest decimal that reads back as `mantissa * 2 ^ exponent`.  Seventeen digits always
suffice. -/
def shortest (halfway : Halfway) (mantissa : Nat) (exponent : Int) : Decimal :=
  let rounding := Rounding.ofBinary mantissa exponent
  ((List.range 17).findSome? fun extra => rounding.onGrid halfway (extra + 1)).getD ⟨mantissa, 0⟩

/-- The parts of a double: its sign, and what it is apart from that. -/
inductive Shape where
  | finite (mantissa : Nat) (exponent : Int)
  | infinite
  | nan

def Shape.ofBits (bits : UInt64) : Shape :=
  let biased : Nat := bits.toNat / Nat.pow 2 52 % Nat.pow 2 11
  let fraction : Nat := bits.toNat % Nat.pow 2 52
  if biased = Nat.pow 2 11 - 1 then
    if fraction = 0 then .infinite else .nan
  else if biased = 0 then .finite fraction (-1074)
  else .finite (Nat.pow 2 52 + fraction) ((biased : Int) - 1075)

/-- How numbers are written: which exponents of the leading digit are written out in full, and
where a number goes that lies halfway between two shortest decimals. -/
structure Style where
  positional : Int → Bool
  halfway : Halfway

/-- Digits without the zeros at their end. -/
def significant (n : Nat) : List Char :=
  ((Nat.toDigits 10 n).reverse.dropWhile (· == '0')).reverse

/-- Digits written out in full, with at least one on each side of the point. -/
def positionalText (digits : List Char) (magnitude : Int) : List Char :=
  if magnitude < 0 then
    ['0', '.'] ++ List.replicate (-magnitude - 1).toNat '0' ++ digits
  else
    let whole := magnitude.toNat + 1
    let after := digits.drop whole
    digits.take whole ++ List.replicate (whole - digits.length) '0' ++ ['.']
      ++ (if after.isEmpty then ['0'] else after)

/-- Digits with a power of ten. -/
def scientificText (digits : List Char) (magnitude : Int) : List Char :=
  let point := if digits.length ≤ 1 then [] else ['.']
  digits.take 1 ++ point ++ digits.drop 1 ++ ['e', if magnitude < 0 then '-' else '+']
    ++ Nat.toDigits 10 magnitude.natAbs

/-- The text of a double in a style. -/
def Style.text (style : Style) (number : Float) : String :=
  let bits := number.toBits
  let sign := if bits.toNat / Nat.pow 2 63 = 1 then ['-'] else []
  match Shape.ofBits bits with
  | .nan => "NaN"
  | .infinite => String.ofList (sign ++ ['i', 'n', 'f'])
  | .finite 0 _ => String.ofList (sign ++ ['0', '.', '0'])
  | .finite mantissa exponent =>
      let decimal := shortest style.halfway mantissa exponent
      let digits := significant decimal.digits
      let magnitude := decimal.exponent + digitCount decimal.digits - 1
      String.ofList <| sign ++
        if style.positional magnitude then positionalText digits magnitude
        else scientificText digits magnitude

end Decimal

end PadBridge
