/-!
Hexadecimal digits, in upper and lower case, and the characters they name.
-/

namespace PadBridge.Text

def hexDigit? (c : Char) : Option Nat :=
  if '0' ≤ c ∧ c ≤ '9' then some (c.toNat - 48)
  else if 'A' ≤ c ∧ c ≤ 'F' then some (c.toNat - 55)
  else if 'a' ≤ c ∧ c ≤ 'f' then some (c.toNat - 87)
  else none

/-- The character with a number, which must be a scalar value. -/
def scalar? (value : Nat) : Option Char :=
  if h : value.isValidChar then some (Char.ofNatAux value h) else none

end PadBridge.Text
