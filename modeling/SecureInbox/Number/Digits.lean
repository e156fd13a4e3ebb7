/-! # Rows of decimal digits

`Digits.value` is the number that a row of digits writes, the last digit being the
units.  `Digits.read?` reads a whole row, perhaps after a plus sign, as a number
below a bound. -/
set_option autoImplicit false

namespace SecureInbox.Digits

def isDigit (c : Char) : Bool := '0' ≤ c && c ≤ '9'

/-- The number that a row of digits writes. -/
def value (cs : List Char) : Nat := cs.foldl (fun n c => 10 * n + (c.toNat - 48)) 0

/-- A digit after a row makes ten of each unit and adds its own. -/
theorem value_append_digit (cs : List Char) (c : Char) :
    value (cs ++ [c]) = 10 * value cs + (c.toNat - 48) := by simp [value]

/-- A number below the bound, perhaps after a plus sign. -/
def read? (bound : Nat) (cs : List Char) : Option Nat :=
  let digits :=
    match cs with
    | '+' :: rest => rest
    | other => other
  if digits.isEmpty || !digits.all isDigit then none
  else if value digits < bound then some (value digits) else none

end SecureInbox.Digits
