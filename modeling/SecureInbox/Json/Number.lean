import SecureInbox.Json.Basic

/-! # The numbers of a JSON text

`Numeral` is a number as it is written.  A whole number without point and
exponent that fits sixty-four bits, signed when it is negative, is kept exactly.
Every other numeral is a double: as many leading digits as fit sixty-four bits
are taken as a whole number, rounded, and then multiplied or divided by a rounded
power of ten.  A numeral past the largest double denotes nothing. -/
set_option autoImplicit false

namespace SecureInbox.Json

/-- A written number: its sign, its digits before and after the point, and its
exponent, `none` when it has no `e`. -/
structure Numeral where
  negative : Bool
  whole : List Nat
  fraction : List Nat
  exponent : Option (Bool × List Nat)

namespace Numeral

def wordLimit : Nat := UInt64.size

/-- Takes digits while the number they write stays below the limit.  The second
part is the digits left. -/
def takeDigits (limit : Nat) : Nat → List Nat → Nat × List Nat
  | n, [] => (n, [])
  | n, d :: rest => if 10 * n + d < limit then takeDigits limit (10 * n + d) rest else (n, d :: rest)

/-- The significant whole number and the power of ten that goes with it: as many
digits as fit before the point, then as many as still fit after it. -/
def significand (x : Numeral) : Nat × Int :=
  let (n, left) := takeDigits wordLimit 0 x.whole
  let (m, unread) := takeDigits wordLimit n x.fraction
  (m, (left.length : Int) - (x.fraction.length - unread.length : Nat))

def tenTo (n : Nat) : Binary64 := Binary64.ofRatio false (Nat.pow 10 n) 1

/-- Divides by `1e308` until the exponent is in reach of a power of ten or
nothing is left. -/
def scaleDown : Nat → Binary64 → Int → Binary64 × Int
  | 0, f, e => (f, e)
  | steps + 1, f, e =>
    if -308 ≤ e ∨ f.isZero then (f, e) else scaleDown steps (f.div (tenTo 308)) (e + 308)

/-- `m * 10 ^ e` by one rounded multiplication or division. -/
def scaled? (m : Nat) (e : Int) : Option Binary64 :=
  let f := Binary64.ofRatio false m 1
  if 308 < e then if f.isZero then some f else none
  else if 0 ≤ e then
    let product := f.mul (tenTo e.toNat)
    if product.isInfinite then none else some product
  else
    let (f, e) := scaleDown 4 f e
    if f.isZero then some f else some (f.div (tenTo (-e).toNat))

def exponentLimit : Nat := 1 <<< 31

/-- The value as a double. -/
def float? (x : Numeral) : Option Binary64 :=
  let (m, e) := x.significand
  let magnitude? :=
    match x.exponent with
    | none => scaled? m e
    | some (down, digits) =>
      match takeDigits exponentLimit 0 digits with
      | (n, []) => scaled? m (if down then e - n else e + n)
      | (_, _ :: _) => if m ≠ 0 ∧ !down then none else some (Binary64.zero false)
  magnitude?.map fun f => if x.negative then f.neg else f

def value? (x : Numeral) : Option Number :=
  let (n, left) := takeDigits wordLimit 0 x.whole
  if x.fraction.isEmpty ∧ x.exponent.isNone ∧ left.isEmpty ∧
      (!x.negative ∨ (0 < n ∧ n ≤ 1 <<< 63)) then
    some (.integer (if x.negative then -n else n))
  else (x.float?).map .float

end Numeral

end SecureInbox.Json
