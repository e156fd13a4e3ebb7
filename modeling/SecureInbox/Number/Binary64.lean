/-! # Double-precision numbers

A `Binary64` is its sixty-four bits: a sign and a magnitude.  All arithmetic is
exact arithmetic on naturals followed by one rounding to the nearest double,
ties to even, in `nearestMagnitude`. -/
set_option autoImplicit false

namespace SecureInbox

structure Binary64 where
  bits : UInt64
deriving DecidableEq

namespace Binary64

def signBit : Nat := 1 <<< 63

/-- The magnitude of the infinities; larger magnitudes are not numbers. -/
def infiniteMagnitude : Nat := 2047 <<< 52

/-- The bits without the sign; magnitudes are ordered as the numbers are. -/
def magnitude (x : Binary64) : Nat := x.bits.toNat % signBit

def isNegative (x : Binary64) : Bool := signBit ≤ x.bits.toNat

def isFinite (x : Binary64) : Bool := x.magnitude < infiniteMagnitude

def isInfinite (x : Binary64) : Bool := x.magnitude == infiniteMagnitude

def isNaN (x : Binary64) : Bool := infiniteMagnitude < x.magnitude

def isZero (x : Binary64) : Bool := x.magnitude == 0

/-- The double with the given sign and magnitude. -/
def ofMagnitude (negative : Bool) (magnitude : Nat) : Binary64 :=
  ⟨UInt64.ofNat (magnitude + if negative then signBit else 0)⟩

def infinity (negative : Bool) : Binary64 := ofMagnitude negative infiniteMagnitude

def nan : Binary64 := ofMagnitude false (infiniteMagnitude + 1 <<< 51)

def zero (negative : Bool) : Binary64 := ofMagnitude negative 0

/-- The bit of a significand that is not among the bits of its double. -/
def leadingBit : Nat := 1 <<< 52

/-- A finite double is `significand * 2 ^ scale` up to its sign. -/
def significand (x : Binary64) : Nat :=
  if x.magnitude < leadingBit then x.magnitude else leadingBit + x.magnitude % leadingBit

def scale (x : Binary64) : Int := (max (x.magnitude / leadingBit) 1 : Nat) - 1075

/-- The absolute value of a finite double as a quotient of naturals. -/
def ratio (x : Binary64) : Nat × Nat :=
  if 0 ≤ x.scale then (x.significand <<< x.scale.toNat, 1)
  else (x.significand, 1 <<< (-x.scale).toNat)

/-- The quotient rounded to the nearest natural, ties to even. -/
def roundQuotient (num den : Nat) : Nat :=
  let floor := num / den
  let twice := 2 * (num % den)
  if den < twice ∨ (twice = den ∧ floor % 2 = 1) then floor + 1 else floor

/-- The magnitude of the double nearest to `num / den`, ties to even; the
infinite magnitude when the quotient is past every finite double. -/
def nearestMagnitude (num den : Nat) : Nat :=
  if num = 0 then 0
  else
    let scaled (q : Int) : Nat × Nat :=
      if 0 ≤ q then (num, den <<< q.toNat) else (num <<< (-q).toNat, den)
    let low : Int := max (-1074) ((num.log2 : Int) - den.log2 - 53)
    let q := if (scaled low).1 / (scaled low).2 < 2 * leadingBit then low else low + 1
    let significand := roundQuotient (scaled q).1 (scaled q).2
    min ((q + 1074).toNat * leadingBit + significand) infiniteMagnitude

/-- The double nearest to `num / den` with the given sign. -/
def ofRatio (negative : Bool) (num den : Nat) : Binary64 :=
  ofMagnitude negative (nearestMagnitude num den)

def ofInt (i : Int) : Binary64 := ofRatio (i < 0) i.natAbs 1

/-- The double nearest to `digits * 10 ^ exponent`.  Far exponents are settled
without computing the power. -/
def ofDecimal (negative : Bool) (digits : Nat) (exponent : Int) : Binary64 :=
  let top : Int := exponent + (digits.log2 : Int) / 3 + 1
  if digits = 0 ∨ top < -400 then zero negative
  else if 400 < exponent then infinity negative
  else if 0 ≤ exponent then ofRatio negative (digits * Nat.pow 10 exponent.toNat) 1
  else ofRatio negative digits (Nat.pow 10 (-exponent).toNat)

/-- The rounded product of two finite doubles. -/
def mul (x y : Binary64) : Binary64 :=
  ofRatio (x.isNegative != y.isNegative) (x.ratio.1 * y.ratio.1) (x.ratio.2 * y.ratio.2)

/-- The rounded quotient of two finite doubles, the second not zero. -/
def div (x y : Binary64) : Binary64 :=
  ofRatio (x.isNegative != y.isNegative) (x.ratio.1 * y.ratio.2) (x.ratio.2 * y.ratio.1)

def neg (x : Binary64) : Binary64 := ofMagnitude (!x.isNegative) x.magnitude

/-- The place of a double in the order of the numbers; both zeros share one. -/
def rank (x : Binary64) : Int := if x.isNegative then -x.magnitude else x.magnitude

/-- The order of the numbers; nothing is comparable with a non-number. -/
def le (x y : Binary64) : Bool := !x.isNaN && !y.isNaN && x.rank ≤ y.rank

/-- Equality of numbers: the zeros are equal, a non-number equals nothing. -/
def same (x y : Binary64) : Bool := !x.isNaN && !y.isNaN && x.rank == y.rank

end Binary64

end SecureInbox
