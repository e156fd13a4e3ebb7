import SecureInbox.Number.Binary64
import SecureInbox.Number.Digits

/-! # Reading a decimal number

`Binary64.ofText?` reads a sign, then digits with an optional point and an
optional exponent, or the words `inf`, `infinity` and `nan` in any case, and
gives the nearest double. -/
set_option autoImplicit false

namespace SecureInbox.Binary64

open Digits (isDigit)

/-- An exponent after its `e`: an optional sign and at least one digit. -/
def exponent? (cs : List Char) : Option Int :=
  let (negative, digits) :=
    match cs with
    | '-' :: rest => (true, rest)
    | '+' :: rest => (false, rest)
    | _ => (false, cs)
  if digits.isEmpty || !digits.all isDigit then none
  else
    let n : Int := Digits.value digits
    some (if negative then -n else n)

/-- Digits, point and exponent without a sign. -/
def unsigned? (negative : Bool) (cs : List Char) : Option Binary64 :=
  let whole := cs.takeWhile isDigit
  let rest := cs.dropWhile isDigit
  let (fraction, rest) :=
    match rest with
    | '.' :: more => (more.takeWhile isDigit, more.dropWhile isDigit)
    | _ => ([], rest)
  if whole.isEmpty && fraction.isEmpty then none
  else
    let power? :=
      match rest with
      | [] => some 0
      | c :: more => if c = 'e' ∨ c = 'E' then exponent? more else none
    power?.map fun power =>
      ofDecimal negative (Digits.value (whole ++ fraction)) (power - fraction.length)

def word? (negative : Bool) (cs : List Char) : Option Binary64 :=
  let lower := cs.map Char.toLower
  if lower = "inf".toList ∨ lower = "infinity".toList then some (infinity negative)
  else if lower = "nan".toList then
    some (ofMagnitude negative nan.magnitude)
  else none

def ofText? (cs : List Char) : Option Binary64 :=
  let (negative, rest) :=
    match cs with
    | '-' :: rest => (true, rest)
    | '+' :: rest => (false, rest)
    | _ => (false, cs)
  match word? negative rest with
  | some x => some x
  | none => unsigned? negative rest

end SecureInbox.Binary64
