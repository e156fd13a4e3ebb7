import SecureInbox.Number.Binary64

/-! # Shortest decimal digits

`shortest x` is the decimal with the fewest digits that rounds to the finite
double `x`, and among those the nearest to it.  The reals that round to `x` form
an interval around it, with its ends when the significand is even; a grid of
decimals meets the interval exactly if one of the two grid points next to `x`
does, so it is enough to test those for one digit, two digits, and so on. -/
set_option autoImplicit false

namespace SecureInbox

/-- The decimal `digits * 10 ^ exponent`. -/
structure Decimal where
  digits : Nat
  exponent : Int
deriving DecidableEq

/-- Which of two equally near decimals is written. -/
inductive TieRule where
  | toEven
  | up
deriving DecidableEq

namespace Binary64

/-- The numbers that round to a positive double, over one denominator: low end,
value, high end, and whether the ends belong to it. -/
structure Window where
  low : Nat
  value : Nat
  high : Nat
  den : Nat
  closed : Bool

/-- Below a power of two the doubles lie twice as close. -/
def window (x : Binary64) : Window :=
  let m := x.significand
  let gap := if m = leadingBit ∧ 2 * leadingBit ≤ x.magnitude then 1 else 2
  let num (k : Nat) : Nat := if 0 ≤ x.scale then k <<< x.scale.toNat else k
  let den := if 0 ≤ x.scale then 4 else 4 <<< (-x.scale).toNat
  ⟨num (4 * m - gap), num (4 * m), num (4 * m + 2), den, m % 2 == 0⟩

/-- Whether the decimal `k * 10 ^ e` lies in the window. -/
def Window.contains (w : Window) (k : Nat) (e : Int) : Bool :=
  let num := if 0 ≤ e then k * Nat.pow 10 e.toNat * w.den else k * w.den
  let unit := if 0 ≤ e then 1 else Nat.pow 10 (-e).toNat
  if w.closed then w.low * unit ≤ num && num ≤ w.high * unit
  else w.low * unit < num && num < w.high * unit

/-- The nearest of the two multiples of `10 ^ e` around the value that lie in
the window. -/
def Window.onGrid (w : Window) (tie : TieRule) (e : Int) : Option Nat :=
  let num := if 0 ≤ e then w.value else w.value * Nat.pow 10 (-e).toNat
  let den := if 0 ≤ e then w.den * Nat.pow 10 e.toNat else w.den
  let below := num / den
  let twice := 2 * (num % den)
  let aboveNearer := den < twice || (den == twice && (tie == .up || below % 2 == 1))
  let above := w.contains (below + 1) e
  if w.contains below e ∧ below ≠ 0 then
    if above ∧ aboveNearer then some (below + 1) else some below
  else if above then some (below + 1) else none

/-- The decimal exponent `k` with `10 ^ (k - 1) ≤ value < 10 ^ k`. -/
def Window.magnitudeOf (w : Window) : Int :=
  let guess : Int := ((w.value.log2 : Int) - w.den.log2) * 1233 / 4096 - 1
  let reaches (k : Int) : Bool :=
    if 0 ≤ k then Nat.pow 10 k.toNat * w.den ≤ w.value else w.den ≤ w.value * Nat.pow 10 (-k).toNat
  let rec climb : Nat → Int → Int
    | 0, k => k
    | steps + 1, k => if reaches k then climb steps (k + 1) else k
  climb 8 guess

/-- Trailing zeros belong to the exponent. -/
def trimZeros : Nat → Decimal → Decimal
  | 0, d => d
  | fuel + 1, d =>
    if d.digits ≠ 0 ∧ d.digits % 10 = 0 then trimZeros fuel ⟨d.digits / 10, d.exponent + 1⟩ else d

/-- The fewest digits that read back, of a finite double's absolute value. -/
def shortest (tie : TieRule) (x : Binary64) : Decimal :=
  if x.isZero then ⟨0, 0⟩
  else
    let w := x.window
    let top := w.magnitudeOf
    let rec search : Nat → Int → Decimal
      | 0, e => ⟨(w.onGrid tie e).getD 0, e⟩
      | more + 1, e =>
        match w.onGrid tie e with
        | some k => trimZeros 20 ⟨k, e⟩
        | none => search more (e - 1)
    search 17 (top - 1)

end Binary64

namespace Decimal

def digitChars (d : Decimal) : List Char := Nat.toDigits 10 d.digits

/-- Where the point stands, counted from the first digit. -/
def point (d : Decimal) : Int := d.digitChars.length + d.exponent

/-- Digits with a point and no exponent; a whole number has no point. -/
def positional (d : Decimal) : List Char :=
  let cs := d.digitChars
  if 0 ≤ d.exponent then cs ++ List.replicate d.exponent.toNat '0'
  else if d.point ≤ 0 then
    '0' :: '.' :: (List.replicate (-d.point).toNat '0' ++ cs)
  else cs.take d.point.toNat ++ '.' :: cs.drop d.point.toNat

/-- One digit, a point if more digits follow, and the exponent. -/
def scientific (d : Decimal) : List Char :=
  let cs := d.digitChars
  let power := d.point - 1
  cs.take 1 ++ (if cs.length ≤ 1 then [] else '.' :: cs.drop 1) ++
    'e' :: (if power < 0 then '-' else '+') :: Nat.toDigits 10 power.natAbs

end Decimal

namespace Binary64

/-- Plain text: never an exponent, ties go up, `NaN` and `inf` for what is not
finite. -/
def plainText (x : Binary64) : String :=
  if x.isNaN then "NaN"
  else
    let sign := if x.isNegative then "-" else ""
    if x.isInfinite then sign ++ "inf"
    else sign ++ String.ofList (x.shortest .up).positional

end Binary64

end SecureInbox
