import SecureInbox.Number.Digits
import SecureInbox.Text.Blank

/-! # Instants

An instant is a count of seconds since 1970-01-01T00:00:00Z and a fraction in
nanoseconds.  A fraction of a whole second or more marks a leap second.
`Instant.text` writes the RFC 3339 form in UTC, with a fraction of three, six or
nine digits where there is one.  `Instant.ofText?` reads that form, and also with
blanks between its parts, a blank for the `T`, one-digit parts, any offset in
hours and minutes, and years of more than four digits after a sign. -/
set_option autoImplicit false

namespace SecureInbox

structure Instant where
  seconds : Int
  nanos : Nat
deriving DecidableEq

namespace Instant

open Digits (isDigit)

def ofSeconds (seconds : Int) : Instant := ⟨seconds, 0⟩

/-- The order of instants. -/
def le (a b : Instant) : Bool := a.seconds < b.seconds || (a.seconds == b.seconds && a.nanos ≤ b.nanos)

/-- Days from 1970-01-01 to a date of the Gregorian calendar.  Years are counted
from March, so that the leap day comes last. -/
def daysOfDate (year : Int) (month day : Nat) : Int :=
  let y := if month ≤ 2 then year - 1 else year
  let era := y / 400
  let yearOfEra := y % 400
  let monthFromMarch : Int := (month + 9) % 12
  let dayOfYear := (153 * monthFromMarch + 2) / 5 + day - 1
  era * 146097 + (yearOfEra * 365 + yearOfEra / 4 - yearOfEra / 100 + dayOfYear) - 719468

/-- The date of a day counted from 1970-01-01. -/
def dateOfDays (days : Int) : Int × Nat × Nat :=
  let z := days + 719468
  let era := z / 146097
  let dayOfEra := z % 146097
  let yearOfEra := (dayOfEra - dayOfEra / 1460 + dayOfEra / 36524 - dayOfEra / 146096) / 365
  let dayOfYear := dayOfEra - (365 * yearOfEra + yearOfEra / 4 - yearOfEra / 100)
  let monthFromMarch := (5 * dayOfYear + 2) / 153
  let day := dayOfYear - (153 * monthFromMarch + 2) / 5 + 1
  let month := if monthFromMarch < 10 then monthFromMarch + 3 else monthFromMarch - 9
  let year := yearOfEra + era * 400
  (if month ≤ 2 then year + 1 else year, month.toNat, day.toNat)

def isLeapYear (year : Int) : Bool := year % 4 == 0 && (year % 100 != 0 || year % 400 == 0)

def daysInMonth (year : Int) (month : Nat) : Nat :=
  if month = 2 then if isLeapYear year then 29 else 28
  else if month = 4 ∨ month = 6 ∨ month = 9 ∨ month = 11 then 30 else 31

/-- A number in at least `width` digits. -/
def padded (width n : Nat) : List Char :=
  let digits := Nat.toDigits 10 n
  List.replicate (width - digits.length) '0' ++ digits

def yearChars (year : Int) : List Char :=
  if 0 ≤ year ∧ year ≤ 9999 then padded 4 year.toNat
  else (if year < 0 then '-' else '+') :: padded 4 year.natAbs

def fractionChars (nanos : Nat) : List Char :=
  if nanos = 0 then []
  else if nanos % 1000000 = 0 then '.' :: padded 3 (nanos / 1000000)
  else if nanos % 1000 = 0 then '.' :: padded 6 (nanos / 1000)
  else '.' :: padded 9 nanos

def chars (t : Instant) : List Char :=
  let (year, month, day) := dateOfDays (t.seconds / 86400)
  let clock := (t.seconds % 86400).toNat
  let second := clock % 60 + t.nanos / 1000000000
  yearChars year ++ '-' :: padded 2 month ++ '-' :: padded 2 day ++ 'T' ::
    padded 2 (clock / 3600) ++ ':' :: padded 2 (clock / 60 % 60) ++ ':' :: padded 2 second ++
    fractionChars (t.nanos % 1000000000) ++ ['Z']

/-- The RFC 3339 form in UTC. -/
def text (t : Instant) : String := String.ofList t.chars

def skipBlanks (cs : List Char) : List Char := cs.dropWhile Text.isBlank

/-- After blanks, a number of one to `most` digits. -/
def number? (most : Nat) (cs : List Char) : Option (Nat × List Char) :=
  let cs := skipBlanks cs
  let digits := (cs.take most).takeWhile isDigit
  if digits.isEmpty then none else some (Digits.value digits, cs.drop digits.length)

/-- After blanks, a year of up to four digits, or of any length after a sign. -/
def year? (cs : List Char) : Option (Int × List Char) :=
  match skipBlanks cs with
  | '-' :: rest => if (rest.head?.any isDigit) then
      (number? rest.length rest).map fun r => (-(r.1 : Int), r.2) else none
  | '+' :: rest => if (rest.head?.any isDigit) then
      (number? rest.length rest).map fun r => ((r.1 : Int), r.2) else none
  | rest => (number? 4 rest).map fun r => ((r.1 : Int), r.2)

/-- After blanks, the given mark. -/
def mark? (c : Char) (cs : List Char) : Option (List Char) :=
  match skipBlanks cs with
  | d :: rest => if d = c then some rest else none
  | [] => none

/-- A point and a fraction; digits past the ninth are dropped. -/
def fraction? (cs : List Char) : Option (Nat × List Char) :=
  match cs with
  | '.' :: rest =>
    let digits := rest.takeWhile isDigit
    if digits.isEmpty then none
    else
      let kept := digits.take 9
      some (Digits.value kept * Nat.pow 10 (9 - kept.length), rest.dropWhile isDigit)
  | _ => some (0, cs)

/-- The offset from UTC in seconds: `Z`, `UTC`, or a sign, two digits of hours and
two of minutes. -/
def offset? (cs : List Char) : Option (Int × List Char) :=
  match cs with
  | 'Z' :: rest => some (0, rest)
  | 'z' :: rest => some (0, rest)
  | sign :: rest =>
    if (cs.take 3).map Char.toUpper = ['U', 'T', 'C'] then some (0, cs.drop 3)
    else if sign = '+' ∨ sign = '-' ∨ sign = '\u2212' then
      match rest with
      | h₁ :: h₀ :: rest =>
        match rest.dropWhile fun c => c = ':' || Text.isBlank c with
        | m₁ :: m₀ :: rest =>
          if isDigit h₁ && isDigit h₀ && isDigit m₁ && isDigit m₀ && m₁ < '6' then
            let seconds : Int := Digits.value [h₁, h₀] * 3600 + Digits.value [m₁, m₀] * 60
            some (if sign = '+' then seconds else -seconds, rest)
          else none
        | _ => none
      | _ => none
    else none
  | [] => none

/-- The years that an instant can have. -/
def inRange (seconds : Int) : Bool :=
  daysOfDate (-262143) 1 1 * 86400 ≤ seconds && seconds < daysOfDate 262143 1 1 * 86400

def ofChars? (cs : List Char) : Option Instant := do
  let (year, cs) ← year? cs
  let (month, cs) ← mark? '-' cs >>= number? 2
  let (day, cs) ← mark? '-' cs >>= number? 2
  let cs ←
    match cs with
    | c :: rest => if c = 'T' ∨ c = 't' ∨ c = ' ' then some rest else none
    | [] => none
  let (hour, cs) ← number? 2 cs
  let (minute, cs) ← mark? ':' cs >>= number? 2
  let (second, cs) ← mark? ':' cs >>= number? 2
  let (nanos, cs) ← fraction? cs
  let (offset, cs) ← offset? (skipBlanks cs)
  let dateOk := 1 ≤ month ∧ month ≤ 12 ∧ 1 ≤ day ∧ day ≤ daysInMonth year month
  let timeOk := hour < 24 ∧ minute < 60 ∧ second ≤ 60 ∧ offset.natAbs < 86400
  if (skipBlanks cs).isEmpty ∧ dateOk ∧ timeOk ∧ -262143 ≤ year ∧ year ≤ 262142 then
    let leap : Nat := if second = 60 then 1 else 0
    let here := daysOfDate year month day * 86400 + hour * 3600 + minute * 60 + (second - leap)
    if inRange (here - offset) then some ⟨here - offset, nanos + leap * 1000000000⟩ else none
  else none

def ofText? (text : String) : Option Instant := ofChars? text.toList

end Instant

end SecureInbox
