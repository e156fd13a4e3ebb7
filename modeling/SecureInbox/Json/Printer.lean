import SecureInbox.Bytes.Hex
import SecureInbox.Json.Basic

/-! # Writing JSON

`compact` writes a value without blanks, `pretty` with one member or item a line
and two blanks a level.  Doubles have their shortest digits: positional between
`1e-5` and `1e16` with at least one decimal, scientific outside. -/
set_option autoImplicit false

namespace SecureInbox.Json

/-- A finite double as JSON writes it. -/
def floatChars (x : Binary64) : List Char :=
  let d := x.shortest .toEven
  let body :=
    if x.isZero then "0.0".toList
    else if -5 < d.point ∧ d.point ≤ 16 then
      if 0 ≤ d.exponent then d.positional ++ ['.', '0'] else d.positional
    else d.scientific
  if x.isNegative then '-' :: body else body

def intChars (i : Int) : List Char :=
  if i < 0 then '-' :: Nat.toDigits 10 i.natAbs else Nat.toDigits 10 i.natAbs

def numberChars : Number → List Char
  | .integer i => intChars i
  | .float x => floatChars x

/-- A character inside quotes. -/
def escapeChar (c : Char) : List Char :=
  match c with
  | '"' => ['\\', '"']
  | '\\' => ['\\', '\\']
  | '\x08' => ['\\', 'b']
  | '\x0c' => ['\\', 'f']
  | '\n' => ['\\', 'n']
  | '\r' => ['\\', 'r']
  | '\t' => ['\\', 't']
  | c =>
    if c.toNat < 0x20 then
      '\\' :: 'u' :: '0' :: '0' :: [Hex.digit (c.toNat / 16), Hex.digit (c.toNat % 16)]
    else [c]

def stringChars (s : String) : List Char := '"' :: (s.toList.flatMap escapeChar ++ ['"'])

mutual
def compactChars : Json → List Char
  | .null => "null".toList
  | .bool b => if b then "true".toList else "false".toList
  | .number n => numberChars n
  | .string s => stringChars s
  | .array [] => ['[', ']']
  | .array (item :: rest) => '[' :: (item.compactChars ++ compactItems rest)
  | .object [] => ['\x7b', '\x7d']
  | .object ((name, value) :: rest) =>
      '\x7b' :: (stringChars name ++ ':' :: (value.compactChars ++ compactMembers rest))

def compactItems : List Json → List Char
  | [] => [']']
  | item :: rest => ',' :: (item.compactChars ++ compactItems rest)

def compactMembers : List (String × Json) → List Char
  | [] => ['\x7d']
  | (name, value) :: rest =>
      ',' :: (stringChars name ++ ':' :: (value.compactChars ++ compactMembers rest))
end

/-- A value on one line without blanks. -/
def compact (value : Json) : String := String.ofList value.compactChars

/-- A line end and the blanks of the given level. -/
def newline (level : Nat) : List Char := '\n' :: List.replicate (2 * level) ' '

mutual
def prettyChars (level : Nat) : Json → List Char
  | .array (item :: rest) =>
      '[' :: (newline (level + 1) ++ item.prettyChars (level + 1) ++ prettyItems level rest)
  | .object ((name, value) :: rest) =>
      '\x7b' :: (newline (level + 1) ++ stringChars name ++ ':' :: ' ' ::
        (value.prettyChars (level + 1) ++ prettyMembers level rest))
  | other => other.compactChars

def prettyItems (level : Nat) : List Json → List Char
  | [] => newline level ++ [']']
  | item :: rest =>
      ',' :: (newline (level + 1) ++ item.prettyChars (level + 1) ++ prettyItems level rest)

def prettyMembers (level : Nat) : List (String × Json) → List Char
  | [] => newline level ++ ['\x7d']
  | (name, value) :: rest =>
      ',' :: (newline (level + 1) ++ stringChars name ++ ':' :: ' ' ::
        (value.prettyChars (level + 1) ++ prettyMembers level rest))
end

/-- A value over several lines, two blanks a level. -/
def pretty (value : Json) : String := String.ofList (value.prettyChars 0)

end SecureInbox.Json
