import SecureInbox.Bytes.Basic

/-! # White space and lines

`isBlank` is the Unicode property White_Space.  `trim` takes blanks from both
ends; `lines` splits a text after each line feed, drops one carriage return
before it, and has no last empty line. -/
set_option autoImplicit false

namespace SecureInbox.Text

/-- The code points with the property White_Space. -/
def isBlank (c : Char) : Bool :=
  let n := c.toNat
  (0x09 ≤ n && n ≤ 0x0D) || n == 0x20 || n == 0x85 || n == 0xA0 || n == 0x1680 ||
  (0x2000 ≤ n && n ≤ 0x200A) || n == 0x2028 || n == 0x2029 || n == 0x202F || n == 0x205F ||
  n == 0x3000

def trimChars (cs : List Char) : List Char :=
  ((cs.dropWhile isBlank).reverse.dropWhile isBlank).reverse

/-- The text without blanks at its ends. -/
def trim (text : String) : String := String.ofList (trimChars text.toList)

/-- The pieces between the separators; a list without one is a single piece. -/
def splitOn {α : Type} [DecidableEq α] (separator : α) : List α → List (List α)
  | [] => [[]]
  | c :: rest =>
    if c = separator then [] :: splitOn separator rest
    else
      match splitOn separator rest with
      | [] => [[c]]
      | piece :: pieces => (c :: piece) :: pieces

/-- The list without its last element if that is `c`. -/
def dropLast? {α : Type} [DecidableEq α] (c : α) (cs : List α) : List α :=
  if cs.getLast? = some c then cs.dropLast else cs

/-- The pieces that end with a line feed, without their line ends, then the
last piece as it is unless it is empty. -/
def closeLines {α : Type} [DecidableEq α] (carriageReturn : α) : List (List α) → List (List α)
  | [] => []
  | [last] => if last.isEmpty then [] else [last]
  | line :: rest => dropLast? carriageReturn line :: closeLines carriageReturn rest

def lines (cs : List Char) : List (List Char) := closeLines '\r' (splitOn '\n' cs)

/-- The lines of an encoded text. -/
def byteLines (bytes : Bytes) : List Bytes := closeLines 0x0D (splitOn 0x0A bytes)

end SecureInbox.Text
