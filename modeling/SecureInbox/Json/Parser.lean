import SecureInbox.Json.Node
import SecureInbox.Json.Number
import SecureInbox.Text.Utf8

/-! # Reading JSON

`Node.parse?` reads an octet string as one JSON text with blanks around it.  The
fuel is the length of the input, and each level of nesting and each item spends
some of it together with at least one byte, so that it never runs out. -/
set_option autoImplicit false

namespace SecureInbox.Json

def isSpace (b : UInt8) : Bool := b == 0x20 || b == 0x0A || b == 0x0D || b == 0x09

def skipSpaces (bytes : Bytes) : Bytes := bytes.dropWhile isSpace

def isDigitByte (b : UInt8) : Bool := 0x30 ≤ b && b ≤ 0x39

def hexDigit? (b : UInt8) : Option Nat :=
  if 0x30 ≤ b ∧ b ≤ 0x39 then some (b.toNat - 0x30)
  else if 0x61 ≤ b ∧ b ≤ 0x66 then some (b.toNat - 0x57)
  else if 0x41 ≤ b ∧ b ≤ 0x46 then some (b.toNat - 0x37)
  else none

/-- A part of a string: a byte as it stands, or a unit written by number. -/
inductive StringPart where
  | byte (b : UInt8)
  | unit (u : Nat)

/-- The byte that a one-letter escape stands for. -/
def letterEscape? (b : UInt8) : Option UInt8 :=
  if b = 0x22 ∨ b = 0x5C ∨ b = 0x2F then some b
  else if b = 0x62 then some 0x08
  else if b = 0x66 then some 0x0C
  else if b = 0x6E then some 0x0A
  else if b = 0x72 then some 0x0D
  else if b = 0x74 then some 0x09
  else none

/-- The parts of a string up to its closing quote, and what follows the quote. -/
def stringParts? (done : List StringPart) : Bytes → Option (List StringPart × Bytes)
  | [] => none
  | 0x22 :: rest => some (done.reverse, rest)
  | 0x5C :: 0x75 :: a :: b :: c :: d :: rest =>
      match hexDigit? a, hexDigit? b, hexDigit? c, hexDigit? d with
      | some w, some x, some y, some z =>
          stringParts? (.unit (((16 * w + x) * 16 + y) * 16 + z) :: done) rest
      | _, _, _, _ => none
  | 0x5C :: letter :: rest =>
      match letterEscape? letter with
      | some b => stringParts? (.byte b :: done) rest
      | none => none
  | b :: rest => if b < 0x20 ∨ b = 0x5C then none else stringParts? (.byte b :: done) rest

/-- The bytes that the parts denote; surrogates must come in pairs. -/
def partBytes? : List StringPart → Option Bytes
  | [] => some []
  | .byte b :: rest => (partBytes? rest).map (b :: ·)
  | .unit high :: .unit low :: rest =>
      if 0xD800 ≤ high ∧ high ≤ 0xDBFF then
        if 0xDC00 ≤ low ∧ low ≤ 0xDFFF then
          let c := Char.ofNat (0x10000 + (high - 0xD800) * 1024 + (low - 0xDC00))
          (partBytes? rest).map (String.utf8EncodeChar c ++ ·)
        else none
      else if 0xDC00 ≤ high ∧ high ≤ 0xDFFF then none
      else (partBytes? (.unit low :: rest)).map (String.utf8EncodeChar (Char.ofNat high) ++ ·)
  | .unit u :: rest =>
      if 0xD800 ≤ u ∧ u ≤ 0xDFFF then none
      else (partBytes? rest).map (String.utf8EncodeChar (Char.ofNat u) ++ ·)

def partsText? (parts : List StringPart) : Option String := partBytes? parts >>= Text.ofUtf8?

def digitValues (bytes : Bytes) : List Nat := bytes.map fun b => b.toNat - 0x30

/-- Digits of a whole number: no leading zero before another digit. -/
def wholeDigits? (bytes : Bytes) : Option (List Nat × Bytes) :=
  let digits := bytes.takeWhile isDigitByte
  match digits with
  | [] => none
  | [_] => some (digitValues digits, bytes.dropWhile isDigitByte)
  | first :: _ :: _ =>
      if first = 0x30 then none else some (digitValues digits, bytes.dropWhile isDigitByte)

/-- At least one digit. -/
def someDigits? (bytes : Bytes) : Option (List Nat × Bytes) :=
  if (bytes.takeWhile isDigitByte).isEmpty then none
  else some (digitValues (bytes.takeWhile isDigitByte), bytes.dropWhile isDigitByte)

def exponentPart? (bytes : Bytes) : Option (Option (Bool × List Nat) × Bytes) :=
  match bytes with
  | e :: rest =>
      if e = 0x65 ∨ e = 0x45 then do
        let (down, digits) :=
          match rest with
          | 0x2B :: more => (false, more)
          | 0x2D :: more => (true, more)
          | _ => (false, rest)
        let (power, rest) ← someDigits? digits
        return (some (down, power), rest)
      else some (none, bytes)
  | [] => some (none, bytes)

/-- A numeral at the front and what follows it. -/
def numeral? (bytes : Bytes) : Option (Numeral × Bytes) := do
  let (negative, rest) :=
    match bytes with
    | 0x2D :: rest => (true, rest)
    | _ => (false, bytes)
  let (whole, rest) ← wholeDigits? rest
  let (fraction, rest) ←
    match rest with
    | 0x2E :: more => someDigits? more
    | _ => some ([], rest)
  let (exponent, rest) ← exponentPart? rest
  return (⟨negative, whole, fraction, exponent⟩, rest)

/-- The rest after a given word. -/
def afterWord? (word : Bytes) (bytes : Bytes) : Option Bytes :=
  if word.isPrefixOf bytes then some (bytes.drop word.length) else none

namespace Node

mutual
/-- A node at the front, after blanks, and what follows it. -/
def read? : Nat → Bytes → Option (Node × Bytes)
  | 0, _ => none
  | fuel + 1, bytes =>
    match skipSpaces bytes with
    | [] => none
    | 0x22 :: rest => (stringParts? [] rest).map fun r => (.string (partsText? r.1), r.2)
    | 0x5B :: rest =>
        match skipSpaces rest with
        | 0x5D :: rest => some (.array [], rest)
        | _ => (readItems? fuel [] rest).map fun r => (.array r.1, r.2)
    | 0x7B :: rest =>
        match skipSpaces rest with
        | 0x7D :: rest => some (.object [], rest)
        | _ => (readMembers? fuel [] rest).map fun r => (.object r.1, r.2)
    | 0x6E :: rest => (afterWord? [0x75, 0x6C, 0x6C] rest).map fun r => (.null, r)
    | 0x74 :: rest => (afterWord? [0x72, 0x75, 0x65] rest).map fun r => (.bool true, r)
    | 0x66 :: rest => (afterWord? [0x61, 0x6C, 0x73, 0x65] rest).map fun r => (.bool false, r)
    | other => (numeral? other).map fun r => (.number r.1.value?, r.2)

/-- Items up to the closing bracket, after those in `done`. -/
def readItems? : Nat → List Node → Bytes → Option (List Node × Bytes)
  | 0, _, _ => none
  | fuel + 1, done, bytes =>
    match read? fuel bytes with
    | none => none
    | some (item, rest) =>
      match skipSpaces rest with
      | 0x2C :: rest => readItems? fuel (item :: done) rest
      | 0x5D :: rest => some ((item :: done).reverse, rest)
      | _ => none

/-- Members up to the closing brace, after those in `done`. -/
def readMembers? : Nat → List (Option String × Node) → Bytes →
    Option (List (Option String × Node) × Bytes)
  | 0, _, _ => none
  | fuel + 1, done, bytes =>
    match skipSpaces bytes with
    | 0x22 :: rest =>
      match stringParts? [] rest with
      | none => none
      | some (parts, rest) =>
        match skipSpaces rest with
        | 0x3A :: rest =>
          match read? fuel rest with
          | none => none
          | some (node, rest) =>
            match skipSpaces rest with
            | 0x2C :: rest => readMembers? fuel ((partsText? parts, node) :: done) rest
            | 0x7D :: rest => some (((partsText? parts, node) :: done).reverse, rest)
            | _ => none
        | _ => none
    | _ => none
end

/-- The node of a whole JSON text. -/
def parse? (bytes : Bytes) : Option Node :=
  match read? (2 * bytes.length + 2) bytes with
  | some (node, rest) => if (skipSpaces rest).isEmpty then some node else none
  | none => none

def parseText? (text : String) : Option Node := parse? (Text.utf8 text)

end Node

/-- The value of a whole JSON text. -/
def parse? (bytes : Bytes) : Option Json := Node.parse? bytes >>= Node.value? nestingLimit

end SecureInbox.Json
