import SecureInbox.Bytes.Basic

/-! # Hexadecimal text

`encode` writes two lower-case digits a byte.  `decode?` takes digits of either
case and refuses every other character and an odd number of them;
`decode?_encode` says that it undoes `encode`. -/
set_option autoImplicit false

namespace SecureInbox.Hex

/-- The lower-case digit of a number below sixteen. -/
def digit (n : Nat) : Char :=
  if n < 10 then Char.ofNat (48 + n) else Char.ofNat (87 + n)

/-- The value of a digit of either case. -/
def value? (c : Char) : Option Nat :=
  if '0' ≤ c ∧ c ≤ '9' then some (c.toNat - 48)
  else if 'a' ≤ c ∧ c ≤ 'f' then some (c.toNat - 87)
  else if 'A' ≤ c ∧ c ≤ 'F' then some (c.toNat - 55)
  else none

def encodeChars : Bytes → List Char
  | [] => []
  | b :: rest => digit (b.toNat / 16) :: digit (b.toNat % 16) :: encodeChars rest

def decodeChars? : List Char → Option Bytes
  | [] => some []
  | [_] => none
  | high :: low :: rest => do
      let h ← value? high
      let l ← value? low
      let bytes ← decodeChars? rest
      return UInt8.ofNat (16 * h + l) :: bytes

def encode (bytes : Bytes) : String := String.ofList (encodeChars bytes)

def decode? (text : String) : Option Bytes := decodeChars? text.toList

/-- A byte as two digits after `0x`. -/
def byteText (b : UInt8) : String := "0x" ++ encode [b]

theorem value?_digit {n : Nat} (h : n < 16) : value? (digit n) = some n := by
  have all : ∀ m : Fin 16, value? (digit m.val) = some m.val := by decide
  exact all ⟨n, h⟩

theorem decodeChars?_encodeChars (bytes : Bytes) :
    decodeChars? (encodeChars bytes) = some bytes := by
  induction bytes with
  | nil => rfl
  | cons b rest ih =>
      have hb : b.toNat < 256 := b.toNat_lt
      have high : b.toNat / 16 < 16 := by omega
      have low : b.toNat % 16 < 16 := by omega
      have whole : 16 * (b.toNat / 16) + b.toNat % 16 = b.toNat := by omega
      simp only [encodeChars, decodeChars?, value?_digit high, value?_digit low, ih,
        Option.bind_eq_bind, Option.bind_some, whole, UInt8.ofNat_toNat, Option.pure_def]

@[simp] theorem decode?_encode (bytes : Bytes) : decode? (encode bytes) = some bytes := by
  simp [decode?, encode, decodeChars?_encodeChars]

end SecureInbox.Hex

namespace SecureInbox.Block

def hex {n : Nat} (b : Block n) : String := Hex.encode b.bytes

/-- The block that `text` writes in hexadecimal, if it has the right length. -/
def ofHex? {n : Nat} (text : String) : Option (Block n) := Hex.decode? text >>= ofBytes?

@[simp] theorem ofHex?_hex {n : Nat} (b : Block n) : ofHex? b.hex = some b := by
  simp [ofHex?, hex]

end SecureInbox.Block
