/-! # Octet strings

Octet strings are lists of bytes.  `Block n` is an octet string of exactly `n`
bytes; identifiers, keys, nonces and digests are blocks.  `littleEndian` writes
a natural number in a fixed number of bytes and `ofLittleEndian` reads one;
`ofLittleEndian_littleEndian` and `littleEndian_ofLittleEndian` say that they
are inverse on the numbers that fit. -/
set_option autoImplicit false

namespace SecureInbox

abbrev Bytes := List UInt8

/-- The number written little endian by `bytes`. -/
def ofLittleEndian : Bytes → Nat
  | [] => 0
  | b :: rest => b.toNat + 256 * ofLittleEndian rest

/-- The low `width` bytes of `n`, least significant first. -/
def littleEndian : Nat → Nat → Bytes
  | 0, _ => []
  | width + 1, n => UInt8.ofNat (n % 256) :: littleEndian width (n / 256)

/-- The low `width` bytes of `n`, most significant first. -/
def bigEndian (width n : Nat) : Bytes := (littleEndian width n).reverse

@[simp] theorem length_littleEndian (width n : Nat) : (littleEndian width n).length = width := by
  induction width generalizing n with
  | zero => rfl
  | succ width ih => simp [littleEndian, ih]

theorem ofLittleEndian_littleEndian (width n : Nat) :
    ofLittleEndian (littleEndian width n) = n % Nat.pow 256 width := by
  induction width generalizing n with
  | zero => simp [littleEndian, ofLittleEndian, Nat.mod_one]
  | succ width ih =>
      have low : (UInt8.ofNat (n % 256)).toNat = n % 256 := Nat.mod_eq_of_lt (Nat.mod_lt n (by decide))
      have power : Nat.pow 256 (width + 1) = 256 * Nat.pow 256 width := Nat.mul_comm _ _
      rw [littleEndian, ofLittleEndian, ih, low, power, Nat.mod_mul]

theorem ofLittleEndian_lt (bytes : Bytes) : ofLittleEndian bytes < Nat.pow 256 bytes.length := by
  induction bytes with
  | nil => simp [ofLittleEndian]
  | cons b rest ih =>
      have hb : b.toNat < 256 := b.toNat_lt
      have power : Nat.pow 256 (rest.length + 1) = Nat.pow 256 rest.length * 256 := rfl
      rw [ofLittleEndian, List.length_cons, power]
      omega

theorem littleEndian_ofLittleEndian (bytes : Bytes) :
    littleEndian bytes.length (ofLittleEndian bytes) = bytes := by
  induction bytes with
  | nil => rfl
  | cons b rest ih =>
      have hb : b.toNat < 256 := b.toNat_lt
      have low : (b.toNat + 256 * ofLittleEndian rest) % 256 = b.toNat := by omega
      have high : (b.toNat + 256 * ofLittleEndian rest) / 256 = ofLittleEndian rest := by omega
      rw [List.length_cons, littleEndian, ofLittleEndian, low, high, ih, UInt8.ofNat_toNat]

/-- An octet string of exactly `n` bytes. -/
structure Block (n : Nat) where
  bytes : Bytes
  length_eq : bytes.length = n
deriving DecidableEq

attribute [simp] Block.length_eq

namespace Block

theorem ext_bytes {n : Nat} {a b : Block n} (h : a.bytes = b.bytes) : a = b := by
  cases a; cases b; simp_all

/-- The block with the given bytes, if there are `n` of them. -/
def ofBytes? {n : Nat} (bytes : Bytes) : Option (Block n) :=
  if h : bytes.length = n then some ⟨bytes, h⟩ else none

@[simp] theorem ofBytes?_bytes {n : Nat} (b : Block n) : ofBytes? b.bytes = some b := by
  simp [ofBytes?]

/-- The first `n` bytes of `bytes`, filled up with zeros. -/
def ofBytes (n : Nat) (bytes : Bytes) : Block n :=
  ⟨bytes.take n ++ List.replicate (n - bytes.length) 0, by
    simp only [List.length_append, List.length_take, List.length_replicate]; omega⟩

/-- `n` zero bytes. -/
def zero (n : Nat) : Block n := ⟨List.replicate n 0, by simp⟩

/-- The low `n` bytes of a number, little endian. -/
def ofNat (n value : Nat) : Block n := ⟨littleEndian n value, by simp⟩

/-- The number written little endian. -/
def toNat {n : Nat} (b : Block n) : Nat := ofLittleEndian b.bytes

instance (n : Nat) : Inhabited (Block n) := ⟨zero n⟩

end Block

end SecureInbox
