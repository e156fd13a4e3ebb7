import SecureInbox.Bytes.Basic

/-! # XChaCha20-Poly1305

The ChaCha20 stream, its extension to nonces of 24 bytes, the Poly1305 tag, and
authenticated encryption with associated data.  `encrypt` appends the tag to the
ciphertext and `decrypt?` gives the plaintext back only when the tag is right. -/
set_option autoImplicit false

namespace SecureInbox.ChaCha

/-- One row of the state. -/
structure Row where
  w0 : UInt32
  w1 : UInt32
  w2 : UInt32
  w3 : UInt32

namespace Row

def add (x y : Row) : Row := ⟨x.w0 + y.w0, x.w1 + y.w1, x.w2 + y.w2, x.w3 + y.w3⟩

def xor (x y : Row) : Row := ⟨x.w0 ^^^ y.w0, x.w1 ^^^ y.w1, x.w2 ^^^ y.w2, x.w3 ^^^ y.w3⟩

def rotateWord (x n : UInt32) : UInt32 := (x <<< n) ||| (x >>> (32 - n))

def rotate (x : Row) (n : UInt32) : Row :=
  ⟨rotateWord x.w0 n, rotateWord x.w1 n, rotateWord x.w2 n, rotateWord x.w3 n⟩

/-- The words moved one place to the left. -/
def shift (x : Row) : Row := ⟨x.w1, x.w2, x.w3, x.w0⟩

def bytes (x : Row) : Bytes := [x.w0, x.w1, x.w2, x.w3].flatMap fun w => littleEndian 4 w.toNat

def ofBytes (bs : Bytes) : Row :=
  let word (i : Nat) : UInt32 := UInt32.ofNat (ofLittleEndian ((bs.drop (4 * i)).take 4))
  ⟨word 0, word 1, word 2, word 3⟩

end Row

structure State where
  a : Row
  b : Row
  c : Row
  d : Row

namespace State

/-- A quarter round on the four columns at once. -/
def columns (s : State) : State :=
  let a := s.a.add s.b
  let d := (s.d.xor a).rotate 16
  let c := s.c.add d
  let b := (s.b.xor c).rotate 12
  let a := a.add b
  let d := (d.xor a).rotate 8
  let c := c.add d
  let b := (b.xor c).rotate 7
  ⟨a, b, c, d⟩

/-- A round on the columns and one on the diagonals. -/
def doubleRound (s : State) : State :=
  let s := s.columns
  let s := columns ⟨s.a, s.b.shift, s.c.shift.shift, s.d.shift.shift.shift⟩
  ⟨s.a, s.b.shift.shift.shift, s.c.shift.shift, s.d.shift⟩

def rounds : Nat → State → State
  | 0, s => s
  | n + 1, s => rounds n s.doubleRound

def add (s t : State) : State := ⟨s.a.add t.a, s.b.add t.b, s.c.add t.c, s.d.add t.d⟩

end State

def constants : Row := ⟨0x61707865, 0x3320646e, 0x79622d32, 0x6b206574⟩

def setup (key : Bytes) (last : Row) : State :=
  ⟨constants, Row.ofBytes key, Row.ofBytes (key.drop 16), last⟩

/-- A block of the key stream; `nonce` has twelve bytes. -/
def block (key nonce : Bytes) (counter : Nat) : Bytes :=
  let start := setup key (Row.ofBytes (littleEndian 4 counter ++ nonce))
  let s := (State.rounds 10 start).add start
  s.a.bytes ++ s.b.bytes ++ s.c.bytes ++ s.d.bytes

/-- The key that a long nonce's first sixteen bytes select. -/
def subkey (key nonce : Bytes) : Bytes :=
  let s := State.rounds 10 (setup key (Row.ofBytes nonce))
  s.a.bytes ++ s.d.bytes

/-- The text combined with the key stream from the given block on; `blocks` is at
least the number of blocks in the text. -/
def applyStream (key nonce : Bytes) : Nat → Nat → Bytes → Bytes
  | 0, _, _ => []
  | blocks + 1, counter, text =>
    (text.take 64).zipWith (· ^^^ ·) (block key nonce counter) ++
      applyStream key nonce blocks (counter + 1) (text.drop 64)

end SecureInbox.ChaCha

namespace SecureInbox.Poly1305

def modulus : Nat := 1 <<< 130 - 5

/-- The bits of the multiplier that may be set. -/
def clampMask : Nat := 0x0ffffffc0ffffffc0ffffffc0fffffff

/-- Adds the blocks of sixteen bytes to the accumulator one by one. -/
def accumulate (r : Nat) : Nat → Nat → Bytes → Nat
  | 0, acc, _ => acc
  | blocks + 1, acc, message =>
    let chunk := message.take 16
    accumulate r blocks ((acc + ofLittleEndian chunk + 1 <<< (8 * chunk.length)) * r % modulus)
      (message.drop 16)

/-- The tag of a message under a one-time key of 32 bytes. -/
def tag (key message : Bytes) : Bytes :=
  let r := ofLittleEndian (key.take 16) &&& clampMask
  let s := ofLittleEndian (key.drop 16)
  littleEndian 16 (accumulate r ((message.length + 15) / 16) 0 message + s)

end SecureInbox.Poly1305

namespace SecureInbox.Aead

def tagLength : Nat := 16

def nonceLength : Nat := 24

/-- Zeros up to a multiple of sixteen bytes. -/
def fill (bytes : Bytes) : Bytes := List.replicate ((16 - bytes.length % 16) % 16) 0

/-- What the tag covers. -/
def covered (aad ciphertext : Bytes) : Bytes :=
  aad ++ fill aad ++ ciphertext ++ fill ciphertext ++
    littleEndian 8 aad.length ++ littleEndian 8 ciphertext.length

/-- The key and the short nonce that stand for a key and a long nonce. -/
def inner (key : Block 32) (nonce : Block 24) : Bytes × Bytes :=
  (ChaCha.subkey key.bytes (nonce.bytes.take 16), [0, 0, 0, 0] ++ nonce.bytes.drop 16)

def tagOf (key nonce aad ciphertext : Bytes) : Bytes :=
  Poly1305.tag ((ChaCha.block key nonce 0).take 32) (covered aad ciphertext)

def crypt (key nonce text : Bytes) : Bytes :=
  ChaCha.applyStream key nonce ((text.length + 63) / 64) 1 text

/-- Ciphertext and tag. -/
def encrypt (key : Block 32) (nonce : Block 24) (plaintext aad : Bytes) : Bytes :=
  let (key, nonce) := inner key nonce
  let ciphertext := crypt key nonce plaintext
  ciphertext ++ tagOf key nonce aad ciphertext

/-- The plaintext, if the tag fits. -/
def decrypt? (key : Block 32) (nonce : Block 24) (sealed aad : Bytes) : Option Bytes :=
  if sealed.length < tagLength then none
  else
    let (key, nonce) := inner key nonce
    let ciphertext := sealed.take (sealed.length - tagLength)
    if tagOf key nonce aad ciphertext = sealed.drop (sealed.length - tagLength) then
      some (crypt key nonce ciphertext)
    else none

end SecureInbox.Aead
