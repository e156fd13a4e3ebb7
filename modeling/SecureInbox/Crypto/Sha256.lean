import SecureInbox.Bytes.Basic

/-! # SHA-256, HMAC and HKDF

The hash of an octet string, the keyed hash built on it, and the extract and
expand key derivation built on that.  Every digest is a block of 32 bytes. -/
set_option autoImplicit false

namespace SecureInbox.Sha256

def roundConstants : List UInt32 := [
  0x428a2f98, 0x71374491, 0xb5c0fbcf, 0xe9b5dba5, 0x3956c25b, 0x59f111f1, 0x923f82a4, 0xab1c5ed5,
  0xd807aa98, 0x12835b01, 0x243185be, 0x550c7dc3, 0x72be5d74, 0x80deb1fe, 0x9bdc06a7, 0xc19bf174,
  0xe49b69c1, 0xefbe4786, 0x0fc19dc6, 0x240ca1cc, 0x2de92c6f, 0x4a7484aa, 0x5cb0a9dc, 0x76f988da,
  0x983e5152, 0xa831c66d, 0xb00327c8, 0xbf597fc7, 0xc6e00bf3, 0xd5a79147, 0x06ca6351, 0x14292967,
  0x27b70a85, 0x2e1b2138, 0x4d2c6dfc, 0x53380d13, 0x650a7354, 0x766a0abb, 0x81c2c92e, 0x92722c85,
  0xa2bfe8a1, 0xa81a664b, 0xc24b8b70, 0xc76c51a3, 0xd192e819, 0xd6990624, 0xf40e3585, 0x106aa070,
  0x19a4c116, 0x1e376c08, 0x2748774c, 0x34b0bcb5, 0x391c0cb3, 0x4ed8aa4a, 0x5b9cca4f, 0x682e6ff3,
  0x748f82ee, 0x78a5636f, 0x84c87814, 0x8cc70208, 0x90befffa, 0xa4506ceb, 0xbef9a3f7, 0xc67178f2]

/-- The eight chaining words. -/
structure State where
  a : UInt32
  b : UInt32
  c : UInt32
  d : UInt32
  e : UInt32
  f : UInt32
  g : UInt32
  h : UInt32

def initial : State :=
  ⟨0x6a09e667, 0xbb67ae85, 0x3c6ef372, 0xa54ff53a, 0x510e527f, 0x9b05688c, 0x1f83d9ab, 0x5be0cd19⟩

def rotateRight (x n : UInt32) : UInt32 := (x >>> n) ||| (x <<< (32 - n))

def round (s : State) (k w : UInt32) : State :=
  let choice := (s.e &&& s.f) ^^^ (~~~s.e &&& s.g)
  let majority := (s.a &&& s.b) ^^^ (s.a &&& s.c) ^^^ (s.b &&& s.c)
  let sum1 := rotateRight s.e 6 ^^^ rotateRight s.e 11 ^^^ rotateRight s.e 25
  let sum0 := rotateRight s.a 2 ^^^ rotateRight s.a 13 ^^^ rotateRight s.a 22
  let t := s.h + sum1 + choice + k + w
  ⟨t + sum0 + majority, s.a, s.b, s.c, s.d + t, s.e, s.f, s.g⟩

/-- The next word of the message schedule, which has `i` words so far. -/
def nextWord (words : Array UInt32) (i : Nat) : UInt32 :=
  let w2 := words.getD (i - 2) 0
  let w15 := words.getD (i - 15) 0
  let small0 := rotateRight w15 7 ^^^ rotateRight w15 18 ^^^ (w15 >>> 3)
  let small1 := rotateRight w2 17 ^^^ rotateRight w2 19 ^^^ (w2 >>> 10)
  words.getD (i - 16) 0 + small0 + words.getD (i - 7) 0 + small1

/-- Adds `count` words to the message schedule. -/
def extend : Nat → Array UInt32 → Array UInt32
  | 0, words => words
  | count + 1, words => extend count (words.push (nextWord words words.size))

def bigEndianWord (a b c d : UInt8) : UInt32 :=
  (a.toUInt32 <<< 24) ||| (b.toUInt32 <<< 16) ||| (c.toUInt32 <<< 8) ||| d.toUInt32

/-- The words of a message, four bytes each; an incomplete word is dropped. -/
def words : Bytes → List UInt32
  | a :: b :: c :: d :: rest => bigEndianWord a b c d :: words rest
  | _ => []

def rounds : List UInt32 → List UInt32 → State → State
  | k :: ks, w :: ws, s => rounds ks ws (round s k w)
  | _, _, s => s

/-- One block of sixteen words. -/
def compress (s : State) (block : List UInt32) : State :=
  let t := rounds roundConstants (extend 48 block.toArray).toList s
  ⟨s.a + t.a, s.b + t.b, s.c + t.c, s.d + t.d, s.e + t.e, s.f + t.f, s.g + t.g, s.h + t.h⟩

def compressAll : Nat → State → List UInt32 → State
  | 0, s, _ => s
  | blocks + 1, s, ws => compressAll blocks (compress s (ws.take 16)) (ws.drop 16)

/-- The message with a one bit, zeros and its length in bits, a whole number of
blocks long. -/
def padMessage (message : Bytes) : Bytes :=
  let zeros := (119 - message.length % 64) % 64
  message ++ 0x80 :: (List.replicate zeros 0 ++ bigEndian 8 (8 * message.length))

def State.digest (s : State) : Block 32 :=
  Block.ofBytes 32 ([s.a, s.b, s.c, s.d, s.e, s.f, s.g, s.h].flatMap fun w => bigEndian 4 w.toNat)

def hash (message : Bytes) : Block 32 :=
  (compressAll ((message.length + 72) / 64) initial (words (padMessage message))).digest

end SecureInbox.Sha256

namespace SecureInbox.Hmac

/-- A key as one block of the hash: longer keys are hashed first. -/
def keyBlock (key : Bytes) : Bytes :=
  let short := if 64 < key.length then (Sha256.hash key).bytes else key
  short ++ List.replicate (64 - short.length) 0

/-- HMAC-SHA256. -/
def tag (key message : Bytes) : Block 32 :=
  let block := keyBlock key
  let inner := Sha256.hash (block.map (· ^^^ 0x36) ++ message)
  Sha256.hash (block.map (· ^^^ 0x5C) ++ inner.bytes)

end SecureInbox.Hmac

namespace SecureInbox.Hkdf

/-- The extract step; no salt is a salt of zeros. -/
def extract (salt : Option Bytes) (material : Bytes) : Block 32 :=
  Hmac.tag (salt.getD (List.replicate 32 0)) material

/-- The blocks of the expand step, each keyed hash over the one before. -/
def expandBlocks (key : Block 32) (info : Bytes) : Nat → Nat → Bytes → Bytes
  | 0, _, _ => []
  | blocks + 1, index, previous =>
    let block := (Hmac.tag key.bytes (previous ++ info ++ [UInt8.ofNat index])).bytes
    block ++ expandBlocks key info blocks (index + 1) block

/-- The most bytes that can be expanded. -/
def limit : Nat := 255 * 32

/-- `length` bytes of key material, if they are not too many. -/
def derive? (salt : Option Bytes) (material info : Bytes) (length : Nat) : Option Bytes :=
  if limit < length then none
  else some ((expandBlocks (extract salt material) info ((length + 31) / 32) 1 []).take length)

/-- A key of 32 bytes. -/
def key (salt material info : Bytes) : Block 32 :=
  Hmac.tag (extract (some salt) material).bytes (info ++ [1])

end SecureInbox.Hkdf
