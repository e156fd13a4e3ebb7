import SecureInbox.Identity
import SecureInbox.Json.Parser
import SecureInbox.Wire.Error

/-! # Reading bytes in order

A `Reader` takes values from the front of an octet string and leaves the rest for
the next one.  Reading what a block or a word was written as gives it back:
`block_append`, `word16_append` and their like. -/
set_option autoImplicit false

namespace SecureInbox

abbrev Reader := StateT Bytes (Except DecodeError)

namespace Reader

/-- Fails when fewer than `n` bytes are left. -/
def require (n : Nat) (what : String) : Reader Unit := fun bytes =>
  if bytes.length < n then .error (.truncated what n bytes.length) else .ok ((), bytes)

def block (n : Nat) (what : String) : Reader (Block n) := fun bytes =>
  if h : n ≤ bytes.length then
    .ok (⟨bytes.take n, by rw [List.length_take]; omega⟩, bytes.drop n)
  else .error (.truncated what n bytes.length)

def byte (what : String) : Reader UInt8 := fun bytes =>
  match bytes with
  | b :: rest => .ok (b, rest)
  | [] => .error (.truncated what 1 0)

def word16 (what : String) : Reader UInt16 := do
  let b ← block 2 what
  return UInt16.ofNat b.toNat

def word32 (what : String) : Reader UInt32 := do
  let b ← block 4 what
  return UInt32.ofNat b.toNat

def word64 (what : String) : Reader UInt64 := do
  let b ← block 8 what
  return UInt64.ofNat b.toNat

/-- The first `n` bytes; callers make sure that they are there. -/
def taken (n : Nat) (what : String) : Reader Bytes := fun bytes =>
  if bytes.length < n then .error (.truncated what n bytes.length)
  else .ok (bytes.take n, bytes.drop n)

/-- Everything that is left. -/
def rest : Reader Bytes := fun bytes => .ok (bytes, [])

/-- Everything that is left, of which there must be some. -/
def someRest (what : String) : Reader Bytes := fun bytes =>
  if bytes.isEmpty then .error (.truncated what 1 0) else .ok (bytes, [])

/-- The identity with the given handle, or the handle as far as it can be read. -/
def toIdentity (bytes : Bytes) : Except DecodeError Identity :=
  match Identity.ofBytes? bytes with
  | some i => .ok i
  | none => .error (.invalidIdentity (Text.lossy bytes))

def identity (what : String) : Reader Identity := do
  let b ← block 8 what
  toIdentity b.bytes

def group : Reader GroupRef := do
  let creator ← identity "group creator"
  let id ← block 8 "group id"
  return ⟨id, creator⟩

/-- Everything that is left, as text. -/
def text (what : String) : Reader String := do
  match Text.ofUtf8? (← rest) with
  | some s => return s
  | none => throw (.invalidUtf8 what)

/-- Everything that is left, as a JSON text that `read` understands. -/
def json {α : Type} (read : Json.Node → Option α) : Reader α := do
  match Json.Node.parse? (← rest) >>= read with
  | some value => return value
  | none => throw .invalidJson

/-- A byte that stands for a value of some small type. -/
def coded {α : Type} (field what : String) (ofByte? : UInt8 → Option α) : Reader α := do
  let b ← byte what
  match ofByte? b with
  | some value => return value
  | none => throw (.invalidField (.unknownByte field b))

/-- The pieces of length eight of an octet string; a shorter last one is dropped. -/
def eights : Bytes → List (Block 8)
  | a :: b :: c :: d :: e :: f :: g :: h :: rest => ⟨[a, b, c, d, e, f, g, h], rfl⟩ :: eights rest
  | _ => []

/-- Everything that is left, in pieces of eight bytes. -/
def pieces (field : String) : Reader (List (Block 8)) := do
  let bytes ← rest
  if bytes.length % 8 ≠ 0 then throw (.invalidField (.notMultiple field bytes.length 8))
  return eights bytes

/-- The result of a reader on a whole octet string; what it leaves is ignored. -/
def result {α : Type} (reader : Reader α) (bytes : Bytes) : Except DecodeError α :=
  (reader bytes).map Prod.fst

theorem block_append {n : Nat} (what : String) (b : Block n) (rest : Bytes) :
    block n what (b.bytes ++ rest) = .ok (b, rest) := by
  have h : n ≤ (b.bytes ++ rest).length := by simp [b.length_eq]
  rw [block, dif_pos h]
  congr 2
  · exact Block.ext_bytes (List.take_left' b.length_eq)
  · exact List.drop_left' b.length_eq

end Reader

/-- The bytes of a word, least significant first. -/
def bytes16 (w : UInt16) : Bytes := littleEndian 2 w.toNat

def bytes32 (w : UInt32) : Bytes := littleEndian 4 w.toNat

def bytes64 (w : UInt64) : Bytes := littleEndian 8 w.toNat

namespace Reader

theorem word16_append (what : String) (w : UInt16) (rest : Bytes) :
    word16 what (bytes16 w ++ rest) = .ok (w, rest) := by
  have read := block_append what (Block.ofNat 2 w.toNat) rest
  have value : UInt16.ofNat (Block.ofNat 2 w.toNat).toNat = w := by
    have small : w.toNat < Nat.pow 256 2 := w.toNat_lt
    rw [Block.toNat, Block.ofNat, ofLittleEndian_littleEndian, Nat.mod_eq_of_lt small,
      UInt16.ofNat_toNat]
  simp only [Block.ofNat] at read
  simp only [word16, bytes16, bind, StateT.bind, read, Except.bind]
  exact congrArg (fun v => Except.ok (v, rest)) value

theorem word32_append (what : String) (w : UInt32) (rest : Bytes) :
    word32 what (bytes32 w ++ rest) = .ok (w, rest) := by
  have read := block_append what (Block.ofNat 4 w.toNat) rest
  have value : UInt32.ofNat (Block.ofNat 4 w.toNat).toNat = w := by
    have small : w.toNat < Nat.pow 256 4 := w.toNat_lt
    rw [Block.toNat, Block.ofNat, ofLittleEndian_littleEndian, Nat.mod_eq_of_lt small,
      UInt32.ofNat_toNat]
  simp only [Block.ofNat] at read
  simp only [word32, bytes32, bind, StateT.bind, read, Except.bind]
  exact congrArg (fun v => Except.ok (v, rest)) value

theorem word64_append (what : String) (w : UInt64) (rest : Bytes) :
    word64 what (bytes64 w ++ rest) = .ok (w, rest) := by
  have read := block_append what (Block.ofNat 8 w.toNat) rest
  have value : UInt64.ofNat (Block.ofNat 8 w.toNat).toNat = w := by
    have small : w.toNat < Nat.pow 256 8 := w.toNat_lt
    rw [Block.toNat, Block.ofNat, ofLittleEndian_littleEndian, Nat.mod_eq_of_lt small,
      UInt64.ofNat_toNat]
  simp only [Block.ofNat] at read
  simp only [word64, bytes64, bind, StateT.bind, read, Except.bind]
  exact congrArg (fun v => Except.ok (v, rest)) value

end Reader

end SecureInbox
