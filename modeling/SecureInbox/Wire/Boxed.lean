import SecureInbox.Instant
import SecureInbox.Message.Flags
import SecureInbox.Wire.Reader

/-! # The boxed message

What the transport delivers: a header of 64 bytes, a metadata box, a nonce and
the box with the message.  The header holds both identities, the message
identifier, the date in whole seconds, the flags, a reserved byte, the length of
the metadata box, and the sender's name in 32 bytes filled up with zeros. -/
set_option autoImplicit false

namespace SecureInbox

structure Boxed where
  sender : Identity
  receiver : Identity
  id : MessageId
  date : Instant
  flags : Flags
  name : Option String
  metadata : Option Bytes
  nonce : Block 24
  content : Bytes
deriving DecidableEq

namespace Boxed

def headerLength : Nat := 64

def nameLength : Nat := 32

/-- The longest start of a text, in whole characters, that fits `room` bytes. -/
def fitting : Nat → List Char → List Char
  | _, [] => []
  | room, c :: rest => if c.utf8Size ≤ room then c :: fitting (room - c.utf8Size) rest else []

/-- The name field: as much of the name as fits, then zeros. -/
def nameField (name : Option String) : Bytes :=
  let text := (fitting nameLength (name.getD "").toList).flatMap String.utf8EncodeChar
  text ++ List.replicate (nameLength - text.length) 0

/-- The name in a name field, up to its first zero. -/
def nameOfField (field : Bytes) : Except DecodeError (Option String) :=
  match field.takeWhile (· != 0) with
  | [] => .ok none
  | bytes =>
    match Text.ofUtf8? bytes with
    | some s => .ok (some s)
    | none => .error (.invalidUtf8 "push from name")

/-- The date in whole seconds, as near as an unsigned word comes to it. -/
def dateWord (date : Instant) : UInt32 := UInt32.ofNat (min (UInt32.size - 1) date.seconds.toNat)

def toWire (m : Boxed) : Bytes :=
  m.sender.bytes ++ m.receiver.bytes ++ m.id.bytes ++ bytes32 (dateWord m.date) ++ [m.flags.bits, 0] ++
    bytes16 (UInt16.ofNat (m.metadata.getD []).length) ++ nameField m.name ++
    m.metadata.getD [] ++ m.nonce.bytes ++ m.content

def reader : Reader Boxed := do
  Reader.require headerLength "boxed message header"
  let sender ← Reader.identity "sender"
  let receiver ← Reader.identity "receiver"
  let id ← Reader.block 8 "message id"
  let seconds ← Reader.word32 "date"
  let flags ← Reader.byte "flags"
  let _ ← Reader.byte "reserved"
  let metadataLength ← Reader.word16 "metadata length"
  let field ← Reader.taken nameLength "name"
  let name ← nameOfField field
  let metadata ← Reader.taken metadataLength.toNat "metadata box"
  let nonce ← Reader.block 24 "nonce"
  let content ← Reader.someRest "box"
  return { sender, receiver, id, date := Instant.ofSeconds seconds.toNat, flags := ⟨flags⟩, name
           metadata := if metadata.isEmpty then none else some metadata, nonce, content }

def fromWire (bytes : Bytes) : Except DecodeError Boxed := reader.result bytes

end Boxed

end SecureInbox
