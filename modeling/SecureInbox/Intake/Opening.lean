import SecureInbox.Crypto.Suite
import SecureInbox.Intake.Error
import SecureInbox.Wire.Body
import SecureInbox.Wire.Boxed
import SecureInbox.Wire.Padding

/-! # Opening and closing boxes

`Boxed.message` opens a box under the sender's key and reads the message in it;
`Message.box` is the other direction.  An unknown type byte gives a message all
the same. -/
set_option autoImplicit false

namespace SecureInbox

/-- The type byte and the body of a padded plaintext. -/
def Body.ofPlaintext (plaintext : Bytes) : Except DecodeError Body := do
  let (typeByte, content) ← (Padding.decode plaintext).mapError DecodeError.padding
  Body.decode typeByte content

/-- The padded plaintext of a body. -/
def Body.toPlaintext (drawn : Nat) (body : Body) : Bytes :=
  Padding.encode drawn body.encode.1 body.encode.2

namespace Boxed

/-- A message under the header of a box. -/
def withBody (b : Boxed) (body : Body) : Message :=
  { id := b.id, sender := b.sender, receiver := b.receiver, date := b.date, flags := b.flags
    name := b.name, body }

def message (suite : Suite) (secret senderKey : Key) (b : Boxed) : Except OpenError Message := do
  let plaintext ← (suite.boxOpen secret senderKey b.nonce b.content).mapError .box
  let body ← (Body.ofPlaintext plaintext).mapError .format
  return b.withBody body

end Boxed

/-- The box for a plaintext under the header of a message. -/
def Message.boxPlaintext (suite : Suite) (secret receiverKey : Key) (nonce : Nonce)
    (plaintext : Bytes) (m : Message) : Except OpenError Boxed := do
  let content ← (suite.boxSeal secret receiverKey nonce plaintext).mapError .box
  return { sender := m.sender, receiver := m.receiver, id := m.id, date := m.date, flags := m.flags
           name := m.name, metadata := none, nonce, content }

/-- The box for a message to the holder of a key. -/
def Message.box (suite : Suite) (secret receiverKey : Key) (nonce : Nonce) (drawn : Nat)
    (m : Message) : Except OpenError Boxed :=
  m.boxPlaintext suite secret receiverKey nonce (m.body.toPlaintext drawn)

end SecureInbox
