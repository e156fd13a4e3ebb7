import SecureInbox.Intake.Opening
import SecureInbox.Proofs.Crypto.Aead
import SecureInbox.Proofs.Wire.Acceptance
import SecureInbox.Proofs.Wire.Padding

/-! # A message in transit

A message goes through four forms: its body is encoded and padded, sealed in a box, and put on
the wire behind a header.  Where two parties have the same key for their boxes, each of these
steps is undone by the receiver (`Message.received_as_sent`). -/
set_option autoImplicit false

namespace SecureInbox

variable {suite : Suite} {secret receiverSecret senderKey receiverKey key : Key}

theorem Suite.boxSeal_of_key (sealing : suite.boxKey secret receiverKey = .ok key) (nonce : Nonce)
    (plaintext : Bytes) : suite.boxSeal secret receiverKey nonce plaintext =
      .ok (suite.encrypt key nonce plaintext []) := by
  rw [boxSeal, sealing]
  rfl

theorem Suite.boxOpen_encrypt (opens : suite.Opens)
    (opening : suite.boxKey receiverSecret senderKey = .ok key) (nonce : Nonce)
    (plaintext : Bytes) : suite.boxOpen receiverSecret senderKey nonce
      (suite.encrypt key nonce plaintext []) = .ok plaintext := by
  simp only [boxOpen, opening, bind, Except.bind, opens key nonce plaintext []]
  rfl

/-- A tag leaves no box empty. -/
theorem Suite.encrypt_ne_nil (tags : suite.Tags) (key : Key) (nonce : Nonce)
    (plaintext aad : Bytes) : suite.encrypt key nonce plaintext aad ≠ [] := by
  intro empty
  have length := tags key nonce plaintext aad
  rw [empty, Aead.tagLength] at length
  cases length

/-- A message that is sealed for the receiver, written, read and opened under the sender's key
is the same message, whatever nonce and padding were drawn for it. -/
theorem Message.received_as_sent (opens : suite.Opens) (tags : suite.Tags)
    (sealing : suite.boxKey secret receiverKey = .ok key)
    (opening : suite.boxKey receiverSecret senderKey = .ok key) {m : Message}
    (survives : m.body.Survives) (fits : Boxed.HeaderFits m.date m.name) (nonce : Nonce)
    {drawn : Nat} (positive : 0 < drawn) (small : drawn < 256) :
    ∃ b, m.box suite secret receiverKey nonce drawn = .ok b ∧ Boxed.fromWire b.toWire = .ok b ∧
      b.message suite receiverSecret senderKey = .ok m := by
  have sealed : m.box suite secret receiverKey nonce drawn = .ok {
      sender := m.sender, receiver := m.receiver, id := m.id, date := m.date, flags := m.flags
      name := m.name, metadata := none, nonce
      content := suite.encrypt key nonce (m.body.toPlaintext drawn) [] } := by
    rw [Message.box, Message.boxPlaintext, Suite.boxSeal_of_key sealing]
    rfl
  refine ⟨_, sealed, ?_, ?_⟩
  · exact Boxed.Fits.fromWire_toWire_eq {
      header := fits
      metadata := nofun
      content := Suite.encrypt_ne_nil tags key nonce _ [] }
  · have unpadded : Padding.decode (m.body.toPlaintext drawn) =
        .ok (m.body.encode.1, m.body.encode.2) := Padding.decode_encode positive small _ _
    rw [Boxed.message_of_unpadded (Suite.boxOpen_encrypt opens opening nonce _) unpadded,
      show Body.decode m.body.encode.1 m.body.encode.2 = .ok m.body from survives]
    rfl

theorem Suite.standard_boxKey (given : X25519.multiply secret receiverKey ≠ Block.zero 32) :
    standard.boxKey secret receiverKey = .ok (Hkdf.key (Text.utf8 "im-box-v1")
      (X25519.multiply secret receiverKey).bytes (Text.utf8 "box")) := by
  have agreed : standard.agree? secret receiverKey = some (X25519.multiply secret receiverKey) := by
    simp only [standard, if_neg given]
  rw [boxKey, agree, agreed]
  rfl

def greeting : Message where
  id := Block.zero 8
  sender := Boxed.crowded.sender
  receiver := Boxed.crowded.receiver
  date := .ofSeconds 1700000000
  flags := ⟨1⟩
  name := some "Echo"
  body := .text none "hello"

def greeterSecret : Key := Block.ofNat 32 77

def greetedSecret : Key := Block.ofNat 32 1234

theorem greeting_received_as_sent : ∃ b,
    greeting.box .standard greeterSecret (Suite.standard.publicKey greetedSecret) (.zero 24) 255 =
        .ok b ∧
      Boxed.fromWire b.toWire = .ok b ∧
      b.message .standard greetedSecret (Suite.standard.publicKey greeterSecret) =
        .ok greeting := by
  have agrees : X25519.multiply greeterSecret (Suite.standard.publicKey greetedSecret) =
      X25519.multiply greetedSecret (Suite.standard.publicKey greeterSecret) := by decide +kernel
  have given : X25519.multiply greeterSecret (Suite.standard.publicKey greetedSecret) ≠
      Block.zero 32 := by decide +kernel
  have sealing := Suite.standard_boxKey given
  have opening := Suite.standard_boxKey (agrees ▸ given)
  rw [← agrees] at opening
  have survives : greeting.body.Survives := rfl
  have fits : Boxed.HeaderFits greeting.date greeting.name := by
    refine ⟨⟨1700000000, rfl⟩, ?_⟩
    rintro text ⟨⟩
    decide
  exact Message.received_as_sent Suite.standard_opens Suite.standard_tags sealing opening survives
    fits (.zero 24) (by decide) (by decide)

end SecureInbox
