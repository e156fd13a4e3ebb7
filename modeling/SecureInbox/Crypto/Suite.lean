import SecureInbox.Crypto.ChaCha
import SecureInbox.Crypto.Error
import SecureInbox.Crypto.Sha256
import SecureInbox.Crypto.X25519
import SecureInbox.Text.Utf8

/-! # The cryptographic suite

`Suite` names the primitives that the rest of the library uses, so that its laws
can be stated from the properties of the primitives: `Suite.Agrees` says that two
parties compute the same secret, `Suite.Opens` that what was encrypted decrypts.
`Suite.standard` is X25519, HKDF and HMAC over SHA-256, and XChaCha20-Poly1305. -/
set_option autoImplicit false

namespace SecureInbox

abbrev Key := Block 32

abbrev Nonce := Block 24

/-- Key agreement gives `none` when the result is the zero point. -/
structure Suite where
  publicKey : Key → Key
  agree? : (secret peer : Key) → Option Key
  derive : (salt material info : Bytes) → Key
  mac : (key message : Bytes) → Block 32
  encrypt : (key : Key) → (nonce : Nonce) → (plaintext aad : Bytes) → Bytes
  decrypt? : (key : Key) → (nonce : Nonce) → (ciphertext aad : Bytes) → Option Bytes

namespace Suite

def standard : Suite where
  publicKey secret := X25519.multiply secret X25519.basePoint
  agree? secret peer :=
    let shared := X25519.multiply secret peer
    if shared = Block.zero 32 then none else some shared
  derive := Hkdf.key
  mac := Hmac.tag
  encrypt := Aead.encrypt
  decrypt? := Aead.decrypt?

/-- The agreement does not depend on which of two parties computes it. -/
def Agrees (suite : Suite) : Prop :=
  ∀ a b : Key, suite.agree? a (suite.publicKey b) = suite.agree? b (suite.publicKey a)

/-- Decryption undoes encryption. -/
def Opens (suite : Suite) : Prop :=
  ∀ (key : Key) (nonce : Nonce) (plaintext aad : Bytes),
    suite.decrypt? key nonce (suite.encrypt key nonce plaintext aad) aad = some plaintext

/-- A ciphertext is longer than its plaintext by the tag. -/
def Tags (suite : Suite) : Prop :=
  ∀ (key : Key) (nonce : Nonce) (plaintext aad : Bytes),
    (suite.encrypt key nonce plaintext aad).length = plaintext.length + Aead.tagLength

/-- Encryption with the nonce in front. -/
def wrap (suite : Suite) (key : Key) (nonce : Nonce) (plaintext aad : Bytes) : Bytes :=
  nonce.bytes ++ suite.encrypt key nonce plaintext aad

/-- Decryption of what `wrap` produces. -/
def unwrap (suite : Suite) (key : Key) (wrapped aad : Bytes) : Except CryptoError Bytes :=
  match Block.ofBytes? (wrapped.take Aead.nonceLength) with
  | none => .error .notAuthentic
  | some nonce =>
    match suite.decrypt? key nonce (wrapped.drop Aead.nonceLength) aad with
    | some plaintext => .ok plaintext
    | none => .error .notAuthentic

/-- What is wrapped is decrypted as it was encrypted, under whatever key. -/
theorem unwrap_wrap_eq (suite : Suite) (key other : Key) (nonce : Nonce) (plaintext aad : Bytes) :
    suite.unwrap other (suite.wrap key nonce plaintext aad) aad =
      match suite.decrypt? other nonce (suite.encrypt key nonce plaintext aad) aad with
      | some plaintext => .ok plaintext
      | none => .error .notAuthentic := by
  have split : (nonce.bytes ++ suite.encrypt key nonce plaintext aad).take Aead.nonceLength =
      nonce.bytes := List.take_left' nonce.length_eq
  have rest : (nonce.bytes ++ suite.encrypt key nonce plaintext aad).drop Aead.nonceLength =
      suite.encrypt key nonce plaintext aad := List.drop_left' nonce.length_eq
  simp only [unwrap, wrap, split, rest, Block.ofBytes?_bytes]

theorem unwrap_wrap {suite : Suite} (opens : suite.Opens) (key : Key) (nonce : Nonce)
    (plaintext aad : Bytes) :
    suite.unwrap key (suite.wrap key nonce plaintext aad) aad = .ok plaintext := by
  rw [unwrap_wrap_eq, opens key nonce plaintext aad]

/-- The agreed secret, or the error that names whose key is at fault. -/
def agree (suite : Suite) (owner : KeyOwner) (secret peer : Key) : Except CryptoError Key :=
  match suite.agree? secret peer with
  | some shared => .ok shared
  | none => .error (.lowOrderKey owner)

/-- The next chain key of a ratchet. -/
def nextChainKey (suite : Suite) (chainKey : Key) : Key := suite.mac chainKey.bytes [0x01]

/-- The message key of a ratchet's position. -/
def messageKey (suite : Suite) (chainKey : Key) : Key := suite.mac chainKey.bytes [0x02]

/-- The trace that a nonce leaves: its keyed hash under the receiving identity. -/
def nonceHash (suite : Suite) (identity : String) (nonce : Bytes) : Block 32 :=
  suite.mac (Text.utf8 identity) nonce

/-! ## The crypto box -/

/-- The key of the box between two parties. -/
def boxKey (suite : Suite) (secret peer : Key) : Except CryptoError Key := do
  let shared ← suite.agree .peer secret peer
  return suite.derive (Text.utf8 "im-box-v1") shared.bytes (Text.utf8 "box")

def boxSeal (suite : Suite) (secret peer : Key) (nonce : Nonce) (plaintext : Bytes) :
    Except CryptoError Bytes := do
  let key ← suite.boxKey secret peer
  return suite.encrypt key nonce plaintext []

def boxOpen (suite : Suite) (secret peer : Key) (nonce : Nonce) (ciphertext : Bytes) :
    Except CryptoError Bytes := do
  let key ← suite.boxKey secret peer
  match suite.decrypt? key nonce ciphertext [] with
  | some plaintext => return plaintext
  | none => throw .notAuthentic

end Suite

end SecureInbox
