import SecureInbox.Crypto.Error

/-! # Failures of the stores

One constructor for each cause, with its wording in `StoreError.message`. -/
set_option autoImplicit false

namespace SecureInbox

inductive StoreError where
  | vaultLocked
  | crypto (error : CryptoError)
  | malformedRecord
  | malformedText
  | unreadableFile
  | chainBroken (sequence : UInt64)
deriving DecidableEq

namespace StoreError

def message : StoreError → String
  | .vaultLocked => "Vault is locked, unlock before touching session state"
  | .crypto error => "Crypto error: " ++ error.message
  | .malformedRecord => "Serialisation error"
  | .malformedText => "Stored value is not valid base64"
  | .unreadableFile => "I/O error"
  | .chainBroken sequence => "Validation log chain broken at seq " ++ toString sequence

end StoreError

end SecureInbox
