import SecureInbox.Bytes.Basic

/-! # Failures of the cryptographic layer

One constructor for each cause, with its wording in `CryptoError.message`. -/
set_option autoImplicit false

namespace SecureInbox

/-- Whose key was of low order in a key agreement. -/
inductive KeyOwner where
  | peer
  | ephemeral
deriving DecidableEq

/-- The ratchet that an operation needs. -/
inductive RatchetName where
  | outgoing
  | twoParty
  | fourParty
deriving DecidableEq

def RatchetName.text : RatchetName → String
  | .outgoing => "outgoing"
  | .twoParty => "2DH"
  | .fourParty => "4DH"

inductive CryptoError where
  | notAuthentic
  | tooMuchOutput
  | lowOrderKey (owner : KeyOwner)
  | ratchetBehind (current requested : UInt64)
  | skipTooLarge (turns limit : UInt64)
  | missingRatchet (name : RatchetName)
  | wrongState (state : String)
deriving DecidableEq

namespace CryptoError

def message : CryptoError → String
  | .notAuthentic => "AEAD decryption failed (authentication tag mismatch)"
  | .tooMuchOutput => "Key derivation failed: invalid number of blocks, too large output"
  | .lowOrderKey .peer => "Invalid key material: low-order peer public key"
  | .lowOrderKey .ephemeral => "Invalid key material: low-order ephemeral key"
  | .ratchetBehind current requested =>
      "Ratchet counter " ++ toString requested ++ " is behind the current position "
        ++ toString current
  | .skipTooLarge turns limit =>
      "Ratchet would skip " ++ toString turns ++ " steps (limit " ++ toString limit ++ ")"
  | .missingRatchet name => "No " ++ name.text ++ " ratchet available in this session"
  | .wrongState state => "Session is in state " ++ state ++ " and cannot perform this step"

end CryptoError

end SecureInbox
