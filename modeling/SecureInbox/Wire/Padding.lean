import SecureInbox.Wire.Error

/-! # Plaintext framing

Inside the box stands the type byte, the body, and padding: `n` bytes of value
`n`, with `n` from 1 to 255.  The padded plaintext has at least 32 bytes. -/
set_option autoImplicit false

namespace SecureInbox.Padding

/-- The least length of a padded plaintext. -/
def minimum : Nat := 32

/-- How many bytes the drawn number of padding bytes comes to. -/
def lengthFor (drawn plain : Nat) : Nat := if plain + drawn < minimum then minimum - plain else drawn

def pad (drawn : Nat) (plaintext : Bytes) : Bytes :=
  let n := lengthFor drawn plaintext.length
  plaintext ++ List.replicate n (UInt8.ofNat n)

def unpad (padded : Bytes) : Except PaddingError Bytes :=
  match padded.getLast? with
  | none => .error .emptyPlaintext
  | some last =>
    let n := last.toNat
    if n = 0 ∨ padded.length < n then .error (.badLength n padded.length)
    else if (padded.drop (padded.length - n)).all (· == last) then
      .ok (padded.take (padded.length - n))
    else .error .inconsistent

/-- Type byte and body, padded. -/
def encode (drawn : Nat) (typeByte : UInt8) (body : Bytes) : Bytes := pad drawn (typeByte :: body)

/-- The type byte and the body of a padded plaintext. -/
def decode (padded : Bytes) : Except PaddingError (UInt8 × Bytes) := do
  match ← unpad padded with
  | typeByte :: body => return (typeByte, body)
  | [] => throw .missingType

end SecureInbox.Padding
