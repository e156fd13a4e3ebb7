import SecureInbox.Bytes.Hex
import SecureInbox.Text.Utf8

/-! # Identities and identifiers

An identity is a handle of eight characters, each an upper-case letter, a digit
or an asterisk; the form is part of the type.  Messages, groups, ballots and
blobs have identifiers of fixed length.  A group is named by its creator together
with an identifier that the creator chose. -/
set_option autoImplicit false

namespace SecureInbox

/-- The bytes that a handle may hold. -/
def isHandleByte (b : UInt8) : Bool :=
  (0x41 ≤ b && b ≤ 0x5A) || (0x30 ≤ b && b ≤ 0x39) || b == 0x2A

structure Identity where
  handle : Block 8
  wellFormed : handle.bytes.all isHandleByte = true
deriving DecidableEq

namespace Identity

theorem ext_handle {a b : Identity} (h : a.handle = b.handle) : a = b := by
  cases a; cases b; cases h; rfl

def bytes (i : Identity) : Bytes := i.handle.bytes

/-- The identity with the given handle. -/
def ofBytes? (bytes : Bytes) : Option Identity :=
  if h : bytes.length = 8 then
    if w : bytes.all isHandleByte = true then some ⟨⟨bytes, h⟩, w⟩ else none
  else none

def ofText? (text : String) : Option Identity := ofBytes? (Text.utf8 text)

/-- The handle as text; its bytes are ASCII. -/
def text (i : Identity) : String := String.ofList (i.bytes.map fun b => Char.ofNat b.toNat)

theorem length_bytes (i : Identity) : i.bytes.length = 8 := i.handle.length_eq

theorem ofBytes?_bytes (i : Identity) : ofBytes? i.bytes = some i := by
  have h : i.bytes.length = 8 := i.handle.length_eq
  have w : i.bytes.all isHandleByte = true := i.wellFormed
  rw [ofBytes?, dif_pos h, dif_pos w]
  rfl

theorem bytes_of_ofBytes? {bytes : Bytes} {i : Identity} (h : ofBytes? bytes = some i) :
    i.bytes = bytes := by
  unfold ofBytes? at h
  split at h
  · split at h
    · cases h; rfl
    · cases h
  · cases h

theorem toNat_ofNat_byte (b : UInt8) : (Char.ofNat b.toNat).toNat = b.toNat := by
  have valid : b.toNat.isValidChar := by
    have small : b.toNat < 256 := b.toNat_lt
    exact .inl (by omega)
  rw [Char.ofNat, dif_pos valid]
  rfl

/-- Identities that are written alike are the same. -/
theorem text_injective {a b : Identity} (same : a.text = b.text) : a = b := by
  have apart : ∀ x y : UInt8, Char.ofNat x.toNat = Char.ofNat y.toNat → x = y := by
    intro x y same
    have numbers := congrArg Char.toNat same
    rw [toNat_ofNat_byte, toNat_ofNat_byte] at numbers
    exact UInt8.toNat_inj.mp numbers
  apply ext_handle
  apply Block.ext_bytes
  exact (List.map_inj_right apart).mp (String.ofList_injective same)

end Identity

abbrev MessageId := Block 8

abbrev GroupId := Block 8

abbrev BallotId := Block 8

abbrev BlobId := Block 16

/-- A group, by its creator and the identifier the creator gave it. -/
structure GroupRef where
  id : GroupId
  creator : Identity
deriving DecidableEq

def GroupRef.text (g : GroupRef) : String := g.creator.text ++ "/" ++ g.id.hex

/-- What an identifier identifies. -/
inductive IdentifierKind where
  | message
  | group
  | ballot
  | blob
deriving DecidableEq

namespace IdentifierKind

def size : IdentifierKind → Nat
  | .blob => 16
  | _ => 8

def label : IdentifierKind → String
  | .message => "MessageId"
  | .group => "GroupId"
  | .ballot => "BallotId"
  | .blob => "BlobId"

/-- An identifier with the kind it has, for diagnostics. -/
def describe (kind : IdentifierKind) (bytes : Bytes) : String :=
  kind.label ++ "(" ++ Hex.encode bytes ++ ")"

/-- Whether bytes have the length of an identifier of this kind. -/
def fits (kind : IdentifierKind) (bytes : Bytes) : Bool := bytes.length == kind.size

/-- The identifier that a text writes in hexadecimal. -/
def ofText? (kind : IdentifierKind) (text : String) : Option Bytes :=
  (Hex.decode? text).filter kind.fits

end IdentifierKind

end SecureInbox
