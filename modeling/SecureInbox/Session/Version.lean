import SecureInbox.Bytes.Basic

/-! # Protocol versions

A version is a major and a minor number in one word, ordered as words.
`VersionRange.negotiate` picks the highest version that two ranges share. -/
set_option autoImplicit false

namespace SecureInbox

/-- The major number in the high byte, the minor in the low. -/
structure Version where
  code : UInt16
deriving DecidableEq

namespace Version

def v1_0 : Version := ⟨0x0100⟩

def v1_2 : Version := ⟨0x0102⟩

def major (v : Version) : Nat := v.code.toNat / 256

def minor (v : Version) : Nat := v.code.toNat % 256

def ofParts (major minor : Nat) : Version := ⟨UInt16.ofNat (major * 256 + minor)⟩

def text (v : Version) : String := toString v.major ++ "." ++ toString v.minor

instance : LE Version := ⟨fun a b => a.code ≤ b.code⟩

instance (a b : Version) : Decidable (a ≤ b) := inferInstanceAs (Decidable (a.code ≤ b.code))

end Version

structure VersionRange where
  min : Version
  max : Version
deriving DecidableEq

namespace VersionRange

/-- The versions this library speaks. -/
def supported : VersionRange := ⟨Version.v1_0, Version.v1_2⟩

def contains (range : VersionRange) (v : Version) : Bool := range.min ≤ v && v ≤ range.max

/-- The highest version that both ranges contain. -/
def negotiate (ours theirs : VersionRange) : Option Version :=
  let low := if ours.min ≤ theirs.min then theirs.min else ours.min
  let high := if ours.max ≤ theirs.max then ours.max else theirs.max
  if low ≤ high then some high else none

end VersionRange

end SecureInbox
