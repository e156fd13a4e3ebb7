import SecureInbox.Session.Envelope
import SecureInbox.Wire.Reader

/-! # Envelopes on the wire

A session identifier, a frame byte, and the fields of the frame.  A group is
written after a flag byte, creator first.  The ciphertext takes the rest and is
not empty. -/
set_option autoImplicit false

namespace SecureInbox

namespace Frame

def rangeReader : Reader (VersionRange × Key) := do
  Reader.require 36 "fs version range"
  let min ← Reader.word16 "min version"
  let max ← Reader.word16 "max version"
  if max < min then throw (.invalidField (.invertedRange ⟨min⟩ ⟨max⟩))
  let key ← Reader.block 32 "ephemeral key"
  return (⟨⟨min⟩, ⟨max⟩⟩, key)

def groupReader : Reader (Option GroupRef) := do
  let flag ← Reader.byte "group flag"
  if flag = 0 then return none
  else if flag = 1 then
    Reader.require 16 "fs group identity"
    return some (← Reader.group)
  else throw (.invalidField (.unknownByte "group_flag" flag))

def encapsulatedReader : Reader Encapsulated := do
  Reader.require 14 "fs encapsulated header"
  let agreement ← Reader.coded "dh_type" "dh type" Agreement.ofByte?
  let counter ← Reader.word64 "counter"
  let offered ← Reader.word16 "offered version"
  let applied ← Reader.word16 "applied version"
  let group ← groupReader
  let ciphertext ← Reader.someRest "fs ciphertext"
  return ⟨⟨agreement, counter, ciphertext⟩, ⟨offered⟩, ⟨applied⟩, group⟩

def reader : Reader Frame := do
  let kind ← Reader.byte "frame type"
  if kind = 1 then
    let (versions, key) ← rangeReader
    return .init versions key
  else if kind = 2 then
    let (versions, key) ← rangeReader
    return .accept versions key
  else if kind = 3 then
    Reader.require 9 "fs reject"
    let id ← Reader.block 8 "message id"
    return .reject id (← Reader.coded "cause" "cause" Cause.ofByte?)
  else if kind = 4 then
    return .terminate (← Reader.coded "cause" "fs terminate" Cause.ofByte?)
  else if kind = 5 then
    return .encapsulated (← encapsulatedReader)
  else throw (.invalidField (.unknownByte "frame_type" kind))

def groupBytes (g : GroupRef) : Bytes := g.creator.bytes ++ g.id.bytes

def fields : Frame → Bytes
  | .init versions key => bytes16 versions.min.code ++ bytes16 versions.max.code ++ key.bytes
  | .accept versions key => bytes16 versions.min.code ++ bytes16 versions.max.code ++ key.bytes
  | .reject id cause => id.bytes ++ [cause.byte]
  | .terminate cause => [cause.byte]
  | .encapsulated e =>
      e.sealed.agreement.byte :: (bytes64 e.sealed.counter ++ bytes16 e.offered.code ++
        bytes16 e.applied.code ++
        (match e.group with
          | some g => 1 :: groupBytes g
          | none => [0]) ++
        e.sealed.ciphertext)

end Frame

namespace Envelope

def encode (e : Envelope) : Bytes := e.session.bytes ++ e.frame.kindByte :: e.frame.fields

def reader : Reader Envelope := do
  Reader.require 17 "fs envelope header"
  let session ← Reader.block 16 "session id"
  return ⟨session, ← Frame.reader⟩

def decode (bytes : Bytes) : Except DecodeError Envelope := reader.result bytes

end Envelope

end SecureInbox
