import SecureInbox.Message.Json

/-! # The JSON form of sessions

A session is stored as a record of its fields, with secrets and keys as lists of
numbers and an absent ratchet or secret as `null`. -/
set_option autoImplicit false

namespace SecureInbox

open Json (Node)
open Json.Node (Slot)

namespace Ratchet

def toJson (r : Ratchet) : Json :=
  .object [("counter", Json.ofNat r.counter.toNat), ("chain_key", Json.byteList r.chainKey.bytes)]

def ofNode? (node : Node) : Option Ratchet := do
  match ← node.slots? ["counter", "chain_key"] with
  | [counter, key] =>
      return ⟨← counter.required Node.word64?, ← key.required (Node.byteBlock? 32)⟩
  | _ => none

end Ratchet

def SessionRole.ofText? (text : String) : Option SessionRole :=
  [.initiator, .responder].find? fun r => r.text == text

def SessionState.ofText? (text : String) : Option SessionState :=
  [.none, .l20, .l40, .exhausted].find? fun s => s.text == text

theorem SessionRole.ofText?_text (r : SessionRole) : ofText? r.text = some r := by
  cases r <;> decide

theorem SessionState.ofText?_text (s : SessionState) : ofText? s.text = some s := by
  cases s <;> decide

namespace Session

def toJson (s : Session) : Json := .object [
  ("id", Json.byteList s.id.bytes),
  ("my_identity", .string s.mine),
  ("peer_identity", .string s.peer),
  ("peer_public_key", Json.byteList s.peerKey.bytes),
  ("role", .string s.role.text),
  ("state", .string s.state.text),
  ("version", Json.ofNat s.version.code.toNat),
  ("my_ephemeral_secret", Json.orNull (fun k => Json.byteList k.bytes) s.ephemeralSecret),
  ("my_2dh", Json.orNull Ratchet.toJson s.myTwo),
  ("my_4dh", Json.orNull Ratchet.toJson s.myFour),
  ("peer_2dh", Json.orNull Ratchet.toJson s.peerTwo),
  ("peer_4dh", Json.orNull Ratchet.toJson s.peerFour),
  ("created_at", .string s.created.text)]

def ofNode? (node : Node) : Option Session := do
  match ← node.slots? ["id", "my_identity", "peer_identity", "peer_public_key", "role", "state",
      "version", "my_ephemeral_secret", "my_2dh", "my_4dh", "peer_2dh", "peer_4dh",
      "created_at"] with
  | [id, mine, peer, peerKey, role, state, version, secret, myTwo, myFour, peerTwo, peerFour,
      created] =>
      return {
        id := ← id.required (Node.byteBlock? 16)
        mine := ← mine.required Node.text?
        peer := ← peer.required Node.text?
        peerKey := ← peerKey.required (Node.byteBlock? 32)
        role := ← role.required (Node.choice? false SessionRole.ofText?)
        state := ← state.required (Node.choice? false SessionState.ofText?)
        version := ⟨← version.required Node.word16?⟩
        ephemeralSecret := ← secret.optional (Node.byteBlock? 32)
        myTwo := ← myTwo.optional Ratchet.ofNode?
        myFour := ← myFour.optional Ratchet.ofNode?
        peerTwo := ← peerTwo.optional Ratchet.ofNode?
        peerFour := ← peerFour.optional Ratchet.ofNode?
        created := ← created.required Node.instant? }
  | _ => none

/-- The session that a JSON text stands for. -/
def ofJsonBytes? (bytes : Bytes) : Option Session := Node.parse? bytes >>= ofNode?

def ofJson? (value : Json) : Option Session := ofNode? (Node.ofValue value)

end Session

end SecureInbox
