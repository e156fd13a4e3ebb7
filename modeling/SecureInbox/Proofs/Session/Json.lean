import SecureInbox.Proofs.Rejection.Record
import SecureInbox.Store.Sessions

/-! # Sessions read back

A session is written as an object of thirteen members, and all but the time of its creation are
read as they were whatever that time is (`ofJsonBytes?_toJson`).  So a session whose time has a
written form comes back whole (`Keeps.of_inCalendar`), and what comes back is filed under the
same key in any case (`fileKey_of_read`). -/
set_option autoImplicit false

namespace SecureInbox

open Json (Node)
open Json.Node (slot)

theorem readsBack_block (n : Nat) :
    ReadsBack (fun b : Block n => Json.byteList b.bytes) (Node.byteBlock? n) where
  whole b := (readsBack_list readsBack_byte).whole b.bytes
  same b := by
    have bytes := (readsBack_list readsBack_byte).same b.bytes
    simp only [Node.byteBlock?, Json.byteList, bytes, Option.bind_eq_bind, Option.bind_some,
      Block.ofBytes?_bytes]

theorem readsBack_word16 : ReadsBack (fun w : UInt16 => Json.ofNat w.toNat) Node.word16? where
  whole w := isWhole_ofNat (Nat.lt_trans w.toNat_lt (by decide))
  same := Json.Node.word16?_ofValue

theorem SessionRole.readsBack :
    ReadsBack (fun r : SessionRole => .string r.text) (Node.choice? false SessionRole.ofText?) :=
  ⟨fun _ => trivial, SessionRole.ofText?_text⟩

theorem SessionState.readsBack :
    ReadsBack (fun s : SessionState => .string s.text) (Node.choice? false SessionState.ofText?) :=
  ⟨fun _ => trivial, SessionState.ofText?_text⟩

namespace Ratchet

def entries (r : Ratchet) : List (String × Option Json) :=
  [("counter", some (Json.ofNat r.counter.toNat)), ("chain_key", some (Json.byteList r.chainKey.bytes))]

theorem toJson_eq (r : Ratchet) : r.toJson = .object (membersOf r.entries) := rfl

theorem isWhole_toJson (r : Ratchet) : r.toJson.IsWhole := by
  have counter := Record.readsBack_word64.whole r.counter
  have key := (readsBack_block 32).whole r.chainKey
  simp only [toJson, Json.IsWhole, Json.MembersWhole]
  exact ⟨counter, key, trivial⟩

theorem readsBack : ReadsBack toJson ofNode? where
  whole := isWhole_toJson
  same r := by
    have distinct : (r.entries.map Prod.fst).Nodup := by simp [entries]
    have slots : Node.slots? ["counter", "chain_key"] _ = _ := slots?_membersOf distinct
    have counter := Json.Node.required_slot Record.readsBack_word64.same r.counter
    have key := Json.Node.required_slot (readsBack_block 32).same r.chainKey
    rw [toJson_eq, ofNode?, slots, Option.bind_eq_bind, Option.bind_some]
    simp only [entries, List.map_cons, List.map_nil]
    rw [counter, Option.bind_eq_bind, Option.bind_some, key]
    rfl

end Ratchet

namespace Session

def entries (s : Session) : List (String × Option Json) := [
  ("id", some (Json.byteList s.id.bytes)),
  ("my_identity", some (.string s.mine)),
  ("peer_identity", some (.string s.peer)),
  ("peer_public_key", some (Json.byteList s.peerKey.bytes)),
  ("role", some (.string s.role.text)),
  ("state", some (.string s.state.text)),
  ("version", some (Json.ofNat s.version.code.toNat)),
  ("my_ephemeral_secret", some (Json.orNull (fun k : Key => Json.byteList k.bytes) s.ephemeralSecret)),
  ("my_2dh", some (Json.orNull Ratchet.toJson s.myTwo)),
  ("my_4dh", some (Json.orNull Ratchet.toJson s.myFour)),
  ("peer_2dh", some (Json.orNull Ratchet.toJson s.peerTwo)),
  ("peer_4dh", some (Json.orNull Ratchet.toJson s.peerFour)),
  ("created_at", some (.string s.created.text))]

theorem toJson_eq (s : Session) : s.toJson = .object (membersOf s.entries) := rfl

theorem isWhole_toJson (s : Session) : s.toJson.IsWhole := by
  have ratchet := Record.isWhole_orNull Ratchet.isWhole_toJson
  have block (n : Nat) := (readsBack_block n).whole
  have secret := Record.isWhole_orNull (readsBack_block 32).whole
  have version := readsBack_word16.whole
  simp only [toJson, Json.IsWhole, Json.MembersWhole]
  exact ⟨block 16 _, trivial, trivial, block 32 _, trivial, trivial, version _, secret _, ratchet _,
    ratchet _, ratchet _, ratchet _, trivial, trivial⟩

theorem slots?_toJson (s : Session) : (Node.ofValue s.toJson).slots? ["id", "my_identity",
    "peer_identity", "peer_public_key", "role", "state", "version", "my_ephemeral_secret", "my_2dh",
    "my_4dh", "peer_2dh", "peer_4dh", "created_at"] = some (s.entries.map fun e => slot e.2) := by
  have distinct : (s.entries.map Prod.fst).Nodup := by
    simp only [entries, List.map_cons, List.map_nil]
    decide
  rw [toJson_eq]
  exact slots?_membersOf distinct

theorem ofNode?_toJson (s : Session) : ofNode? (Node.ofValue s.toJson) =
    (Instant.ofText? s.created.text).map fun created => { s with created } := by
  have id := Json.Node.required_slot (readsBack_block 16).same s.id
  have peerKey := Json.Node.required_slot (readsBack_block 32).same s.peerKey
  have text := Json.Node.required_slot readsBack_text.same
  have role := Json.Node.required_slot SessionRole.readsBack.same s.role
  have state := Json.Node.required_slot SessionState.readsBack.same s.state
  have version := Json.Node.required_slot readsBack_word16.same s.version.code
  have secret := Record.optional_orNull (readsBack_block 32) rfl s.ephemeralSecret
  have ratchet := Record.optional_orNull Ratchet.readsBack rfl
  have created : (slot (some (.string s.created.text))).required Node.instant? =
      Instant.ofText? s.created.text := by
    rw [Record.required_some, Node.ofValue, Node.instant?, Node.text?, Option.bind_eq_bind,
      Option.bind_some]
  rw [ofNode?, slots?_toJson, Option.bind_eq_bind, Option.bind_some]
  simp only [entries, List.map_cons, List.map_nil]
  rw [id, Option.bind_eq_bind, Option.bind_some, text, Option.bind_eq_bind, Option.bind_some, text,
    Option.bind_eq_bind, Option.bind_some, peerKey, Option.bind_eq_bind, Option.bind_some, role,
    Option.bind_eq_bind, Option.bind_some, state, Option.bind_eq_bind, Option.bind_some, version]
  simp only [Option.bind_eq_bind, Option.bind_some, secret, ratchet, created]
  cases Instant.ofText? s.created.text <;> rfl

/-- A session is read from its text as it was, but for the time of its creation, which is read
from its own text. -/
theorem ofJsonBytes?_toJson (s : Session) : ofJsonBytes? (Text.utf8 s.toJson.compact) =
    (Instant.ofText? s.created.text).map fun created => { s with created } := by
  rw [ofJsonBytes?, Json.parse?_compact s.isWhole_toJson, Option.bind_eq_bind, Option.bind_some,
    ofNode?_toJson]

def Keeps (s : Session) : Prop := ofJsonBytes? (Text.utf8 s.toJson.compact) = some s

theorem Keeps.of_inCalendar {s : Session} (inCalendar : s.created.InCalendar) : s.Keeps := by
  rw [Keeps, ofJsonBytes?_toJson, Instant.ofText?_text inCalendar]
  rfl

/-- A session that is read is filed where it was. -/
theorem fileKey_of_read {s t : Session} (read : ofJsonBytes? (Text.utf8 s.toJson.compact) = some t) :
    t.fileKey = s.fileKey := by
  rw [ofJsonBytes?_toJson] at read
  obtain ⟨created, -, rfl⟩ := Option.map_eq_some_iff.1 read
  rfl

end Session

end SecureInbox
