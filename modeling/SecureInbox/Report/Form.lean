import SecureInbox.Message.Content
import SecureInbox.Message.Json
import SecureInbox.Session.Json
import SecureInbox.Wire.Boxed
import SecureInbox.Wire.Padding

/-! # JSON forms for other programs

`Shown` says how a value is shown to other programs, and `Given` how a value is read
that they give.  Bytes are hexadecimal text, and what is absent is null. -/
set_option autoImplicit false

namespace SecureInbox

open Json (Node)

class Shown (α : Type) where
  shown : α → Json

export Shown (shown)

class Given (α : Type) where
  given? : Json → Option α

export Given (given?)

/-! ## Values shown -/

instance : Shown Json := ⟨id⟩
instance : Shown String := ⟨.string⟩
instance : Shown Bool := ⟨.bool⟩
instance : Shown Nat := ⟨Json.ofNat⟩
instance : Shown Int := ⟨Json.ofInt⟩
instance : Shown UInt8 := ⟨fun n => shown n.toNat⟩
instance : Shown UInt64 := ⟨fun n => shown n.toNat⟩
instance {α : Type} [Shown α] : Shown (Option α) := ⟨Json.orNull shown⟩
instance {α : Type} [Shown α] : Shown (List α) := ⟨fun xs => .array (xs.map shown)⟩
instance (priority := high) : Shown Bytes := ⟨fun bytes => shown (Hex.encode bytes)⟩
instance {n : Nat} : Shown (Block n) := ⟨fun b => shown b.hex⟩
instance : Shown Identity := ⟨fun i => shown i.text⟩
instance : Shown GroupRef := ⟨fun g => shown g.text⟩
instance : Shown Version := ⟨fun v => shown v.text⟩
instance : Shown VersionRange := ⟨fun r => shown [r.min, r.max]⟩
instance : Shown BlobRef := ⟨fun b => .object b.fields⟩
instance : Shown Body := ⟨Body.toJson⟩
instance : Shown Message := ⟨Message.toJson⟩

/-- A box without its content. -/
def Boxed.header (b : Boxed) : List (String × Json) := [
  ("from", shown b.sender), ("to", shown b.receiver), ("id", shown b.id),
  ("date", shown b.date.seconds), ("flags", shown b.flags.bits), ("name", shown b.name),
  ("metadata", shown b.metadata), ("nonce", shown b.nonce)]

instance : Shown Boxed := ⟨fun b => .object (b.header ++ [("box", shown b.content)])⟩

instance : Shown Kind :=
  ⟨fun k => .object [("name", shown k.name), ("display", shown k.title), ("debug", shown k.label),
    ("json", shown (shown k.label).compact), ("byte", shown k.byte)]⟩

/-- The flags that are set, and what they mean. -/
def Flags.summary (flags : Flags) : List (String × Json) := [
  ("names", shown flags.names), ("send_push", shown (flags.contains Flags.sendPush)),
  ("dont_ack", shown (flags.contains Flags.dontAck)), ("group", shown (flags.contains Flags.group)),
  ("immediate_delivery", shown (flags.contains Flags.immediateDelivery)),
  ("no_delivery_receipt", shown (flags.contains Flags.noDeliveryReceipt))]

/-- What a byte stands for in the fields that have tags for it. -/
def tagsOf (byte : UInt8) : Json :=
  let pair (tag : Option String) : Json := shown (tag.map fun t => Json.array [shown t, shown byte])
  .object [("receipt", pair ((ReceiptType.ofByte? byte).map ReceiptType.tag)),
    ("reaction", pair ((ReactionAction.ofByte? byte).map ReactionAction.tag)),
    ("cause", pair ((Cause.ofByte? byte).map Cause.tag)),
    ("dh_type", pair ((Agreement.ofByte? byte).map Agreement.tag))]

/-- What a text is as an identifier. -/
def IdentifierKind.summary (kind : IdentifierKind) (text : String) : Json :=
  .object ([("len", shown kind.size), ("from_slice", shown ((Hex.decode? text).map kind.fits))] ++
    match kind.ofText? text with
    | some bytes => [("display", shown bytes), ("debug", shown (kind.describe bytes)),
        ("json", shown (shown bytes).compact)]
    | none => [("rejected", shown true)])

/-- Whether a padded plaintext is as it has to be. -/
def Padding.summary (plaintext padded : Bytes) : Json :=
  let count := padded.length - plaintext.length
  .object [("starts_with_plaintext", shown (plaintext.isPrefixOf padded)),
    ("pad_in_range", shown (decide (0 < count ∧ count < 256))),
    ("at_least_minimum", shown (decide (Padding.minimum ≤ padded.length))),
    ("pad_bytes_equal_count", shown ((padded.drop plaintext.length).all fun b => b.toNat = count)),
    ("unpads", shown (match Padding.unpad padded with
      | .ok bytes => bytes == plaintext
      | .error _ => false))]

/-- A message and what the pipeline makes of it. -/
def Message.summary (m : Message) : List (String × Json) :=
  let bits := (List.range 8).filter fun i => m.flags.bits.toNat.testBit i
  [("message", shown m), ("json_text", shown m.toJson.compact),
    ("type_byte", shown m.body.typeByte), ("message_type", shown (m.body.kind?.map Kind.title)),
    ("group", shown m.group?), ("is_group", shown m.group?.isSome),
    ("is_group_control", shown m.isGroupControl),
    ("allows_without_fs", shown m.allowedOutsideSession),
    ("needs_blob_download", shown m.needsBlobs), ("flag_set", shown bits),
    ("valid", shown (m.hasValidContent .standard))]

/-- A session under a name; its keys only if it is shown in full. -/
def Session.summary (name : String) (full : Bool) (s : Session) : Json :=
  let ratchet (r : Option Ratchet) : Json :=
    Json.orNull (fun r : Ratchet =>
      if full then .object [("counter", shown r.counter), ("chain_key", shown r.chainKey)]
      else shown r.counter) r
  .object ([("id", shown name), ("my_identity", shown s.mine), ("peer_identity", shown s.peer),
    ("peer_public_key", shown s.peerKey), ("role", shown s.role.text),
    ("state", shown s.state.text), ("version", shown s.version),
    ("has_ephemeral", shown s.ephemeralSecret.isSome),
    ("peer_counter_2dh", shown (s.peerCounter .two)),
    ("peer_counter_4dh", shown (s.peerCounter .four)),
    ("my_2dh", ratchet s.myTwo), ("my_4dh", ratchet s.myFour),
    ("peer_2dh", ratchet s.peerTwo), ("peer_4dh", ratchet s.peerFour),
    ("debug", shown (s.describedAs name))] ++
    if full then [("my_ephemeral_secret", shown s.ephemeralSecret)] else [])

/-- The fields of a frame; a public key is not shown. -/
def Frame.summary : Frame → List (String × Json)
  | .init versions _ => [("versions", shown versions)]
  | .accept versions _ => [("versions", shown versions)]
  | .reject rejected cause => [("rejected", shown rejected), ("cause", shown cause.tag)]
  | .terminate cause => [("cause", shown cause.tag)]
  | .encapsulated content => [
      ("dh_type", shown content.sealed.agreement.byte), ("counter", shown content.sealed.counter),
      ("offered", shown content.offered), ("applied", shown content.applied),
      ("group", shown content.group)]

/-! ## Values given -/

instance : Given Json := ⟨some⟩
instance : Given String := ⟨fun v => (Node.ofValue v).text?⟩
instance : Given Bool := ⟨fun v => (Node.ofValue v).flag?⟩
instance : Given Nat := ⟨fun v => (Node.ofValue v).natural? UInt64.size⟩
instance : Given Int := ⟨fun | .number (.integer i) => some i | _ => none⟩
instance : Given UInt8 := ⟨fun v => (Node.ofValue v).byte?⟩
instance : Given UInt64 := ⟨fun v => (Node.ofValue v).word64?⟩
instance {α : Type} [Given α] : Given (List α) := ⟨fun | .array vs => vs.mapM given? | _ => none⟩
instance (priority := high) : Given Bytes := ⟨fun v => given? v >>= Hex.decode?⟩
instance {n : Nat} : Given (Block n) := ⟨fun v => given? v >>= Block.ofHex?⟩
instance : Given Identity := ⟨fun v => given? v >>= Identity.ofText?⟩
instance : Given GroupRef := ⟨fun v => GroupRef.ofNode? (Node.ofValue v)⟩
instance : Given Version := ⟨fun v => (Node.ofValue v).word16?.map Version.mk⟩
instance : Given Agreement := ⟨fun v => given? v >>= Agreement.ofByte?⟩
instance : Given Cause := ⟨fun v => given? v >>= Cause.ofTag?⟩

instance : Given IdentifierKind := ⟨fun v => do
  match (← given? v : String) with
  | "message" => return .message
  | "group" => return .group
  | "ballot" => return .ballot
  | "blob" => return .blob
  | _ => none⟩

instance : Given VersionRange := ⟨fun v => do
  return ⟨← v.member? "min" >>= given?, ← v.member? "max" >>= given?⟩⟩

instance {α : Type} [Given α] : Given (List (String × α)) :=
  ⟨fun
    | .object members => members.mapM fun m => (given? m.2).map (m.1, ·)
    | _ => none⟩

/-- A change of some members of an object. -/
def Json.changeMembers (names : List String) (change : Json → Json) : Json → Json
  | .object members => .object (members.map fun m => if m.1 ∈ names then (m.1, change m.2) else m)
  | other => other

/-- Bytes in hexadecimal as a list of numbers. -/
def Json.hexAsBytes (value : Json) : Json :=
  match (given? value : Option Bytes) with
  | some bytes => Json.byteList bytes
  | none => value

/-- The time at which a session was made unless it is given. -/
def Session.madeAt : Json → Json
  | .object members =>
    if (members.lookup "created_at").isSome then .object members
    else .object (members ++ [("created_at", shown "2024-01-01T00:00:00Z")])
  | other => other

/-- Sessions are given as they are stored, but with their bytes in hexadecimal. -/
instance : Given Session := ⟨fun v =>
  Session.ofJson? (Session.madeAt
    ((v.changeMembers ["id", "peer_public_key", "my_ephemeral_secret"] Json.hexAsBytes).changeMembers
      ["my_2dh", "my_4dh", "peer_2dh", "peer_4dh"] (Json.changeMembers ["chain_key"] Json.hexAsBytes)))⟩

/-- The member of an object, which is absent when it is null. -/
def Json.given? {α : Type} [Given α] (name : String) (value : Json) : Option (Option α) :=
  match value.member? name with
  | none => some none
  | some .null => some none
  | some given => (SecureInbox.given? given).map some

/-! ## Exact numbers -/

mutual
/-- The same value with its floating-point numbers as texts of their bits, since
other programs may round them. -/
def Json.exact : Json → Json
  | .number (.float x) => shown ("f64:" ++ Hex.encode (bigEndian 8 x.bits.toNat))
  | .array items => .array (exactItems items)
  | .object members => .object (exactMembers members)
  | other => other

def Json.exactItems : List Json → List Json
  | [] => []
  | item :: rest => item.exact :: exactItems rest

def Json.exactMembers : List (String × Json) → List (String × Json)
  | [] => []
  | (name, value) :: rest => (name, value.exact) :: exactMembers rest
end

end SecureInbox
