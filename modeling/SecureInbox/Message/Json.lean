import SecureInbox.Json.Parser
import SecureInbox.Json.Printer
import SecureInbox.Message.Basic

/-! # The JSON form of messages

A body is a record told apart by its member `type`; identifiers and keys are
hexadecimal text.  The payload of a kind that exists only directly, or whose
payload is a record of its own, stands beside `type`; in a group it stands in a
member of its own.  Session envelopes keep byte strings as lists of numbers and
tell their frames apart by the member `frame`.

`Body.toJson` and `Message.toJson` write the members in a fixed order, and
`Body.ofNode?` and `Message.ofNode?` read them in any order. -/
set_option autoImplicit false

namespace SecureInbox

open Json (Node)
open Json.Node (Slot)

/-! ## Scalars -/

namespace Json

def hexText {n : Nat} (b : Block n) : Json := .string b.hex

def byteList (bytes : Bytes) : Json := .array (bytes.map fun b => Json.ofNat b.toNat)

def ofIdentity (i : Identity) : Json := .string i.text

def orNull {α : Type} (write : α → Json) : Option α → Json
  | some a => write a
  | none => .null

namespace Node

def hexBlock? (n : Nat) (node : Node) : Option (Block n) := node.text? >>= Block.ofHex?

/-- A list of exactly `n` bytes. -/
def byteBlock? (n : Nat) (node : Node) : Option (Block n) :=
  node.list? Node.byte? >>= Block.ofBytes?

def bytes? (node : Node) : Option Bytes := node.list? Node.byte?

def identity? (node : Node) : Option Identity := node.text? >>= Identity.ofText?

def instant? (node : Node) : Option Instant := node.text? >>= Instant.ofText?

end Node

end Json

/-! ## Payload records -/

namespace GroupRef

def toJson (g : GroupRef) : Json :=
  .object [("id", Json.hexText g.id), ("creator", Json.ofIdentity g.creator)]

def ofNode? (node : Node) : Option GroupRef := do
  match ← node.slots? ["id", "creator"] with
  | [id, creator] => return ⟨← id.required (Node.hexBlock? 8), ← creator.required Node.identity?⟩
  | _ => none

end GroupRef

namespace BlobRef

def fields (b : BlobRef) : List (String × Json) :=
  [("blob_id", Json.hexText b.id), ("size", Json.ofNat b.size.toNat), ("key", Json.hexText b.key)]

def ofNode? (node : Node) : Option BlobRef := do
  match ← node.slots? ["blob_id", "size", "key"] with
  | [id, size, key] =>
      return ⟨← id.required (Node.hexBlock? 16), ← size.required Node.word32?,
        ← key.required (Node.hexBlock? 32)⟩
  | _ => none

end BlobRef

namespace Image

def fields (i : Image) : List (String × Json) :=
  [("blob_id", Json.hexText i.id), ("size", Json.ofNat i.size.toNat),
    ("nonce", Json.hexText i.nonce)]

def ofNode? (node : Node) : Option Image := do
  match ← node.slots? ["blob_id", "size", "nonce"] with
  | [id, size, nonce] =>
      return ⟨← id.required (Node.hexBlock? 16), ← size.required Node.word32?,
        ← nonce.required (Node.hexBlock? 24)⟩
  | _ => none

end Image

namespace Video

def fields (v : Video) : List (String × Json) :=
  [("duration_secs", Json.ofNat v.seconds.toNat), ("video_blob_id", Json.hexText v.id),
    ("video_size", Json.ofNat v.size.toNat), ("thumbnail_blob_id", Json.hexText v.thumbnailId),
    ("thumbnail_size", Json.ofNat v.thumbnailSize.toNat), ("key", Json.hexText v.key)]

def ofNode? (node : Node) : Option Video := do
  match ← node.slots? ["duration_secs", "video_blob_id", "video_size", "thumbnail_blob_id",
      "thumbnail_size", "key"] with
  | [seconds, id, size, thumbnailId, thumbnailSize, key] =>
      return ⟨← seconds.required Node.word16?, ← id.required (Node.hexBlock? 16),
        ← size.required Node.word32?, ← thumbnailId.required (Node.hexBlock? 16),
        ← thumbnailSize.required Node.word32?, ← key.required (Node.hexBlock? 32)⟩
  | _ => none

end Video

namespace Audio

def fields (a : Audio) : List (String × Json) :=
  [("duration_secs", Json.ofNat a.seconds.toNat), ("blob_id", Json.hexText a.id),
    ("size", Json.ofNat a.size.toNat), ("key", Json.hexText a.key)]

def ofNode? (node : Node) : Option Audio := do
  match ← node.slots? ["duration_secs", "blob_id", "size", "key"] with
  | [seconds, id, size, key] =>
      return ⟨← seconds.required Node.word16?, ← id.required (Node.hexBlock? 16),
        ← size.required Node.word32?, ← key.required (Node.hexBlock? 32)⟩
  | _ => none

end Audio

namespace Location

def fields (l : Location) : List (String × Json) :=
  [("latitude", Json.ofFloat l.latitude), ("longitude", Json.ofFloat l.longitude)] ++
    optionalMember "accuracy" (l.accuracy.map Json.ofFloat) ++
    optionalMember "poi_name" (l.name.map .string) ++
    optionalMember "poi_address" (l.address.map .string)

def ofNode? (node : Node) : Option Location := do
  match ← node.slots? ["latitude", "longitude", "accuracy", "poi_name", "poi_address"] with
  | [latitude, longitude, accuracy, name, address] =>
      return ⟨← latitude.required Node.real?, ← longitude.required Node.real?,
        ← accuracy.optional Node.real?, ← name.optional Node.text?, ← address.optional Node.text?⟩
  | _ => none

end Location

/-! ## Envelopes -/

namespace VersionRange

def toJson (r : VersionRange) : Json :=
  .object [("min", Json.ofNat r.min.code.toNat), ("max", Json.ofNat r.max.code.toNat)]

def ofNode? (node : Node) : Option VersionRange := do
  match ← node.slots? ["min", "max"] with
  | [min, max] => return ⟨⟨← min.required Node.word16?⟩, ⟨← max.required Node.word16?⟩⟩
  | _ => none

end VersionRange

namespace Frame

def fieldMembers : Frame → List (String × Json)
  | .init versions key =>
      [("version_range", versions.toJson), ("ephemeral_public_key", Json.byteList key.bytes)]
  | .accept versions key =>
      [("version_range", versions.toJson), ("ephemeral_public_key", Json.byteList key.bytes)]
  | .reject id cause => [("rejected_message_id", Json.hexText id), ("cause", .string cause.tag)]
  | .terminate cause => [("cause", .string cause.tag)]
  | .encapsulated e =>
      [("dh_type", .string e.sealed.agreement.tag),
        ("counter", Json.ofNat e.sealed.counter.toNat),
        ("offered_version", Json.ofNat e.offered.code.toNat),
        ("applied_version", Json.ofNat e.applied.code.toNat),
        ("group_identity", Json.orNull GroupRef.toJson e.group),
        ("ciphertext", Json.byteList e.sealed.ciphertext)]

def toJson (f : Frame) : Json := .object (("frame", .string f.kindName) :: f.fieldMembers)

def kindNames : List String := ["init", "accept", "reject", "terminate", "encapsulated"]

/-- The kind of a frame, by its name or by its place among the names when the
record is nested in a body. -/
def kindOfTag? (nested : Bool) (tag : Node) : Option String :=
  match tag.text? with
  | some name => if name ∈ kindNames then some name else none
  | none => if nested then (tag.natural? 5).bind fun i => kindNames[i]? else none

def rangeOfNode? (rest : Node) : Option (VersionRange × Key) := do
  match ← rest.slots? ["version_range", "ephemeral_public_key"] with
  | [versions, key] =>
      return (← versions.required VersionRange.ofNode?, ← key.required (Node.byteBlock? 32))
  | _ => none

def cause? (node : Node) : Option Cause := node.choice? true Cause.ofTag?

def encapsulatedOfNode? (rest : Node) : Option Encapsulated := do
  match ← rest.slots? ["dh_type", "counter", "offered_version", "applied_version",
      "group_identity", "ciphertext"] with
  | [agreement, counter, offered, applied, group, ciphertext] =>
      let agreement ← agreement.required (Node.choice? true Agreement.ofTag?)
      let counter ← counter.required Node.word64?
      let offered ← offered.required Node.word16?
      let applied ← applied.required Node.word16?
      let group ← group.optional GroupRef.ofNode?
      let ciphertext ← ciphertext.required Node.bytes?
      return ⟨⟨agreement, counter, ciphertext⟩, ⟨offered⟩, ⟨applied⟩, group⟩
  | _ => none

def ofNode? (nested : Bool) (node : Node) : Option Frame := do
  let (tag, rest) ← node.tagged? "frame"
  match ← kindOfTag? nested tag with
  | "init" => (rangeOfNode? rest).map fun r => .init r.1 r.2
  | "accept" => (rangeOfNode? rest).map fun r => .accept r.1 r.2
  | "reject" =>
      match ← rest.slots? ["rejected_message_id", "cause"] with
      | [id, cause] => return .reject (← id.required (Node.hexBlock? 8)) (← cause.required cause?)
      | _ => none
  | "terminate" =>
      match ← rest.slots? ["cause"] with
      | [cause] => return .terminate (← cause.required cause?)
      | _ => none
  | _ => (encapsulatedOfNode? rest).map .encapsulated

end Frame

namespace Envelope

def fields (e : Envelope) : List (String × Json) :=
  [("session_id", Json.byteList e.session.bytes), ("frame", e.frame.toJson)]

def toJson (e : Envelope) : Json := .object e.fields

def ofNode? (nested : Bool) (node : Node) : Option Envelope := do
  match ← node.slots? ["session_id", "frame"] with
  | [session, frame] =>
      return ⟨← session.required (Node.byteBlock? 16), ← frame.required (Frame.ofNode? nested)⟩
  | _ => none

end Envelope

/-! ## Bodies -/

namespace Body

/-- Members that stand beside the tag, or in a group in a member of their own. -/
def placedFields (group : Option GroupRef) (name : String) (fields : List (String × Json)) :
    List (String × Json) :=
  match group with
  | none => fields
  | some g => [("group", g.toJson), (name, .object fields)]

def groupMember (group : Option GroupRef) : List (String × Json) :=
  optionalMember "group" (group.map GroupRef.toJson)

def fields : Body → List (String × Json)
  | .text g t => groupMember g ++ [("text", .string t)]
  | .image i => i.fields
  | .groupImage g i => [("group", g.toJson), ("image", .object i.fields)]
  | .location g l => placedFields g "location" l.fields
  | .video g v => placedFields g "video" v.fields
  | .audio g a => placedFields g "audio" a.fields
  | .ballotCreate g id ballot =>
      groupMember g ++ [("ballot_id", Json.hexText id), ("ballot", ballot)]
  | .ballotVote g creator id votes =>
      groupMember g ++ [("ballot_creator", Json.ofIdentity creator),
        ("ballot_id", Json.hexText id), ("votes", votes)]
  | .file g f => groupMember g ++ [("file", f)]
  | .contactSetPhoto p => p.fields
  | .contactDeletePhoto => []
  | .contactRequestPhoto => []
  | .groupCreate id members =>
      [("group_id", Json.hexText id), ("members", .array (members.map Json.ofIdentity))]
  | .groupRename id name => [("group_id", Json.hexText id), ("name", .string name)]
  | .groupLeave g => [("group", g.toJson)]
  | .groupCallStart g call => [("group", g.toJson), ("call", call)]
  | .groupSetPhoto id p => [("group_id", Json.hexText id), ("photo", .object p.fields)]
  | .groupRequestSync id => [("group_id", Json.hexText id)]
  | .groupDeletePhoto id => [("group_id", Json.hexText id)]
  | .callOffer c => c.fields
  | .callAnswer c => c.fields
  | .callCandidates c => c.fields
  | .callHangup c => c.fields
  | .callRinging c => c.fields
  | .receipt g type ids =>
      groupMember g ++ [("receipt_type", .string type.tag),
        ("message_ids", .array (ids.map Json.hexText))]
  | .reaction g id action emoji =>
      groupMember g ++ [("message_id", Json.hexText id), ("action", .string action.tag),
        ("emoji", .string emoji)]
  | .typing active => [("typing", .bool active)]
  | .edit g id t => groupMember g ++ [("message_id", Json.hexText id), ("text", .string t)]
  | .delete g id => groupMember g ++ [("message_id", Json.hexText id)]
  | .envelope e => e.fields
  | .empty => []
  | .authToken token => [("token", .string token)]
  | .unknown b bytes =>
      [("type_byte", Json.ofNat b.toNat), ("body", .string (Hex.encode bytes))]

def tagText (body : Body) : String := (body.kind?.map Kind.tag).getD "unknown"

def toJson (body : Body) : Json := .object (("type", .string body.tagText) :: body.fields)

/-- The fields of a record that may stand in a group; in a group the member
`group` comes first. -/
def groupSlots? (inGroup : Bool) (names : List String) (rest : Node) :
    Option (Option GroupRef × List Slot) := do
  if inGroup then
    match ← rest.slots? ("group" :: names) with
    | g :: slots => return (some (← g.required GroupRef.ofNode?), slots)
    | [] => none
  else return (none, ← rest.slots? names)

/-- A payload beside the tag, or in a group in the member `name`. -/
def payload? {α : Type} (inGroup : Bool) (name : String) (read : Node → Option α) (rest : Node) :
    Option (Option GroupRef × α) := do
  if inGroup then
    match ← rest.slots? ["group", name] with
    | [g, value] => return (some (← g.required GroupRef.ofNode?), ← value.required read)
    | _ => none
  else return (none, ← read rest)

/-- A record with the single member `group_id` or with one more. -/
def groupId? (rest : Node) : Option GroupId := do
  match ← rest.slots? ["group_id"] with
  | [id] => id.required (Node.hexBlock? 8)
  | _ => none

def groupIdAnd? {α : Type} (name : String) (read : Node → Option α) (rest : Node) :
    Option (GroupId × α) := do
  match ← rest.slots? ["group_id", name] with
  | [id, value] => return (← id.required (Node.hexBlock? 8), ← value.required read)
  | _ => none

def textOfNode? (inGroup : Bool) (rest : Node) : Option Body := do
  match ← groupSlots? inGroup ["text"] rest with
  | (g, [t]) => return .text g (← t.required Node.text?)
  | _ => none

def ballotOfNode? (inGroup : Bool) (rest : Node) : Option Body := do
  match ← groupSlots? inGroup ["ballot_id", "ballot"] rest with
  | (g, [id, ballot]) =>
      return .ballotCreate g (← id.required (Node.hexBlock? 8)) (← ballot.required Node.anyValue?)
  | _ => none

def voteOfNode? (inGroup : Bool) (rest : Node) : Option Body := do
  match ← groupSlots? inGroup ["ballot_creator", "ballot_id", "votes"] rest with
  | (g, [creator, id, votes]) =>
      return .ballotVote g (← creator.required Node.identity?) (← id.required (Node.hexBlock? 8))
        (← votes.required Node.anyValue?)
  | _ => none

def fileOfNode? (inGroup : Bool) (rest : Node) : Option Body := do
  match ← groupSlots? inGroup ["file"] rest with
  | (g, [f]) => return .file g (← f.required Node.anyValue?)
  | _ => none

def receiptOfNode? (inGroup : Bool) (rest : Node) : Option Body := do
  match ← groupSlots? inGroup ["receipt_type", "message_ids"] rest with
  | (g, [type, ids]) =>
      return .receipt g (← type.required (Node.choice? true ReceiptType.ofTag?))
        (← ids.required (Node.list? (Node.hexBlock? 8)))
  | _ => none

def reactionOfNode? (inGroup : Bool) (rest : Node) : Option Body := do
  match ← groupSlots? inGroup ["message_id", "action", "emoji"] rest with
  | (g, [id, action, emoji]) =>
      return .reaction g (← id.required (Node.hexBlock? 8))
        (← action.required (Node.choice? true ReactionAction.ofTag?)) (← emoji.required Node.text?)
  | _ => none

def editOfNode? (inGroup : Bool) (rest : Node) : Option Body := do
  match ← groupSlots? inGroup ["message_id", "text"] rest with
  | (g, [id, t]) => return .edit g (← id.required (Node.hexBlock? 8)) (← t.required Node.text?)
  | _ => none

def deleteOfNode? (inGroup : Bool) (rest : Node) : Option Body := do
  match ← groupSlots? inGroup ["message_id"] rest with
  | (g, [id]) => return .delete g (← id.required (Node.hexBlock? 8))
  | _ => none

def unknownOfNode? (rest : Node) : Option Body := do
  match ← rest.slots? ["type_byte", "body"] with
  | [b, bytes] =>
      return .unknown (← b.required Node.byte?)
        (← bytes.required fun node => node.text? >>= Hex.decode?)
  | _ => none

/-- A body without members.  Other members of an object are skipped; an array
holds nothing after the tag. -/
def bare? (body : Body) : Node → Option Body
  | .array (_ :: _) => none
  | _ => some body

/-- The body of a kind, from what stands beside the tag. -/
def ofKind? : Kind → Node → Option Body
  | .text => textOfNode? false
  | .image => fun rest => (Image.ofNode? rest).map .image
  | .location => fun rest => (Location.ofNode? rest).map (.location none)
  | .video => fun rest => (Video.ofNode? rest).map (.video none)
  | .audio => fun rest => (Audio.ofNode? rest).map (.audio none)
  | .ballotCreate => ballotOfNode? false
  | .ballotVote => voteOfNode? false
  | .file => fileOfNode? false
  | .contactSetPhoto => fun rest => (BlobRef.ofNode? rest).map .contactSetPhoto
  | .contactDeletePhoto => bare? .contactDeletePhoto
  | .contactRequestPhoto => bare? .contactRequestPhoto
  | .groupText => textOfNode? true
  | .groupLocation => fun rest =>
      (payload? true "location" Location.ofNode? rest).map fun r => .location r.1 r.2
  | .groupImage => fun rest => do
      match ← payload? true "image" BlobRef.ofNode? rest with
      | (some g, i) => return .groupImage g i
      | _ => none
  | .groupVideo => fun rest =>
      (payload? true "video" Video.ofNode? rest).map fun r => .video r.1 r.2
  | .groupAudio => fun rest =>
      (payload? true "audio" Audio.ofNode? rest).map fun r => .audio r.1 r.2
  | .groupFile => fileOfNode? true
  | .groupCreate => fun rest =>
      (groupIdAnd? "members" (Node.list? Node.identity?) rest).map fun r => .groupCreate r.1 r.2
  | .groupRename => fun rest =>
      (groupIdAnd? "name" Node.text? rest).map fun r => .groupRename r.1 r.2
  | .groupLeave => fun rest => do
      match ← rest.slots? ["group"] with
      | [g] => return .groupLeave (← g.required GroupRef.ofNode?)
      | _ => none
  | .groupCallStart => fun rest => do
      match ← payload? true "call" Node.anyValue? rest with
      | (some g, call) => return .groupCallStart g call
      | _ => none
  | .groupSetPhoto => fun rest =>
      (groupIdAnd? "photo" BlobRef.ofNode? rest).map fun r => .groupSetPhoto r.1 r.2
  | .groupRequestSync => fun rest => (groupId? rest).map .groupRequestSync
  | .groupBallotCreate => ballotOfNode? true
  | .groupBallotVote => voteOfNode? true
  | .groupDeletePhoto => fun rest => (groupId? rest).map .groupDeletePhoto
  | .voipCallOffer => fun rest => (CallOffer.ofNode? rest).map .callOffer
  | .voipCallAnswer => fun rest => (CallAnswer.ofNode? rest).map .callAnswer
  | .voipCallIceCandidate => fun rest => (CallCandidates.ofNode? rest).map .callCandidates
  | .voipCallHangup => fun rest => (CallRef.ofNode? rest).map .callHangup
  | .voipCallRinging => fun rest => (CallRef.ofNode? rest).map .callRinging
  | .deliveryReceipt => receiptOfNode? false
  | .groupDeliveryReceipt => receiptOfNode? true
  | .reaction => reactionOfNode? false
  | .groupReaction => reactionOfNode? true
  | .typingIndicator => fun rest => do
      match ← rest.slots? ["typing"] with
      | [active] => return .typing (← active.required Node.flag?)
      | _ => none
  | .edit => editOfNode? false
  | .delete => deleteOfNode? false
  | .groupEdit => editOfNode? true
  | .groupDelete => deleteOfNode? true
  | .forwardSecurity => fun rest => (Envelope.ofNode? true rest).map .envelope
  | .empty => bare? .empty
  | .authToken => fun rest => do
      match ← rest.slots? ["token"] with
      | [token] => return .authToken (← token.required Node.text?)
      | _ => none

/-- The body that a sound node stands for. -/
def ofNode? (node : Node) : Option Body := do
  let (tag, rest) ← node.tagged? "type"
  let name ← tag.text?
  if name = "unknown" then unknownOfNode? rest
  else
    let kind ← Kind.ofTag? name
    ofKind? kind rest

/-- The body in a node with the given room for nesting. -/
def ofNodeWithin? (room : Nat) (node : Node) : Option Body :=
  if node.isSound room then ofNode? node else none

/-- The body that a JSON text stands for. -/
def ofJsonText? (text : String) : Option Body :=
  Node.parseText? text >>= ofNodeWithin? Json.nestingLimit

/-- The body that a JSON value stands for. -/
def ofJson? (value : Json) : Option Body := ofNode? (Node.ofValue value)

end Body

/-! ## Messages -/

namespace Message

def toJson (m : Message) : Json :=
  .object ([("message_id", Json.hexText m.id), ("from_identity", Json.ofIdentity m.sender),
    ("to_identity", Json.ofIdentity m.receiver), ("date", .string m.date.text),
    ("flags", Json.ofNat m.flags.bits.toNat)] ++
    optionalMember "push_from_name" (m.name.map .string) ++ [("body", m.body.toJson)])

def ofNodeWithin? (room : Nat) (node : Node) : Option Message := do
  match ← node.slots? ["message_id", "from_identity", "to_identity", "date", "flags",
      "push_from_name", "body"] with
  | [id, sender, receiver, date, flags, name, body] =>
      return {
        id := ← id.required (Node.hexBlock? 8)
        sender := ← sender.required Node.identity?
        receiver := ← receiver.required Node.identity?
        date := ← date.required Node.instant?
        flags := ⟨← flags.required Node.byte?⟩
        name := ← name.optional Node.text?
        body := ← body.required (Body.ofNodeWithin? (room - 1)) }
  | _ => none

def ofJsonText? (text : String) : Option Message :=
  Node.parseText? text >>= ofNodeWithin? Json.nestingLimit

/-- The message that a JSON value stands for, whatever its nesting. -/
def ofJson? (value : Json) : Option Message :=
  ofNodeWithin? (Node.ofValue value).room (Node.ofValue value)

end Message

/-! ## Sameness -/

def Location.same (a b : Location) : Bool :=
  a.latitude.same b.latitude && a.longitude.same b.longitude &&
    (match a.accuracy, b.accuracy with
      | some x, some y => x.same y
      | none, none => true
      | _, _ => false) &&
    a.name == b.name && a.address == b.address

/-- Whether two bodies are the same, numbers being compared as numbers. -/
def Body.same : Body → Body → Bool
  | .location g a, .location h b => g == h && a.same b
  | a, b => a.toJson.same b.toJson

def Message.same (a b : Message) : Bool :=
  a.id == b.id && a.sender == b.sender && a.receiver == b.receiver && a.date == b.date &&
    a.flags == b.flags && a.name == b.name && a.body.same b.body

end SecureInbox
