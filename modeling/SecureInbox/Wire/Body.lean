import SecureInbox.Json.Printer
import SecureInbox.Message.Basic
import SecureInbox.Wire.Envelope
import SecureInbox.Wire.Location

/-! # Bodies on the wire

`Body.decode` reads a body by its type byte and `Body.encode` writes it.  A body
in a group starts with the group's creator and identifier; a change made by or
sent to the creator starts with the identifier alone.  What follows the last
field of a fixed layout is ignored. -/
set_option autoImplicit false

namespace SecureInbox.Body

open Reader

def blobReader : Reader BlobRef := do
  return ⟨← block 16 "blob id", ← word32 "blob size", ← block 32 "blob key"⟩

def imageReader : Reader Image := do
  return ⟨← block 16 "image blob id", ← word32 "image size", ← block 24 "image nonce"⟩

def videoReader : Reader Video := do
  return ⟨← word16 "video duration", ← block 16 "video blob id", ← word32 "video size",
    ← block 16 "thumbnail blob id", ← word32 "thumbnail size", ← block 32 "video key"⟩

def audioReader : Reader Audio := do
  return ⟨← word16 "audio duration", ← block 16 "audio blob id", ← word32 "audio size",
    ← block 32 "audio key"⟩

def locationReader : Reader Location := do
  Location.parse (← Reader.text "location")

def valueReader : Reader Json := Reader.json (Json.Node.value? Json.nestingLimit)

def groupIdReader : Reader GroupId := block 8 "group id"

def ballotIdReader : Reader BallotId := block 8 "ballot id"

def messageIdReader : Reader MessageId := block 8 "message id"

/-- A group in front, for the kinds that stand in one. -/
def groupReader (inGroup : Bool) : Reader (Option GroupRef) := do
  if inGroup then return some (← Reader.group) else return none

def textReader (inGroup : Bool) : Reader Body := do
  let g ← groupReader inGroup
  return .text g (← Reader.text (if inGroup then "group text" else "text"))

def locatedReader (inGroup : Bool) : Reader Body := do
  let g ← groupReader inGroup
  return .location g (← locationReader)

def ballotReader (inGroup : Bool) : Reader Body := do
  let g ← groupReader inGroup
  let id ← ballotIdReader
  return .ballotCreate g id (← valueReader)

def voteReader (inGroup : Bool) : Reader Body := do
  let g ← groupReader inGroup
  let creator ← Reader.identity "ballot creator"
  let id ← ballotIdReader
  return .ballotVote g creator id (← valueReader)

def receiptReader (inGroup : Bool) : Reader Body := do
  let g ← groupReader inGroup
  let type ← coded "receipt_type" "receipt type" ReceiptType.ofByte?
  return .receipt g type (← pieces "message_ids")

def reactionReader (inGroup : Bool) : Reader Body := do
  let g ← groupReader inGroup
  let id ← messageIdReader
  let action ← coded "action" "reaction action" ReactionAction.ofByte?
  return .reaction g id action (← Reader.text "reaction emoji")

def editReader (inGroup : Bool) : Reader Body := do
  let g ← groupReader inGroup
  let id ← messageIdReader
  return .edit g id (← Reader.text (if inGroup then "group edit text" else "edit text"))

def deleteReader (inGroup : Bool) : Reader Body := do
  let g ← groupReader inGroup
  return .delete g (← messageIdReader)

def membersReader : Reader (List Identity) := do
  (← pieces "members").mapM fun b => (toIdentity b.bytes : Except DecodeError Identity)

/-- The reader of the bodies of a kind. -/
def reader : Kind → Reader Body
  | .text => textReader false
  | .image => do return .image (← imageReader)
  | .location => locatedReader false
  | .video => do return .video none (← videoReader)
  | .audio => do return .audio none (← audioReader)
  | .ballotCreate => ballotReader false
  | .ballotVote => voteReader false
  | .file => do return .file none (← valueReader)
  | .contactSetPhoto => do return .contactSetPhoto (← blobReader)
  | .contactDeletePhoto => return .contactDeletePhoto
  | .contactRequestPhoto => return .contactRequestPhoto
  | .groupText => textReader true
  | .groupLocation => locatedReader true
  | .groupImage => do
      let g ← Reader.group
      return .groupImage g (← blobReader)
  | .groupVideo => do
      let g ← Reader.group
      return .video (some g) (← videoReader)
  | .groupAudio => do
      let g ← Reader.group
      return .audio (some g) (← audioReader)
  | .groupFile => do
      let g ← Reader.group
      return .file (some g) (← valueReader)
  | .groupCreate => do
      let id ← groupIdReader
      return .groupCreate id (← membersReader)
  | .groupRename => do
      let id ← groupIdReader
      return .groupRename id (← Reader.text "group name")
  | .groupLeave => do return .groupLeave (← Reader.group)
  | .groupCallStart => do
      let g ← Reader.group
      return .groupCallStart g (← valueReader)
  | .groupSetPhoto => do
      let id ← groupIdReader
      return .groupSetPhoto id (← blobReader)
  | .groupRequestSync => do return .groupRequestSync (← groupIdReader)
  | .groupBallotCreate => ballotReader true
  | .groupBallotVote => voteReader true
  | .groupDeletePhoto => do return .groupDeletePhoto (← groupIdReader)
  | .voipCallOffer => do return .callOffer (← Reader.json CallOffer.ofNode?)
  | .voipCallAnswer => do return .callAnswer (← Reader.json CallAnswer.ofNode?)
  | .voipCallIceCandidate => do return .callCandidates (← Reader.json CallCandidates.ofNode?)
  | .voipCallHangup => do return .callHangup (← Reader.json CallRef.ofNode?)
  | .voipCallRinging => do return .callRinging (← Reader.json CallRef.ofNode?)
  | .deliveryReceipt => receiptReader false
  | .groupDeliveryReceipt => receiptReader true
  | .reaction => reactionReader false
  | .groupReaction => reactionReader true
  | .typingIndicator => do return .typing ((← byte "typing flag") != 0)
  | .edit => editReader false
  | .delete => deleteReader false
  | .groupEdit => editReader true
  | .groupDelete => deleteReader true
  | .forwardSecurity => do return .envelope (← Envelope.reader)
  | .empty => return .empty
  | .authToken => do return .authToken (← Reader.text "auth token")

/-- The body with the given type byte; an unknown type byte keeps its bytes. -/
def decode (typeByte : UInt8) (content : Bytes) : Except DecodeError Body :=
  match Kind.ofByte? typeByte with
  | some kind => (reader kind).result content
  | none => .ok (.unknown typeByte content)

def groupBytes (group : Option GroupRef) : Bytes := (group.map Frame.groupBytes).getD []

def blobBytes (b : BlobRef) : Bytes := b.id.bytes ++ bytes32 b.size ++ b.key.bytes

def imageBytes (i : Image) : Bytes := i.id.bytes ++ bytes32 i.size ++ i.nonce.bytes

def videoBytes (v : Video) : Bytes :=
  bytes16 v.seconds ++ v.id.bytes ++ bytes32 v.size ++ v.thumbnailId.bytes ++
    bytes32 v.thumbnailSize ++ v.key.bytes

def audioBytes (a : Audio) : Bytes :=
  bytes16 a.seconds ++ a.id.bytes ++ bytes32 a.size ++ a.key.bytes

def jsonBytes (value : Json) : Bytes := Text.utf8 value.compact

/-- The bytes of a body after its type byte. -/
def content : Body → Bytes
  | .text g t => groupBytes g ++ Text.utf8 t
  | .image i => imageBytes i
  | .groupImage g i => Frame.groupBytes g ++ blobBytes i
  | .location g l => groupBytes g ++ Text.utf8 l.render
  | .video g v => groupBytes g ++ videoBytes v
  | .audio g a => groupBytes g ++ audioBytes a
  | .ballotCreate g id ballot => groupBytes g ++ id.bytes ++ jsonBytes ballot
  | .ballotVote g creator id votes => groupBytes g ++ creator.bytes ++ id.bytes ++ jsonBytes votes
  | .file g f => groupBytes g ++ jsonBytes f
  | .contactSetPhoto p => blobBytes p
  | .contactDeletePhoto => []
  | .contactRequestPhoto => []
  | .groupCreate id members => id.bytes ++ members.flatMap Identity.bytes
  | .groupRename id name => id.bytes ++ Text.utf8 name
  | .groupLeave g => Frame.groupBytes g
  | .groupCallStart g call => Frame.groupBytes g ++ jsonBytes call
  | .groupSetPhoto id p => id.bytes ++ blobBytes p
  | .groupRequestSync id => id.bytes
  | .groupDeletePhoto id => id.bytes
  | .callOffer c => jsonBytes (.object c.fields)
  | .callAnswer c => jsonBytes (.object c.fields)
  | .callCandidates c => jsonBytes (.object c.fields)
  | .callHangup c => jsonBytes (.object c.fields)
  | .callRinging c => jsonBytes (.object c.fields)
  | .receipt g type ids => groupBytes g ++ type.byte :: ids.flatMap Block.bytes
  | .reaction g id action emoji => groupBytes g ++ id.bytes ++ action.byte :: Text.utf8 emoji
  | .typing active => [if active then 1 else 0]
  | .edit g id t => groupBytes g ++ id.bytes ++ Text.utf8 t
  | .delete g id => groupBytes g ++ id.bytes
  | .envelope e => e.encode
  | .empty => []
  | .authToken token => Text.utf8 token
  | .unknown _ bytes => bytes

/-- The type byte and the bytes after it. -/
def encode (body : Body) : UInt8 × Bytes := (body.typeByte, body.content)

end SecureInbox.Body
