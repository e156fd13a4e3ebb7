import SecureInbox.Message.Call
import SecureInbox.Message.Flags
import SecureInbox.Message.Kind
import SecureInbox.Session.Envelope

/-! # Message bodies

A body is what a message says.  Kinds that exist both between two people and in
a group share a constructor; its first argument names the group, if any.  Changes
of a group that only its creator makes, or that go to its creator, name the group
by its identifier alone.  A type byte that is not known keeps its bytes. -/
set_option autoImplicit false

namespace SecureInbox

/-- A blob on the blob server and the key that opens it. -/
structure BlobRef where
  id : BlobId
  size : UInt32
  key : Key
deriving DecidableEq

/-- An image outside groups; its blob is opened with the box key and a nonce. -/
structure Image where
  id : BlobId
  size : UInt32
  nonce : Nonce
deriving DecidableEq

structure Video where
  seconds : UInt16
  id : BlobId
  size : UInt32
  thumbnailId : BlobId
  thumbnailSize : UInt32
  key : Key
deriving DecidableEq

structure Audio where
  seconds : UInt16
  id : BlobId
  size : UInt32
  key : Key
deriving DecidableEq

structure Location where
  latitude : Binary64
  longitude : Binary64
  accuracy : Option Binary64
  name : Option String
  address : Option String
deriving DecidableEq

inductive Body where
  | text (group : Option GroupRef) (text : String)
  | image (image : Image)
  | groupImage (group : GroupRef) (image : BlobRef)
  | location (group : Option GroupRef) (location : Location)
  | video (group : Option GroupRef) (video : Video)
  | audio (group : Option GroupRef) (audio : Audio)
  | ballotCreate (group : Option GroupRef) (id : BallotId) (ballot : Json)
  | ballotVote (group : Option GroupRef) (creator : Identity) (id : BallotId) (votes : Json)
  | file (group : Option GroupRef) (file : Json)
  | contactSetPhoto (photo : BlobRef)
  | contactDeletePhoto
  | contactRequestPhoto
  | groupCreate (id : GroupId) (members : List Identity)
  | groupRename (id : GroupId) (name : String)
  | groupLeave (group : GroupRef)
  | groupCallStart (group : GroupRef) (call : Json)
  | groupSetPhoto (id : GroupId) (photo : BlobRef)
  | groupRequestSync (id : GroupId)
  | groupDeletePhoto (id : GroupId)
  | callOffer (offer : CallOffer)
  | callAnswer (answer : CallAnswer)
  | callCandidates (candidates : CallCandidates)
  | callHangup (call : CallRef)
  | callRinging (call : CallRef)
  | receipt (group : Option GroupRef) (type : ReceiptType) (ids : List MessageId)
  | reaction (group : Option GroupRef) (id : MessageId) (action : ReactionAction) (emoji : String)
  | typing (active : Bool)
  | edit (group : Option GroupRef) (id : MessageId) (text : String)
  | delete (group : Option GroupRef) (id : MessageId)
  | envelope (envelope : Envelope)
  | empty
  | authToken (token : String)
  | unknown (typeByte : UInt8) (content : Bytes)

namespace Body

/-- One kind outside a group and another inside. -/
def placed (group : Option GroupRef) (direct inGroup : Kind) : Kind :=
  match group with
  | none => direct
  | some _ => inGroup

/-- The kind of a body; a type byte that is not known has none. -/
def kind? : Body → Option Kind
  | .text g _ => some (placed g .text .groupText)
  | .image _ => some .image
  | .groupImage _ _ => some .groupImage
  | .location g _ => some (placed g .location .groupLocation)
  | .video g _ => some (placed g .video .groupVideo)
  | .audio g _ => some (placed g .audio .groupAudio)
  | .ballotCreate g _ _ => some (placed g .ballotCreate .groupBallotCreate)
  | .ballotVote g _ _ _ => some (placed g .ballotVote .groupBallotVote)
  | .file g _ => some (placed g .file .groupFile)
  | .contactSetPhoto _ => some .contactSetPhoto
  | .contactDeletePhoto => some .contactDeletePhoto
  | .contactRequestPhoto => some .contactRequestPhoto
  | .groupCreate _ _ => some .groupCreate
  | .groupRename _ _ => some .groupRename
  | .groupLeave _ => some .groupLeave
  | .groupCallStart _ _ => some .groupCallStart
  | .groupSetPhoto _ _ => some .groupSetPhoto
  | .groupRequestSync _ => some .groupRequestSync
  | .groupDeletePhoto _ => some .groupDeletePhoto
  | .callOffer _ => some .voipCallOffer
  | .callAnswer _ => some .voipCallAnswer
  | .callCandidates _ => some .voipCallIceCandidate
  | .callHangup _ => some .voipCallHangup
  | .callRinging _ => some .voipCallRinging
  | .receipt g _ _ => some (placed g .deliveryReceipt .groupDeliveryReceipt)
  | .reaction g _ _ _ => some (placed g .reaction .groupReaction)
  | .typing _ => some .typingIndicator
  | .edit g _ _ => some (placed g .edit .groupEdit)
  | .delete g _ => some (placed g .delete .groupDelete)
  | .envelope _ => some .forwardSecurity
  | .empty => some .empty
  | .authToken _ => some .authToken
  | .unknown _ _ => none

/-- The first byte of the plaintext. -/
def typeByte (body : Body) : UInt8 :=
  match body with
  | .unknown b _ => b
  | other => (other.kind?.map Kind.byte).getD 0

/-- The name of the kind. -/
def kindName (body : Body) : String := (body.kind?.map Kind.name).getD "unknown"

def isEnvelope : Body → Bool
  | .envelope _ => true
  | _ => false

end Body

end SecureInbox
