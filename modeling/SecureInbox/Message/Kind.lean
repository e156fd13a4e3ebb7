import SecureInbox.Bytes.Hex

/-! # Message kinds

Every kind of message that the wire knows, with its type byte, its name, and the
tag that its JSON form carries.  `Kind.ofByte?_byte` and `Kind.byte_of_ofByte?`
say that type bytes and kinds determine each other. -/
set_option autoImplicit false

namespace SecureInbox

inductive Kind where
  | text
  | image
  | location
  | video
  | audio
  | ballotCreate
  | ballotVote
  | file
  | contactSetPhoto
  | contactDeletePhoto
  | contactRequestPhoto
  | groupText
  | groupLocation
  | groupImage
  | groupVideo
  | groupAudio
  | groupFile
  | groupCreate
  | groupRename
  | groupLeave
  | groupCallStart
  | groupSetPhoto
  | groupRequestSync
  | groupBallotCreate
  | groupBallotVote
  | groupDeletePhoto
  | voipCallOffer
  | voipCallAnswer
  | voipCallIceCandidate
  | voipCallHangup
  | voipCallRinging
  | deliveryReceipt
  | groupDeliveryReceipt
  | reaction
  | groupReaction
  | typingIndicator
  | edit
  | delete
  | groupEdit
  | groupDelete
  | forwardSecurity
  | empty
  | authToken
deriving DecidableEq

namespace Kind

/-- All kinds in the order of their type bytes. -/
def all : List Kind := [
  .text, .image, .location, .video, .audio, .ballotCreate, .ballotVote, .file, .contactSetPhoto,
  .contactDeletePhoto, .contactRequestPhoto, .groupText, .groupLocation, .groupImage,
  .groupVideo, .groupAudio, .groupFile, .groupCreate, .groupRename, .groupLeave, .groupCallStart,
  .groupSetPhoto, .groupRequestSync, .groupBallotCreate, .groupBallotVote, .groupDeletePhoto,
  .voipCallOffer, .voipCallAnswer, .voipCallIceCandidate, .voipCallHangup, .voipCallRinging,
  .deliveryReceipt, .groupDeliveryReceipt, .reaction, .groupReaction, .typingIndicator, .edit,
  .delete, .groupEdit, .groupDelete, .forwardSecurity, .empty, .authToken]

/-- The first byte of the plaintext of a message of this kind. -/
def byte : Kind → UInt8
  | .text => 0x01
  | .image => 0x02
  | .location => 0x10
  | .video => 0x13
  | .audio => 0x14
  | .ballotCreate => 0x15
  | .ballotVote => 0x16
  | .file => 0x17
  | .contactSetPhoto => 0x18
  | .contactDeletePhoto => 0x19
  | .contactRequestPhoto => 0x1A
  | .groupText => 0x41
  | .groupLocation => 0x42
  | .groupImage => 0x43
  | .groupVideo => 0x44
  | .groupAudio => 0x45
  | .groupFile => 0x46
  | .groupCreate => 0x4A
  | .groupRename => 0x4B
  | .groupLeave => 0x4C
  | .groupCallStart => 0x4F
  | .groupSetPhoto => 0x50
  | .groupRequestSync => 0x51
  | .groupBallotCreate => 0x52
  | .groupBallotVote => 0x53
  | .groupDeletePhoto => 0x54
  | .voipCallOffer => 0x60
  | .voipCallAnswer => 0x61
  | .voipCallIceCandidate => 0x62
  | .voipCallHangup => 0x63
  | .voipCallRinging => 0x64
  | .deliveryReceipt => 0x80
  | .groupDeliveryReceipt => 0x81
  | .reaction => 0x82
  | .groupReaction => 0x83
  | .typingIndicator => 0x90
  | .edit => 0x91
  | .delete => 0x92
  | .groupEdit => 0x93
  | .groupDelete => 0x94
  | .forwardSecurity => 0xA0
  | .empty => 0xFC
  | .authToken => 0xFF

def name : Kind → String
  | .text => "text"
  | .image => "image"
  | .location => "location"
  | .video => "video"
  | .audio => "audio"
  | .ballotCreate => "ballot-create"
  | .ballotVote => "ballot-vote"
  | .file => "file"
  | .contactSetPhoto => "contact-set-photo"
  | .contactDeletePhoto => "contact-delete-photo"
  | .contactRequestPhoto => "contact-request-photo"
  | .groupText => "group-text"
  | .groupLocation => "group-location"
  | .groupImage => "group-image"
  | .groupVideo => "group-video"
  | .groupAudio => "group-audio"
  | .groupFile => "group-file"
  | .groupCreate => "group-create"
  | .groupRename => "group-rename"
  | .groupLeave => "group-leave"
  | .groupCallStart => "group-call-start"
  | .groupSetPhoto => "group-set-photo"
  | .groupRequestSync => "group-request-sync"
  | .groupBallotCreate => "group-ballot-create"
  | .groupBallotVote => "group-ballot-vote"
  | .groupDeletePhoto => "group-delete-photo"
  | .voipCallOffer => "voip-call-offer"
  | .voipCallAnswer => "voip-call-answer"
  | .voipCallIceCandidate => "voip-call-ice-candidate"
  | .voipCallHangup => "voip-call-hangup"
  | .voipCallRinging => "voip-call-ringing"
  | .deliveryReceipt => "delivery-receipt"
  | .groupDeliveryReceipt => "group-delivery-receipt"
  | .reaction => "reaction"
  | .groupReaction => "group-reaction"
  | .typingIndicator => "typing-indicator"
  | .edit => "edit"
  | .delete => "delete"
  | .groupEdit => "group-edit"
  | .groupDelete => "group-delete"
  | .forwardSecurity => "forward-security"
  | .empty => "empty"
  | .authToken => "auth-token"

/-- The name in one word, as listings show it. -/
def label : Kind → String
  | .text => "Text"
  | .image => "Image"
  | .location => "Location"
  | .video => "Video"
  | .audio => "Audio"
  | .ballotCreate => "BallotCreate"
  | .ballotVote => "BallotVote"
  | .file => "File"
  | .contactSetPhoto => "ContactSetPhoto"
  | .contactDeletePhoto => "ContactDeletePhoto"
  | .contactRequestPhoto => "ContactRequestPhoto"
  | .groupText => "GroupText"
  | .groupLocation => "GroupLocation"
  | .groupImage => "GroupImage"
  | .groupVideo => "GroupVideo"
  | .groupAudio => "GroupAudio"
  | .groupFile => "GroupFile"
  | .groupCreate => "GroupCreate"
  | .groupRename => "GroupRename"
  | .groupLeave => "GroupLeave"
  | .groupCallStart => "GroupCallStart"
  | .groupSetPhoto => "GroupSetPhoto"
  | .groupRequestSync => "GroupRequestSync"
  | .groupBallotCreate => "GroupBallotCreate"
  | .groupBallotVote => "GroupBallotVote"
  | .groupDeletePhoto => "GroupDeletePhoto"
  | .voipCallOffer => "VoipCallOffer"
  | .voipCallAnswer => "VoipCallAnswer"
  | .voipCallIceCandidate => "VoipCallIceCandidate"
  | .voipCallHangup => "VoipCallHangup"
  | .voipCallRinging => "VoipCallRinging"
  | .deliveryReceipt => "DeliveryReceipt"
  | .groupDeliveryReceipt => "GroupDeliveryReceipt"
  | .reaction => "Reaction"
  | .groupReaction => "GroupReaction"
  | .typingIndicator => "TypingIndicator"
  | .edit => "Edit"
  | .delete => "Delete"
  | .groupEdit => "GroupEdit"
  | .groupDelete => "GroupDelete"
  | .forwardSecurity => "ForwardSecurity"
  | .empty => "Empty"
  | .authToken => "AuthToken"

/-- The tag of the JSON form. -/
def tag : Kind → String
  | .text => "text"
  | .image => "image"
  | .location => "location"
  | .video => "video"
  | .audio => "audio"
  | .ballotCreate => "ballot_create"
  | .ballotVote => "ballot_vote"
  | .file => "file"
  | .contactSetPhoto => "contact_set_photo"
  | .contactDeletePhoto => "contact_delete_photo"
  | .contactRequestPhoto => "contact_request_photo"
  | .groupText => "group_text"
  | .groupLocation => "group_location"
  | .groupImage => "group_image"
  | .groupVideo => "group_video"
  | .groupAudio => "group_audio"
  | .groupFile => "group_file"
  | .groupCreate => "group_create"
  | .groupRename => "group_rename"
  | .groupLeave => "group_leave"
  | .groupCallStart => "group_call_start"
  | .groupSetPhoto => "group_set_photo"
  | .groupRequestSync => "group_request_sync"
  | .groupBallotCreate => "group_ballot_create"
  | .groupBallotVote => "group_ballot_vote"
  | .groupDeletePhoto => "group_delete_photo"
  | .voipCallOffer => "voip_call_offer"
  | .voipCallAnswer => "voip_call_answer"
  | .voipCallIceCandidate => "voip_call_ice_candidate"
  | .voipCallHangup => "voip_call_hangup"
  | .voipCallRinging => "voip_call_ringing"
  | .deliveryReceipt => "delivery_receipt"
  | .groupDeliveryReceipt => "group_delivery_receipt"
  | .reaction => "reaction"
  | .groupReaction => "group_reaction"
  | .typingIndicator => "typing_indicator"
  | .edit => "edit"
  | .delete => "delete"
  | .groupEdit => "group_edit"
  | .groupDelete => "group_delete"
  | .forwardSecurity => "forward_security"
  | .empty => "empty"
  | .authToken => "auth_token"

/-- The name with the type byte. -/
def title (k : Kind) : String := k.name ++ " (" ++ Hex.byteText k.byte ++ ")"

/-- The kind with a given type byte. -/
def ofByte? (b : UInt8) : Option Kind := all.find? fun k => k.byte == b

/-- The kind with a given JSON tag. -/
def ofTag? (tag : String) : Option Kind := all.find? fun k => k.tag == tag

theorem ofByte?_byte (k : Kind) : ofByte? k.byte = some k := by cases k <;> decide

theorem byte_of_ofByte? {b : UInt8} {k : Kind} (h : ofByte? b = some k) : k.byte = b := by
  have found := List.find?_some h
  simpa using found

end Kind

end SecureInbox
