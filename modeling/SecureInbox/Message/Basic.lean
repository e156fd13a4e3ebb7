import SecureInbox.Message.Body

/-! # Messages

A message is a body under the header that every message carries.  The questions
that decide a message's way are answered here: its group, whether it changes a
group, whether it may come outside an established session, and whether it refers
to blobs that have to be fetched. -/
set_option autoImplicit false

namespace SecureInbox

structure Message where
  id : MessageId
  sender : Identity
  receiver : Identity
  date : Instant
  flags : Flags
  name : Option String
  body : Body

namespace Message

/-- The group a message belongs to.  A change that only the creator makes comes
from the creator, and a request for the group's state goes to the creator. -/
def group? (m : Message) : Option GroupRef :=
  match m.body with
  | .text g _ => g
  | .groupImage g _ => some g
  | .location g _ => g
  | .video g _ => g
  | .audio g _ => g
  | .ballotCreate g _ _ => g
  | .ballotVote g _ _ _ => g
  | .file g _ => g
  | .groupCreate id _ => some ⟨id, m.sender⟩
  | .groupRename id _ => some ⟨id, m.sender⟩
  | .groupLeave g => some g
  | .groupCallStart g _ => some g
  | .groupSetPhoto id _ => some ⟨id, m.sender⟩
  | .groupRequestSync id => some ⟨id, m.receiver⟩
  | .groupDeletePhoto id => some ⟨id, m.sender⟩
  | .receipt g _ _ => g
  | .reaction g _ _ _ => g
  | .edit g _ _ => g
  | .delete g _ => g
  | _ => none

/-- Changes of a group's members and description. -/
def isGroupControl (m : Message) : Bool :=
  match m.body with
  | .groupCreate _ _ => true
  | .groupRename _ _ => true
  | .groupLeave _ => true
  | .groupSetPhoto _ _ => true
  | .groupDeletePhoto _ => true
  | .groupRequestSync _ => true
  | _ => false

/-- Whether a peer with an established session may send this outside of it. -/
def allowedOutsideSession (m : Message) : Bool :=
  m.group?.isSome ||
    match m.body with
    | .envelope _ => true
    | .empty => true
    | .authToken _ => true
    | .unknown _ _ => true
    | _ => false

/-- Whether the message refers to blobs. -/
def needsBlobs (m : Message) : Bool :=
  match m.body with
  | .image _ => true
  | .groupImage _ _ => true
  | .video _ _ => true
  | .audio _ _ => true
  | .file _ _ => true
  | .contactSetPhoto _ => true
  | .groupSetPhoto _ _ => true
  | _ => false

end Message

end SecureInbox
