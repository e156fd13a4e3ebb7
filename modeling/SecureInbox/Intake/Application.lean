import SecureInbox.Intake.World

/-! # An application in memory

An `Application` stands for what surrounds the pipeline: the keys of contacts, the
blocklist, the groups that we are in, the transport, chance and the clock.  It
accepts changes and envelopes and keeps none of them, since a run gives all
exchanges.  Calls can be told to fail, by their names. -/
set_option autoImplicit false

namespace SecureInbox

def Change.callName : Change → String
  | .store _ => "store_incoming"
  | .receipt .. => "apply_receipt"
  | .reaction .. => "apply_reaction"
  | .edit .. => "apply_edit"
  | .delete .. => "apply_delete"
  | .photo .. => "set_contact_photo"
  | .photoRequested _ => "contact_photo_requested"
  | .dirty _ => "mark_contact_dirty"

def HostCall.name : HostCall → String
  | .publicKey _ => "public_key"
  | .isBlocked _ => "is_blocked"
  | .isMember _ => "is_active_member"
  | .handleGroup .. => "group_handle"
  | .change c => c.callName
  | .schedule _ => "blob_schedule"
  | .send .. => "send_envelope"

def StoreCall.name : StoreCall → String
  | .seen _ => "nonce_contains"
  | .mark _ => "nonce_insert"
  | .best .. => "session_best"
  | .find _ => "session_get"
  | .put _ => "session_store"
  | .erase _ => "session_delete"
  | .erasePair .. => "session_delete_all"

/-- Calls that are to fail, by name: the error, and how many times still. -/
abbrev Faults (ε : Type) := List (String × ε × Nat)

namespace Faults

/-- Plans failures of a call, in place of those planned before. -/
def plan {ε : Type} (name : String) (error : ε) (times : Nat) (faults : Faults ε) : Faults ε :=
  (name, error, times) :: faults.filter fun f => f.1 != name

/-- The error that a call fails with, if it is to fail. -/
def take {ε : Type} (name : String) (faults : Faults ε) : Option ε × Faults ε :=
  match faults.lookup name with
  | some (error, times + 1) => (some error, faults.plan name error times)
  | _ => (none, faults)

end Faults

structure Application where
  keys : List (Identity × Key)
  blocked : List Identity
  /-- The groups that we are in. -/
  groups : List GroupRef
  /-- Type bytes of the messages that the group processor takes over. -/
  groupTypes : List UInt8
  hostFaults : Faults HandlerError
  storeFaults : Faults StoreError
  /-- How often something was drawn, and the clock was read. -/
  draws : Nat

namespace Application

def empty : Application := ⟨[], [], [], [], [], [], 0⟩

/-- A block for each number, by way of its hash. -/
def block (n number : Nat) : Block n :=
  Block.ofBytes n (Sha256.hash (Text.utf8 ("draw " ++ toString number))).bytes

/-- The time at which the clock starts. -/
def firstTime : Instant := Instant.ofSeconds 1704067200

/-- The time after some draws; the clock never shows a time twice. -/
def timeAfter (draws : Nat) : Instant := ⟨firstTime.seconds + draws, 123456789⟩

/-- Whether the group processor takes a message over: the control messages of a
group that we are in, new groups, and the types set aside for it. -/
def takesOver (a : Application) (message : Message) (group : GroupRef) : Bool :=
  (message.isGroupControl && a.groups.contains group) ||
    message.body.typeByte == Kind.groupCreate.byte || a.groupTypes.contains message.body.typeByte

def answer (a : Application) : (c : HostCall) → c.Answer
  | .publicKey identity => a.keys.lookup identity
  | .isBlocked identity => a.blocked.contains identity
  | .isMember group => a.groups.contains group
  | .handleGroup message group => if a.takesOver message group then .handled else .declined
  | .change _ => ()
  | .schedule _ => ()
  | .send _ _ => ()

def draw (a : Application) : (d : Draw) → d.Answer
  | .key => block 32 a.draws
  | .sessionId => block 16 a.draws
  | .nonce => block 24 a.draws
  | .padding => Fin.ofNat 255 ((block 1 a.draws).bytes.headD 0).toNat

/-- The application one draw later. -/
def drawn (a : Application) : Application := { a with draws := a.draws + 1 }

/-- Plans failures of a call, with the error for its kind of call. -/
def plan (name : String) (onHost : HandlerError) (onStore : StoreError) (times : Nat)
    (a : Application) : Application :=
  if name.startsWith "nonce_" || name.startsWith "session_" then
    { a with storeFaults := a.storeFaults.plan name onStore times }
  else { a with hostFaults := a.hostFaults.plan name onHost times }

/-- Gives a contact a key, or none. -/
def setKey (identity : Identity) (key : Option Key) (a : Application) : Application :=
  let others := a.keys.filter fun k => k.1 ≠ identity
  { a with keys := (key.map fun k => (identity, k)).toList ++ others }

def host : Host Application where
  call c a :=
    match a.hostFaults.take c.name with
    | (some e, hostFaults) => (.error e, { a with hostFaults })
    | (none, _) => (.ok (a.answer c), a)
  storeFault c a :=
    let (error, storeFaults) := a.storeFaults.take c.name
    (error, { a with storeFaults })
  draw d a := (a.draw d, a.drawn)
  now a := (timeAfter a.draws, a.drawn)

end Application

end SecureInbox
