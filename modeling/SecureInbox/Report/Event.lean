import SecureInbox.Intake.Endpoint
import SecureInbox.Intake.World
import SecureInbox.Report.Form

/-! # Events of a run

An event is what an application notices of a run: what it was told, the changes that
it made, the messages that its group processor saw, the downloads it was asked for,
and the envelopes that went out.  A request that failed is no event. -/
set_option autoImplicit false

namespace SecureInbox

inductive Event where
  | notice (notice : Notice)
  | change (change : Change)
  | group (message : Message) (group : GroupRef) (decision : GroupDecision)
  | scheduled (message : Message)
  | sent (receiver : Identity) (envelope : Envelope)

/-- The event of an exchange, if it is one. -/
def Exchange.event? : Exchange → Option Event
  | ⟨.notice n, _⟩ => some (.notice n)
  | ⟨.host (.change c), .ok _⟩ => some (.change c)
  | ⟨.host (.handleGroup message group), .ok decision⟩ => some (.group message group decision)
  | ⟨.host (.schedule message), .ok _⟩ => some (.scheduled message)
  | ⟨.host (.send receiver envelope), .ok _⟩ => some (.sent receiver envelope)
  | _ => none

/-- A session as it stands, under a name. -/
def SessionInfo.summary (name : SessionId → String) (i : SessionInfo) : Json :=
  .object [("session", shown (name i.id)), ("state", shown i.state.text),
    ("version", shown i.version), ("role", shown (i.role.map SessionRole.text))]

/-- The record of an exchange, if one was put into the rejection log. -/
def Exchange.record? : Exchange → Option Record
  | ⟨.record _, record⟩ => record
  | _ => none

namespace Event

/-- The peer that a notice is about. -/
def noticePeer? : Notice → Option Identity
  | .beforeDecode => none
  | .started m => some m.sender
  | .changed m => some m.sender
  | .finished m => some m.sender
  | .failed sender _ _ => some sender
  | .typing sender _ => some sender
  | .call sender _ => some sender
  | .downgraded peer _ => some peer

def changePeer : Change → Identity
  | .store m => m.sender
  | .receipt sender .. => sender
  | .reaction sender .. => sender
  | .edit sender .. => sender
  | .delete sender .. => sender
  | .photo sender _ => sender
  | .photoRequested sender => sender
  | .dirty contact => contact

/-- The peer that an event is about. -/
def peer? : Event → Option Identity
  | .notice n => noticePeer? n
  | .change c => some (changePeer c)
  | .group m _ _ => some m.sender
  | .scheduled m => some m.sender
  | .sent receiver _ => some receiver

def noticeFields : Notice → List Json
  | .beforeDecode => [shown "before_decode"]
  | .started m => [shown "started", shown m.id]
  | .changed m => [shown "changed", shown m.id]
  | .finished m => [shown "finished", shown m.id]
  | .failed sender id error => [shown "failed", shown sender, shown id, shown error.tag]
  | .typing sender active => [shown "typing", shown sender, shown active]
  | .call sender body => [shown "voip", shown sender, shown body.typeByte]
  | .downgraded peer m => [shown "downgraded", shown peer, shown m.id]

def changeFields : Change → List Json
  | .store m => [shown "store", shown m.id, shown m.body.kindName]
  | .receipt sender g type ids =>
      [shown "receipt", shown sender, shown g, shown type.tag, shown ids]
  | .reaction sender g id action emoji =>
      [shown "reaction", shown sender, shown g, shown id, shown action.tag, shown emoji]
  | .edit sender g id text => [shown "edit", shown sender, shown g, shown id, shown text]
  | .delete sender g id => [shown "delete", shown sender, shown g, shown id]
  | .photo sender photo => [shown "photo", shown sender, shown photo]
  | .photoRequested sender => [shown "photo_requested", shown sender]
  | .dirty contact => [shown "dirty", shown contact]

def decisionTag : GroupDecision → String
  | .handled => "handled"
  | .declined => "declined"

/-- An event as a list of its name and what belongs to it. -/
def fields (envelope : Envelope → Json) : Event → List Json
  | .notice n => noticeFields n
  | .change c => changeFields c
  | .group m g decision =>
      [shown "group", shown m.id, shown g, shown m.body.kindName, shown (decisionTag decision)]
  | .scheduled m => [shown "blob", shown m.id]
  | .sent receiver e => [shown "send", shown receiver, envelope e]

/-- Events in the order of the peers that they are about, those about none first. -/
def byPeer (events : List (Identity × Event)) : List (Identity × Event) :=
  let peer (e : Identity × Event) : String := (e.2.peer?.map Identity.text).getD ""
  events.mergeSort fun a b => !decide (peer b < peer a)

end Event

end SecureInbox
