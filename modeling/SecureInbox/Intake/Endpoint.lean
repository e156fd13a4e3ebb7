import SecureInbox.Intake.Opening
import SecureInbox.Intake.Script
import SecureInbox.Settings

/-! # One end of forward-secrecy sessions

An endpoint answers the frames that peers send and puts messages into frames of
its own:

* an opening frame replaces all sessions with the peer and is answered;
* an answering frame completes the session that we opened;
* a rejection or termination removes the session;
* a protected frame is opened on a copy of its session.  The copy is given back as
  `pending` and is stored by `commit` once the message in it is settled.

A frame that cannot be accepted is answered by a rejection, so that the peer
starts anew. -/
set_option autoImplicit false

namespace SecureInbox

structure SessionPolicy where
  enabled : Bool
  maxSkip : UInt64
  versions : VersionRange
deriving DecidableEq

namespace SessionPolicy

def standard : SessionPolicy := ⟨true, Ratchet.defaultMaxSkip, VersionRange.supported⟩

def ofSettings (s : Settings) : Except SettingsError SessionPolicy := do
  return ⟨s.sessions.enabled, s.sessions.maxSkip, ← s.versions⟩

end SessionPolicy

/-- A session as it stands after a frame. -/
structure SessionInfo where
  id : SessionId
  state : SessionState
  version : Option Version
  role : Option SessionRole
deriving DecidableEq

namespace SessionInfo

def ofSession (s : Session) : SessionInfo := ⟨s.id, s.state, some s.version, some s.role⟩

/-- A session that is not there. -/
def gone (id : SessionId) : SessionInfo := ⟨id, .none, none, none⟩

end SessionInfo

/-- What came of an envelope.  A frame without a message has no `inner`. -/
structure Received where
  inner : Option Message
  session : SessionInfo
  /-- The session after opening `inner`, not stored yet. -/
  pending : Option Session

namespace Received

def control (session : SessionInfo) : Received := ⟨none, session, none⟩

end Received

structure Endpoint where
  suite : Suite
  identity : Identity
  secret : Key
  policy : SessionPolicy

namespace Endpoint

/-- What a session of ours with a peer is filed under. -/
def sessionKey (e : Endpoint) (peer : Identity) (id : SessionId) : SessionKey :=
  ⟨e.identity.text, peer.text, id⟩

def send (peer : Identity) (session : SessionId) (frame : Frame) : Intake Unit := do
  match ← Intake.request (.host (.send peer ⟨session, frame⟩)) with
  | .ok () => return ()
  | .error error => throw (.notReady ("sending to " ++ peer.text ++ ": " ++ error.message))

/-- Tells the peer that its message was refused, and fails for that reason. -/
def refuse {α : Type} (outer : Message) (session : SessionId) (cause : Cause) (refusal : Refusal) :
    Intake α := do
  send outer.sender session (.reject outer.id cause)
  throw (.ofRefusal refusal)

/-- Removes the session before refusing the message. -/
def dropAndRefuse {α : Type} (e : Endpoint) (outer : Message) (session : SessionId)
    (refusal : Refusal) : Intake α := do
  let _ ← Intake.store (.erase (e.sessionKey outer.sender session))
  refuse outer session .stateMismatch refusal

/-- Frames while sessions are switched off.  The end of a session is not answered,
since answers to answers would never end. -/
def receiveDisabled (outer : Message) (envelope : Envelope) : Intake Received := do
  match envelope.frame with
  | .reject .. => return .control (.gone envelope.session)
  | .terminate .. => return .control (.gone envelope.session)
  | .encapsulated _ => refuse outer envelope.session .disabledByLocal .disabled
  | _ =>
    send outer.sender envelope.session (.reject outer.id .disabledByLocal)
    return .control (.gone envelope.session)

def receiveInit (e : Endpoint) (peer : Identity) (senderKey : Key) (id : SessionId)
    (offered : VersionRange) (peerEphemeral : Key) : Intake Received := do
  match e.policy.versions.negotiate offered with
  | none =>
    send peer id (.terminate .reset)
    return .control (.gone id)
  | some version =>
    let _ ← Intake.store (.erasePair e.identity.text peer.text)
    let ephemeral ← Intake.draw .key
    let created ← Intake.request .now
    match Session.respond e.suite e.secret ephemeral id e.identity.text peer.text senderKey
        peerEphemeral version created with
    | .error error => throw (.ofRefusal (.init error))
    | .ok (session, ephemeralKey) =>
      Intake.store (.put session)
      send peer id (.accept e.policy.versions ephemeralKey)
      return .control (.ofSession session)

def receiveAccept (e : Endpoint) (peer : Identity) (id : SessionId) (offered : VersionRange)
    (peerEphemeral : Key) : Intake Received := do
  match ← Intake.store (.find (e.sessionKey peer id)) with
  | none =>
    send peer id (.terminate .unknownSession)
    return .control (.gone id)
  | some session =>
    if session.role ≠ .initiator ∨ session.state ≠ .l20 then return .control (.ofSession session)
    match e.policy.versions.negotiate offered with
    | none =>
      let _ ← Intake.store (.erase (e.sessionKey peer id))
      send peer id (.terminate .reset)
      return .control (.gone id)
    | some version =>
      match session.accept e.suite e.secret peerEphemeral version with
      | .error error => throw (.ofRefusal (.accept error))
      | .ok session =>
        Intake.store (.put session)
        return .control (.ofSession session)

/-- The message that a frame held, under the header of the message around it. -/
def innerMessage (outer : Message) (plaintext : Bytes) (group : Option GroupRef) :
    Except FormatFault Message := do
  let (typeByte, content) ← (Padding.decode plaintext).mapError FormatFault.innerPadding
  let body ← (Body.decode typeByte content).mapError FormatFault.innerBody
  let inner := { outer with body }
  if inner.group? = group then return inner else throw .otherGroup

/-- Stores a session that a frame has advanced. -/
def commit (e : Endpoint) (session : Session) : Intake Unit := do
  let _ ← Intake.store (.find ⟨e.identity.text, session.peer, session.id⟩)
  Intake.store (.put session)

def receiveEncapsulated (e : Endpoint) (outer : Message) (senderKey : Key) (id : SessionId)
    (content : Encapsulated) : Intake Received := do
  match ← Intake.store (.find (e.sessionKey outer.sender id)) with
  | none => refuse outer id .unknownSession .unknownSession
  | some stored =>
    if !stored.isBoundTo senderKey then e.dropAndRefuse outer id .keyChanged
    else if !e.policy.versions.contains content.applied then
      e.dropAndRefuse outer id (.unsupportedVersion content.applied)
    else if content.sealed.agreement = .four ∧ stored.role = .initiator ∧ stored.state = .l20 then
      throw (.notReady "4DH message before accept")
    else
      match stored.decrypt e.suite content.sealed e.policy.maxSkip with
      | (.error error, _) => e.dropAndRefuse outer id (.decrypt error)
      | (.ok plaintext, session) =>
        match innerMessage outer plaintext content.group with
        | .error fault =>
          e.commit session
          throw (.ofFault outer.sender fault)
        | .ok inner => return ⟨some inner, .ofSession session, some session⟩

/-- Processes an envelope that came in the message `outer` from the holder of
`senderKey`. -/
def receive (e : Endpoint) (outer : Message) (senderKey : Key) (envelope : Envelope) :
    Intake Received := do
  if !e.policy.enabled then receiveDisabled outer envelope
  else
    match envelope.frame with
    | .init versions key => e.receiveInit outer.sender senderKey envelope.session versions key
    | .accept versions key => e.receiveAccept outer.sender envelope.session versions key
    | .encapsulated content => e.receiveEncapsulated outer senderKey envelope.session content
    | _ =>
      let _ ← Intake.store (.erase (e.sessionKey outer.sender envelope.session))
      return .control (.gone envelope.session)

/-- Opens a session with a peer; gives the envelope to send. -/
def initiate (e : Endpoint) (peer : Identity) (peerKey : Key) : Intake Envelope := do
  let ephemeral ← Intake.draw .key
  let id ← Intake.draw .sessionId
  let created ← Intake.request .now
  match Session.initiate e.suite e.secret ephemeral id e.identity.text peer.text peerKey
      e.policy.versions.max created with
  | .error error => throw (.ofRefusal (.initiate error))
  | .ok (session, ephemeralKey) =>
    Intake.store (.put session)
    return ⟨session.id, .init e.policy.versions ephemeralKey⟩

/-- Puts a plaintext into a frame of the best session with a peer. -/
def protect (e : Endpoint) (peer : Identity) (plaintext : Bytes) (group : Option GroupRef) :
    Intake Envelope := do
  match ← Intake.store (.best e.identity.text peer.text) with
  | none => throw (.ofRefusal (.noSession peer))
  | some session =>
    let nonce ← Intake.draw .nonce
    match session.encrypt e.suite nonce plaintext with
    | .error error => throw (.ofRefusal (.encrypt error))
    | .ok (content, session) =>
      Intake.store (.put session)
      return ⟨session.id, .encapsulated ⟨content, e.policy.versions.max, session.version, group⟩⟩

/-- Puts a message into a frame of the best session with a peer. -/
def encapsulate (e : Endpoint) (peer : Identity) (message : Message) : Intake Envelope := do
  if message.body.isEnvelope then throw (.ofFault e.identity .envelopeToSend)
  let padding ← Intake.draw .padding
  e.protect peer (message.body.toPlaintext (padding.val + 1)) message.group?

/-- Whether a peer with an established session sent this outside of it. -/
def isDowngrade (e : Endpoint) (sender : Identity) (message : Message) : Intake Bool := do
  if !e.policy.enabled || message.allowedOutsideSession then return false
  let best ← Intake.store (.best e.identity.text sender.text)
  return best.any fun s => s.state == .l40

/-- The session that outgoing messages would use. -/
def sessionInfo (e : Endpoint) (peer : Identity) : Intake (Option SessionInfo) := do
  let best ← Intake.store (.best e.identity.text peer.text)
  return best.map .ofSession

end Endpoint

end SecureInbox
