import SecureInbox.Intake.Endpoint

/-! # The pipeline

A boxed message goes through these stages, and each hands it on, finishes it with
an outcome, or fails it:

1. the sender's key is looked up, the box is opened and the body read;
2. alone among the messages of its sender: blocklist, content, nonce register;
3. an envelope is opened and the message in it goes through the blocklist and the
   content check as well;
4. the group processor, or the handler for the kind of message.

Failures of format and dropped content go into the rejection log. -/
set_option autoImplicit false

namespace SecureInbox

structure Processor where
  endpoint : Endpoint
  limits : ContentLimits
  /-- How many senders a batch processes at a time. -/
  concurrency : Nat

abbrev ProcessResult := Except ProcessError Outcome

namespace Processor

/-- A processor with the given settings, which are checked. -/
def ofSettings (suite : Suite) (identity : Identity) (secret : Key) (settings : Settings) :
    Except SettingsError Processor := do
  settings.check
  return {
    endpoint := ⟨suite, identity, secret, ← SessionPolicy.ofSettings settings⟩
    limits := settings.contentLimits
    concurrency := settings.limits.concurrency.toNat }

/-- Puts a failed message into the rejection log. -/
def record (sender : Identity) (id : MessageId) (typeByte : Option UInt8) (error : ProcessError) :
    Intake Unit := do
  let _ ← Intake.request (.record ⟨sender.text, id.hex, typeByte, error.tag, some error.message⟩)

/-- Fails a message and puts it into the rejection log. -/
def reject {α : Type} (sender : Identity) (id : MessageId) (typeByte : Option UInt8)
    (error : ProcessError) : Intake α := do
  record sender id typeByte error
  throw error

/-! ## Opening -/

def senderKey (sender : Identity) : Intake Key := do
  match ← Intake.request (.host (.publicKey sender)) with
  | .ok (some key) => return key
  | .ok none => throw (.senderUnknown sender.text "no public key")
  | .error e => throw (.senderUnknown sender.text e.message)

def decode (p : Processor) (boxed : Boxed) (key : Key) : Intake Message := do
  if boxed.receiver ≠ p.endpoint.identity then
    reject boxed.sender boxed.id none (.ofFault boxed.sender (.addressedTo boxed.receiver))
  match boxed.message p.endpoint.suite p.endpoint.secret key with
  | .error e => reject boxed.sender boxed.id none (.ofFault boxed.sender (.unopened e))
  | .ok message =>
    match message.body with
    | .unknown typeByte _ => reject boxed.sender boxed.id (some typeByte) (.unknownType typeByte)
    | _ => return message

/-! ## Admission -/

/-- Whether a message is dropped because its sender is blocked.  The control
messages of a group that we are in are not. -/
def isBlocked (message : Message) : Intake Bool := do
  if !(← Intake.host (.isBlocked message.sender)) then return false
  match message.isGroupControl, message.group? with
  | true, some group => return !(← Intake.host (.isMember group))
  | _, _ => return true

/-- The reason to drop a message, if there is one.  The blocklist is for what is
inside an envelope. -/
def admission (p : Processor) (message : Message) : Intake (Option DropReason) := do
  if !message.body.isEnvelope then
    if ← isBlocked message then return some .blockedSender
  if message.hasValidContent p.limits then return none
  record message.sender message.id (some message.body.typeByte) (.invalidContent message.body.kindName)
  return some .invalidContent

/-! ## Dispatch -/

/-- Changes the application's records and tells of it. -/
def changed (message : Message) (change : Change) : Intake Unit := do
  Intake.host (.change change)
  Intake.notify (.changed message)

/-- Handles a message by its kind. -/
def handleByKind (message : Message) : Intake Unit := do
  let sender := message.sender
  let stored := changed message (.store message)
  let groupOnly : Intake Unit := throw (.noHandler message.body.kindName)
  match message.body with
  | .text _ _ => stored
  | .location _ _ => stored
  | .image _ => stored
  | .groupImage _ _ => stored
  | .video _ _ => stored
  | .audio _ _ => stored
  | .file _ _ => stored
  | .ballotCreate _ _ _ => stored
  | .ballotVote _ _ _ _ => stored
  | .groupCallStart _ _ => stored
  | .contactSetPhoto photo => Intake.host (.change (.photo sender (some photo)))
  | .contactDeletePhoto => Intake.host (.change (.photo sender none))
  | .contactRequestPhoto => Intake.host (.change (.photoRequested sender))
  | .receipt group type ids => changed message (.receipt sender group type ids)
  | .reaction group id action emoji => changed message (.reaction sender group id action emoji)
  | .edit group id text => changed message (.edit sender group id text)
  | .delete group id => changed message (.delete sender group id)
  | .typing active => Intake.notify (.typing sender active)
  | .callOffer _ => Intake.notify (.call sender message.body)
  | .callAnswer _ => Intake.notify (.call sender message.body)
  | .callCandidates _ => Intake.notify (.call sender message.body)
  | .callHangup _ => Intake.notify (.call sender message.body)
  | .callRinging _ => Intake.notify (.call sender message.body)
  | .empty => return ()
  | .groupCreate _ _ => groupOnly
  | .groupRename _ _ => groupOnly
  | .groupLeave _ => groupOnly
  | .groupSetPhoto _ _ => groupOnly
  | .groupRequestSync _ => groupOnly
  | .groupDeletePhoto _ => groupOnly
  | .authToken _ => groupOnly
  | .envelope _ => throw (.ofFault sender .nestedEnvelope)
  | .unknown typeByte _ => throw (.unknownType typeByte)
  if message.needsBlobs then Intake.host (.schedule message)

/-- Gives a message to the group processor if it is one of a group, and otherwise,
or when that declines, to the handler for its kind. -/
def dispatch (message : Message) : Intake Outcome := do
  match message.group? with
  | none => handleByKind message
  | some group =>
    match ← Intake.host (.handleGroup message group) with
    | .handled => return .processed message
    | .declined => handleByKind message
  return .processed message

/-! ## Envelopes -/

/-- The message inside an envelope. -/
def handleInner (p : Processor) (outer inner : Message) : Intake Outcome := do
  match inner.body with
  | .envelope _ =>
    reject outer.sender outer.id (some inner.body.typeByte) (.ofFault outer.sender .nestedEnvelope)
  | .unknown typeByte _ => reject outer.sender outer.id (some typeByte) (.unknownType typeByte)
  | _ =>
    match ← p.admission inner with
    | some reason => return .dropped reason
    | none => dispatch inner

/-- Whether a failure of a frame goes into the rejection log. -/
def isRecorded : ProcessError → Bool
  | .refused _ => true
  | .badFormat _ _ => true
  | _ => false

def handleEnvelope (p : Processor) (outer : Message) (key : Key) (envelope : Envelope) :
    Intake Outcome := do
  match ← Intake.attempt (p.endpoint.receive outer key envelope) with
  | .error e =>
    if isRecorded e then record outer.sender outer.id (some outer.body.typeByte) e
    throw e
  | .ok received =>
    match received.inner with
    | none =>
      Intake.host (.change (.dirty outer.sender))
      return .dropped .sessionControl
    | some inner =>
      let settled ← Intake.attempt (p.handleInner outer inner)
      match received.pending with
      | none => Intake.ofExcept settled
      | some session =>
        match settled with
        | .error e =>
          -- What is delivered again must find the session as it was.
          if e.disposition ≠ .retry then p.endpoint.commit session
          throw e
        | .ok outcome =>
          p.endpoint.commit session
          return outcome

/-! ## The whole way -/

/-- The trace of a nonce in the register. -/
def nonceHash (p : Processor) (nonce : Bytes) : NonceHash :=
  p.endpoint.suite.nonceHash p.endpoint.identity.text nonce

/-- The stages that the messages of one sender go through one after another. -/
def handle (p : Processor) (message : Message) (key : Key) (nonce : Bytes) : Intake Outcome := do
  match ← p.admission message with
  | some reason => return .dropped reason
  | none =>
    if ← Intake.store (.seen (p.nonceHash nonce)) then return .dropped .alreadyProcessed
    let outcome ←
      match message.body with
      | .envelope envelope => p.handleEnvelope message key envelope
      | _ => do
        if ← p.endpoint.isDowngrade message.sender message then
          Intake.notify (.downgraded message.sender message)
        dispatch message
    -- The message is handled, whether or not its nonce can be marked.
    let _ ← Intake.request (.store (.mark (p.nonceHash nonce)))
    return outcome

def run (p : Processor) (boxed : Boxed) : Intake Outcome := do
  let key ← senderKey boxed.sender
  let message ← p.decode boxed key
  Intake.request (.enter boxed.sender)
  Intake.notify (.started message)
  match ← Intake.attempt (p.handle message key boxed.nonce.bytes) with
  | .error e =>
    Intake.request (.leave boxed.sender)
    throw e
  | .ok outcome =>
    Intake.notify (.finished message)
    Intake.request (.leave boxed.sender)
    return outcome

/-- Processes one boxed message. -/
def process (p : Processor) (boxed : Boxed) : Script ProcessResult := do
  let _ ← Script.request (.notice .beforeDecode)
  match ← (p.run boxed).run with
  | .ok outcome => return .ok outcome
  | .error e =>
    let _ ← Script.request (.notice (.failed boxed.sender boxed.id e))
    return .error e

end Processor

end SecureInbox
