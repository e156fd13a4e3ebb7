import SecureInbox.Intake.Processor

/-! # The stages in parts

The handlers of all kinds come to four: a change of the application's records, a
notice, nothing, or a failure.  `Message.handling` says which one a message has, and
`handleByKind_eq` that handling a message is that and then fetching its blobs.
`decode_eq`, `admission_eq` and `handle_eq` cut the stages before it into theirs. -/
set_option autoImplicit false

namespace SecureInbox

inductive Handling where
  /-- The application's records change; for some kinds the application is told as well. -/
  | change (change : Change) (isTold : Bool)
  | notice (notice : Notice)
  | nothing
  | failure (error : ProcessError)

namespace Handling

def part (message : Message) : Handling → Intake Unit
  | .change c true => Processor.changed message c
  | .change c false => Intake.host (.change c)
  | .notice n => Intake.notify n
  | .nothing => return ()
  | .failure e => throw e

end Handling

def Message.handling (m : Message) : Handling :=
  match m.body with
  | .contactSetPhoto photo => .change (.photo m.sender (some photo)) false
  | .contactDeletePhoto => .change (.photo m.sender none) false
  | .contactRequestPhoto => .change (.photoRequested m.sender) false
  | .receipt group type ids => .change (.receipt m.sender group type ids) true
  | .reaction group id action emoji => .change (.reaction m.sender group id action emoji) true
  | .edit group id text => .change (.edit m.sender group id text) true
  | .delete group id => .change (.delete m.sender group id) true
  | .typing active => .notice (.typing m.sender active)
  | .callOffer _ => .notice (.call m.sender m.body)
  | .callAnswer _ => .notice (.call m.sender m.body)
  | .callCandidates _ => .notice (.call m.sender m.body)
  | .callHangup _ => .notice (.call m.sender m.body)
  | .callRinging _ => .notice (.call m.sender m.body)
  | .empty => .nothing
  | .groupCreate _ _ => .failure (.noHandler m.body.kindName)
  | .groupRename _ _ => .failure (.noHandler m.body.kindName)
  | .groupLeave _ => .failure (.noHandler m.body.kindName)
  | .groupSetPhoto _ _ => .failure (.noHandler m.body.kindName)
  | .groupRequestSync _ => .failure (.noHandler m.body.kindName)
  | .groupDeletePhoto _ => .failure (.noHandler m.body.kindName)
  | .authToken _ => .failure (.noHandler m.body.kindName)
  | .envelope _ => .failure (.ofFault m.sender .nestedEnvelope)
  | .unknown typeByte _ => .failure (.unknownType typeByte)
  | _ => .change (.store m) true

theorem Intake.ite_bind {α β : Type} (c : Prop) [Decidable c] (first second : Intake α)
    (f : α → Intake β) :
    (if c then first else second) >>= f = if c then first >>= f else second >>= f := by
  split <;> rfl

namespace Processor

def fetchBlobs (message : Message) : Intake Unit :=
  if message.needsBlobs then Intake.host (.schedule message) else return ()

theorem handleByKind_eq (message : Message) :
    handleByKind message = message.handling.part message >>= fun _ => fetchBlobs message := by
  unfold handleByKind Message.handling
  cases kind : message.body with
  | empty =>
      have none : message.needsBlobs = false := by simp [Message.needsBlobs, kind]
      simp only [fetchBlobs, none]
      rfl
  | _ => rfl

theorem reject_bind {α β : Type} (sender : Identity) (id : MessageId) (typeByte : Option UInt8)
    (error : ProcessError) (f : α → Intake β) :
    reject sender id typeByte error >>= f = reject sender id typeByte error := rfl

/-- The message in a box; or its type byte, as far as known, and the failure. -/
def opening (p : Processor) (boxed : Boxed) (key : Key) :
    Except (Option UInt8 × ProcessError) Message :=
  if boxed.receiver ≠ p.endpoint.identity then
    .error (none, .ofFault boxed.sender (.addressedTo boxed.receiver))
  else
    match boxed.message p.endpoint.suite p.endpoint.secret key with
    | .error e => .error (none, .ofFault boxed.sender (.unopened e))
    | .ok message =>
      match message.body with
      | .unknown typeByte _ => .error (some typeByte, .unknownType typeByte)
      | _ => .ok message

section Opening

variable {p : Processor} {boxed : Boxed} {key : Key} {m : Message}

theorem opening_misaddressed (wrong : boxed.receiver ≠ p.endpoint.identity) (key : Key) :
    p.opening boxed key = .error (none, .ofFault boxed.sender (.addressedTo boxed.receiver)) :=
  if_pos wrong

theorem opening_known (addressed : boxed.receiver = p.endpoint.identity)
    (read : boxed.message p.endpoint.suite p.endpoint.secret key = .ok m)
    (known : ∀ typeByte content, m.body ≠ .unknown typeByte content) :
    p.opening boxed key = .ok m := by
  unfold opening
  rw [if_neg (not_not_intro addressed), read]
  dsimp only
  split
  · next typeByte content body => exact (known typeByte content body).elim
  · rfl

theorem opening_unknown {typeByte : UInt8} {content : Bytes}
    (addressed : boxed.receiver = p.endpoint.identity)
    (read : boxed.message p.endpoint.suite p.endpoint.secret key = .ok m)
    (body : m.body = .unknown typeByte content) :
    p.opening boxed key = .error (some typeByte, .unknownType typeByte) := by
  unfold opening
  rw [if_neg (not_not_intro addressed), read]
  dsimp only
  rw [body]

theorem opening_unread {e : OpenError} (addressed : boxed.receiver = p.endpoint.identity)
    (unread : boxed.message p.endpoint.suite p.endpoint.secret key = .error e) :
    p.opening boxed key = .error (none, .ofFault boxed.sender (.unopened e)) := by
  unfold opening
  rw [if_neg (not_not_intro addressed), unread]

end Opening

theorem decode_eq (p : Processor) (boxed : Boxed) (key : Key) :
    p.decode boxed key =
      match p.opening boxed key with
      | .ok message => pure message
      | .error (typeByte, e) => reject boxed.sender boxed.id typeByte e := by
  unfold decode opening
  dsimp only
  split
  · exact reject_bind _ _ _ _ _
  · cases boxed.message p.endpoint.suite p.endpoint.secret key with
    | error e => rfl
    | ok message =>
        dsimp only
        cases message.body <;> rfl

def contentCheck (p : Processor) (message : Message) : Intake (Option DropReason) :=
  if message.hasValidContent p.limits then return none
  else do
    record message.sender message.id (some message.body.typeByte)
      (.invalidContent message.body.kindName)
    return some .invalidContent

/-- Admission is the blocklist, for what is no envelope, and then the content check. -/
theorem admission_eq (p : Processor) (message : Message) :
    p.admission message =
      if !message.body.isEnvelope then
        isBlocked message >>= fun blocked =>
          if blocked then pure (some .blockedSender) else p.contentCheck message
      else p.contentCheck message := rfl

/-- What stands between the nonce check and the mark. -/
def settle (p : Processor) (message : Message) (key : Key) : Intake Outcome :=
  match message.body with
  | .envelope envelope => p.handleEnvelope message key envelope
  | _ => do
    if ← p.endpoint.isDowngrade message.sender message then
      Intake.notify (.downgraded message.sender message)
    dispatch message

theorem handle_eq (p : Processor) (message : Message) (key : Key) (nonce : Bytes) :
    p.handle message key nonce = (do
      match ← p.admission message with
      | some reason => return .dropped reason
      | none =>
        if ← Intake.store (.seen (p.nonceHash nonce)) then return .dropped .alreadyProcessed
        let outcome ← p.settle message key
        let _ ← Intake.request (.store (.mark (p.nonceHash nonce)))
        return outcome) := by
  unfold handle settle
  cases message.body with
  | envelope envelope => rfl
  | _ =>
      refine bind_congr fun reason => ?_
      cases reason with
      | some reason => rfl
      | none =>
          refine bind_congr fun seen => ?_
          cases seen with
          | true => rfl
          | false => simp only [bind_assoc, Intake.ite_bind, Bool.false_eq_true, if_false]

end Processor

end SecureInbox
