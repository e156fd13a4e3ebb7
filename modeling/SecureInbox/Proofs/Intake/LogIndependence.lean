import SecureInbox.Proofs.Intake.Requests

/-! # Scripts that do not hear the rejection log

The rejection log gives back the record that it has made, whose number and hash depend on all
records before it.  A script that goes on in one way whatever record it gets (`IgnoresLog`) is
free of this; the processing of a message is such a script (`process_ignoresLog`). -/
set_option autoImplicit false

namespace SecureInbox

def Request.isLogged : Request → Bool
  | .record _ => true
  | _ => false

/-- Whether a script goes on in one way whatever the rejection log gives back. -/
def Script.IgnoresLog {α : Type} : Script α → Prop
  | .done _ => True
  | .ask request next =>
    (request.isLogged = true → ∀ a b, next a = next b) ∧ ∀ answer, (next answer).IgnoresLog

theorem Script.IgnoresLog.andThen {α β : Type} {script : Script α} {f : α → Script β}
    (first : script.IgnoresLog) (second : ∀ a, (f a).IgnoresLog) : (script.andThen f).IgnoresLog := by
  induction script with
  | done value => exact second value
  | ask request next ih =>
      constructor
      · intro isLogged a b
        exact congrArg (fun script => script.andThen f) (first.1 isLogged a b)
      · intro answer
        exact ih answer (first.2 answer)

namespace Intake

variable {α β : Type}

def IgnoresLog (part : Intake α) : Prop := Script.IgnoresLog part.run

namespace IgnoresLog

theorem bind {part : Intake α} {f : α → Intake β} (first : IgnoresLog part)
    (second : ∀ a, IgnoresLog (f a)) : IgnoresLog (part >>= f) := by
  apply Script.IgnoresLog.andThen first
  intro result
  cases result with
  | ok a => exact second a
  | error e => trivial

theorem attempt {part : Intake α} (ignores : IgnoresLog part) : IgnoresLog (attempt part) :=
  Script.IgnoresLog.andThen ignores fun _ => trivial

theorem of_asks {allowed : Request → Prop} {part : Intake α} (asks : Asks allowed part)
    (unlogged : ∀ r, allowed r → r.isLogged = false) : IgnoresLog part := by
  have general : ∀ script : Script (Except ProcessError α),
      Script.Obeys (.only allowed) script () (fun _ _ => True) → script.IgnoresLog := by
    intro script
    induction script with
    | done value => exact fun _ => trivial
    | ask request next ih =>
        intro obeys
        constructor
        · intro isLogged
          rw [unlogged request obeys.1] at isLogged
          cases isLogged
        · intro answer
          exact ih answer (obeys.2 answer trivial)
  exact general part.run asks

theorem request {r : Request} (unlogged : r.isLogged = false) : IgnoresLog (Intake.request r) := by
  have asks : Asks (fun other => other.isLogged = false) (Intake.request r) :=
    (asks_request r).mpr unlogged
  exact of_asks asks fun _ => id

end IgnoresLog

end Intake

namespace Request

theorem unlogged_of_ofEndpoint {r : Request} (h : r.ofEndpoint) : r.isLogged = false := by
  cases r with
  | record rejection => cases h
  | _ => rfl

theorem unlogged_of_ofDispatch {r : Request} (h : r.ofDispatch) : r.isLogged = false := by
  cases r with
  | record rejection => cases h
  | _ => rfl

end Request

namespace Processor

open Intake (IgnoresLog)

variable (p : Processor)

theorem record_ignoresLog (sender : Identity) (id : MessageId) (typeByte : Option UInt8)
    (error : ProcessError) : IgnoresLog (record sender id typeByte error) :=
  ⟨fun _ _ _ => rfl, fun _ => trivial⟩

theorem reject_ignoresLog {α : Type} (sender : Identity) (id : MessageId) (typeByte : Option UInt8)
    (error : ProcessError) : IgnoresLog (reject (α := α) sender id typeByte error) :=
  .bind (record_ignoresLog _ _ _ _) fun _ => trivial

theorem senderKey_ignoresLog (sender : Identity) : IgnoresLog (senderKey sender) := by
  apply IgnoresLog.bind (.request rfl)
  intro answer
  split <;> trivial

theorem decode_ignoresLog (boxed : Boxed) (key : Key) : IgnoresLog (p.decode boxed key) := by
  rw [decode_eq]
  split
  · trivial
  · exact reject_ignoresLog _ _ _ _

theorem contentCheck_ignoresLog (message : Message) : IgnoresLog (p.contentCheck message) := by
  unfold contentCheck
  split
  · trivial
  · exact .bind (record_ignoresLog _ _ _ _) fun _ => trivial

theorem isBlocked_ignoresLog (message : Message) : IgnoresLog (isBlocked message) := by
  have asks : Intake.Asks (fun r => r.isLogged = false) (isBlocked message) :=
    isBlocked_asks_only message rfl fun _ => rfl
  exact .of_asks asks fun _ => id

theorem admission_ignoresLog (message : Message) : IgnoresLog (p.admission message) := by
  rw [admission_eq]
  split
  · apply IgnoresLog.bind (isBlocked_ignoresLog message)
    intro blocked
    cases blocked with
    | false => exact p.contentCheck_ignoresLog message
    | true => trivial
  · exact p.contentCheck_ignoresLog message

theorem dispatch_ignoresLog (message : Message) : IgnoresLog (dispatch message) :=
  .of_asks (dispatch_asks message) fun _ => Request.unlogged_of_ofDispatch

theorem commit_ignoresLog (session : Session) : IgnoresLog (p.endpoint.commit session) :=
  .of_asks (p.endpoint.commit_asks session) fun _ => Request.unlogged_of_ofEndpoint

theorem handleInner_ignoresLog (outer inner : Message) : IgnoresLog (p.handleInner outer inner) := by
  unfold handleInner
  split
  · exact reject_ignoresLog _ _ _ _
  · exact reject_ignoresLog _ _ _ _
  · apply IgnoresLog.bind (p.admission_ignoresLog inner)
    intro reason
    cases reason with
    | none => exact dispatch_ignoresLog inner
    | some reason => trivial

theorem handleEnvelope_ignoresLog (outer : Message) (key : Key) (envelope : Envelope) :
    IgnoresLog (p.handleEnvelope outer key envelope) := by
  have received : IgnoresLog (p.endpoint.receive outer key envelope) :=
    .of_asks (p.endpoint.receive_asks outer key envelope) fun _ => Request.unlogged_of_ofEndpoint
  apply IgnoresLog.bind received.attempt
  intro received
  cases received with
  | error e =>
      dsimp only
      split
      · exact .bind (record_ignoresLog _ _ _ _) fun _ => trivial
      · trivial
  | ok received =>
      dsimp only
      split
      · exact .bind (.bind (.request rfl) fun answer => by cases answer <;> trivial) fun _ => trivial
      · apply IgnoresLog.bind (p.handleInner_ignoresLog outer _).attempt
        intro settled
        split
        · cases settled <;> trivial
        · split
          · split
            · exact .bind (p.commit_ignoresLog _) fun _ => trivial
            · trivial
          · exact .bind (p.commit_ignoresLog _) fun _ => trivial

theorem settle_ignoresLog (message : Message) (key : Key) : IgnoresLog (p.settle message key) := by
  unfold settle
  split
  · exact p.handleEnvelope_ignoresLog _ _ _
  · apply IgnoresLog.bind (.of_asks (isDowngrade_asks _ _ _) fun _ => Request.unlogged_of_ofEndpoint)
    intro downgraded
    cases downgraded with
    | false => exact dispatch_ignoresLog message
    | true => exact .bind (.request rfl) fun _ => dispatch_ignoresLog message

theorem handle_ignoresLog (message : Message) (key : Key) (nonce : Bytes) :
    IgnoresLog (p.handle message key nonce) := by
  rw [handle_eq]
  apply IgnoresLog.bind (p.admission_ignoresLog message)
  intro reason
  cases reason with
  | some reason => trivial
  | none =>
      apply IgnoresLog.bind (.bind (.request rfl) fun answer => by cases answer <;> trivial)
      intro seen
      cases seen with
      | true => trivial
      | false =>
          apply IgnoresLog.bind (p.settle_ignoresLog message key)
          intro outcome
          exact .bind (.request rfl) fun _ => trivial

theorem run_ignoresLog (boxed : Boxed) : IgnoresLog (p.run boxed) := by
  apply IgnoresLog.bind (senderKey_ignoresLog _)
  intro key
  apply IgnoresLog.bind (p.decode_ignoresLog boxed key)
  intro message
  apply IgnoresLog.bind (.request rfl)
  intro _
  apply IgnoresLog.bind (.request rfl)
  intro _
  apply IgnoresLog.bind (p.handle_ignoresLog message key _).attempt
  intro handled
  cases handled with
  | error e => exact .bind (.request rfl) fun _ => trivial
  | ok outcome => exact .bind (.request rfl) fun _ => .bind (.request rfl) fun _ => trivial

/-- A message is processed in one way whatever the rejection log gives back. -/
theorem process_ignoresLog (boxed : Boxed) : (p.process boxed).IgnoresLog := by
  refine ⟨nofun, fun _ => ?_⟩
  change ((p.run boxed).run.andThen _).IgnoresLog
  apply Script.IgnoresLog.andThen (p.run_ignoresLog boxed)
  intro result
  cases result with
  | ok outcome => trivial
  | error e => exact ⟨nofun, fun _ => trivial⟩

end Processor

end SecureInbox
