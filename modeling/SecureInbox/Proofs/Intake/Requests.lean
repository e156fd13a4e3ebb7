import SecureInbox.Proofs.Intake.Handling
import SecureInbox.Proofs.Script.Rules

/-! # Which requests each stage makes

An endpoint that receives a frame asks for sessions and sends frames
(`receive_asks`).  The handlers of a message ask for changes of the application's
records (`dispatch_asks`), and admission only looks things up and writes to the
rejection log (`admission_asks`).  Together, what stands between the nonce check and
the mark never concerns a nonce or a peer's turn (`settle_asks`). -/
set_option autoImplicit false

namespace SecureInbox

namespace Request

def ofEndpoint : Request → Prop
  | .host (.send _ _) => True
  | .store (.seen _) => False
  | .store (.mark _) => False
  | .store _ => True
  | .draw _ => True
  | .now => True
  | _ => False

def ofDispatch : Request → Prop
  | .host (.handleGroup _ _) => True
  | .host (.change _) => True
  | .host (.schedule _) => True
  | .notice _ => True
  | _ => False

/-- What the stages before the nonce check ask. -/
def ofAdmission : Request → Prop
  | .host (.publicKey _) => True
  | .host (.isBlocked _) => True
  | .host (.isMember _) => True
  | .record _ => True
  | _ => False

/-- What is asked for a message that is not in an envelope any more. -/
def ofHandling (r : Request) : Prop := r.ofAdmission ∨ r.ofDispatch

def isInner : Request → Prop
  | .enter _ => False
  | .leave _ => False
  | .store (.seen _) => False
  | .store (.mark _) => False
  | _ => True

theorem isInner_of_ofEndpoint {r : Request} (h : r.ofEndpoint) : r.isInner := by
  cases r with
  | store c => cases c <;> first | exact trivial | exact h.elim
  | enter peer => exact h.elim
  | leave peer => exact h.elim
  | _ => trivial

theorem isInner_of_ofDispatch {r : Request} (h : r.ofDispatch) : r.isInner := by
  cases r with
  | host c => trivial
  | notice n => trivial
  | _ => exact h.elim

theorem isInner_of_ofAdmission {r : Request} (h : r.ofAdmission) : r.isInner := by
  cases r with
  | host c => trivial
  | record rejection => trivial
  | _ => exact h.elim

theorem isInner_of_ofHandling {r : Request} (h : r.ofHandling) : r.isInner :=
  h.elim isInner_of_ofAdmission isInner_of_ofDispatch

end Request

namespace Endpoint

open Intake (Asks Gives)

variable (e : Endpoint)

theorem send_asks (peer : Identity) (session : SessionId) (frame : Frame) :
    Asks Request.ofEndpoint (send peer session frame) := by
  refine Asks.bind ((Intake.asks_request _).mpr trivial) fun answer => ?_
  cases answer <;> trivial

/-- A message is refused, or that cannot be said. -/
theorem refuse_gives {α : Type} (outer : Message) (session : SessionId) (cause : Cause)
    (refusal : Refusal) :
    Gives Request.ofEndpoint (refuse (α := α) outer session cause refusal) fun o => ∀ a, o ≠ .ok a :=
  Asks.gives_bind (send_asks _ _ _) (fun _ _ other => nomatch other) fun _ _ other => nomatch other

theorem dropAndRefuse_gives {α : Type} (outer : Message) (session : SessionId) (refusal : Refusal) :
    Gives Request.ofEndpoint (e.dropAndRefuse (α := α) outer session refusal) fun o => ∀ a, o ≠ .ok a :=
  Asks.gives_bind ((Intake.asks_store _).mpr trivial) (fun _ => refuse_gives _ _ _ _)
    fun _ _ other => nomatch other

/-- A frame that is bound to its session and authentic, what it holds, and the session
behind it. -/
structure Authentic (e : Endpoint) (senderKey : Key) (content : Encapsulated) (s : Session)
    (plaintext : Bytes) (t : Session) : Prop where
  bound : s.isBoundTo senderKey = true
  known : e.policy.versions.contains content.applied = true
  ready : ¬(content.sealed.agreement = .four ∧ s.role = .initiator ∧ s.state = .l20)
  decrypted : s.decrypt e.suite content.sealed e.policy.maxSkip = (.ok plaintext, t)

def IsControl (o : Except ProcessError Received) : Prop := ∀ received, o = .ok received → received.inner = none

theorem isControl_error (error : ProcessError) : IsControl (.error error) := fun _ other => nomatch other

theorem isControl_control (session : SessionInfo) : IsControl (.ok (.control session)) := by
  rintro _ ⟨⟩
  rfl

theorem send_gives_control (peer : Identity) (id : SessionId) (frame : Frame) (session : SessionInfo) :
    Gives Request.ofEndpoint
      (send peer id frame >>= fun _ => (return .control session : Intake Received)) IsControl :=
  Asks.gives_bind (send_asks _ _ _) (fun _ => isControl_control session) isControl_error

theorem receiveDisabled_gives (outer : Message) (envelope : Envelope) :
    Gives Request.ofEndpoint (receiveDisabled outer envelope) IsControl := by
  unfold receiveDisabled
  cases envelope.frame with
  | init versions key => exact send_gives_control _ _ _ _
  | accept versions key => exact send_gives_control _ _ _ _
  | reject rejected cause => exact isControl_control _
  | terminate cause => exact isControl_control _
  | encapsulated content =>
      exact (refuse_gives _ _ _ _).mono fun _ never received same => (never received same).elim

theorem receiveInit_gives (peer : Identity) (senderKey : Key) (id : SessionId)
    (offered : VersionRange) (peerEphemeral : Key) :
    Gives Request.ofEndpoint (e.receiveInit peer senderKey id offered peerEphemeral) IsControl := by
  unfold receiveInit
  cases e.policy.versions.negotiate offered with
  | none => exact send_gives_control _ _ _ _
  | some version =>
      refine Asks.gives_bind ((Intake.asks_store _).mpr trivial) (fun _ => ?_) isControl_error
      refine Asks.gives_bind ((Intake.asks_draw _).mpr trivial) (fun ephemeral => ?_) isControl_error
      refine Asks.gives_bind ((Intake.asks_request _).mpr trivial) (fun created => ?_) isControl_error
      split
      · exact isControl_error _
      · refine Asks.gives_bind ((Intake.asks_store _).mpr trivial) (fun _ => ?_) isControl_error
        exact send_gives_control _ _ _ _

theorem receiveAccept_gives (peer : Identity) (id : SessionId) (offered : VersionRange)
    (peerEphemeral : Key) :
    Gives Request.ofEndpoint (e.receiveAccept peer id offered peerEphemeral) IsControl := by
  refine Asks.gives_bind ((Intake.asks_store _).mpr trivial) (fun found => ?_) isControl_error
  cases found with
  | none => exact send_gives_control _ _ _ _
  | some session =>
      dsimp only
      split
      · exact isControl_control _
      · split
        · refine Asks.gives_bind ((Intake.asks_store _).mpr trivial) (fun _ => ?_) isControl_error
          exact send_gives_control _ _ _ _
        · split
          · exact isControl_error _
          · exact Asks.gives_bind ((Intake.asks_store _).mpr trivial)
              (fun _ => isControl_control _) isControl_error

theorem commit_asks (session : Session) : Asks Request.ofEndpoint (e.commit session) :=
  Asks.bind ((Intake.asks_store _).mpr trivial) fun _ => (Intake.asks_store _).mpr trivial

/-- What comes of a protected frame that has a message in it, given what was found under the
key of its session. -/
def Carries (e : Endpoint) (outer : Message) (senderKey : Key) (content : Encapsulated)
    (found : Option Session) (o : Except ProcessError Received) : Prop :=
  ∀ received m, o = .ok received → received.inner = some m → ∃ s plaintext t,
    found = some s ∧ Authentic e senderKey content s plaintext t ∧
      innerMessage outer plaintext content.group = .ok m

theorem carries_error (outer : Message) (senderKey : Key) (content : Encapsulated)
    (found : Option Session) (error : ProcessError) :
    e.Carries outer senderKey content found (.error error) := fun _ _ other => nomatch other

theorem receiveEncapsulated_gives (outer : Message) (senderKey : Key) (id : SessionId)
    (content : Encapsulated) :
    ∃ rest, e.receiveEncapsulated outer senderKey id content =
        Intake.store (.find (e.sessionKey outer.sender id)) >>= rest ∧
      ∀ found, Gives Request.ofEndpoint (rest found) (e.Carries outer senderKey content found) := by
  refine ⟨_, rfl, fun found => ?_⟩
  have never : ∀ o : Except ProcessError Received, (∀ a, o ≠ .ok a) →
      e.Carries outer senderKey content found o := fun _ never _ _ same => (never _ same).elim
  cases found with
  | none => exact (refuse_gives _ _ _ _).mono never
  | some stored =>
      dsimp only
      cases bound : stored.isBoundTo senderKey with
      | false => exact (e.dropAndRefuse_gives _ _ _).mono never
      | true =>
      rw [if_neg (by decide)]
      cases known : e.policy.versions.contains content.applied with
      | false => exact (e.dropAndRefuse_gives _ _ _).mono never
      | true =>
      rw [if_neg (by decide)]
      by_cases early : content.sealed.agreement = .four ∧ stored.role = .initiator ∧ stored.state = .l20
      · rw [if_pos early]
        exact e.carries_error _ _ _ _ _
      · rw [if_neg early]
        split
        · exact (e.dropAndRefuse_gives _ _ _).mono never
        · next plaintext t decrypted =>
          split
          · exact Asks.gives_bind (e.commit_asks _) (fun _ => e.carries_error _ _ _ _ _)
              (e.carries_error _ _ _ _)
          · next inner read =>
            rintro _ m ⟨⟩ ⟨⟩
            exact ⟨stored, plaintext, t, rfl, ⟨bound, known, early, decrypted⟩, read⟩

theorem receive_asks (outer : Message) (senderKey : Key) (envelope : Envelope) :
    Asks Request.ofEndpoint (e.receive outer senderKey envelope) := by
  unfold receive
  split
  · exact (receiveDisabled_gives _ _).asks
  · cases envelope.frame with
    | init versions key => exact (e.receiveInit_gives _ _ _ _ _).asks
    | accept versions key => exact (e.receiveAccept_gives _ _ _ _).asks
    | encapsulated content =>
        obtain ⟨rest, same, gives⟩ := e.receiveEncapsulated_gives outer senderKey envelope.session content
        show Asks _ (e.receiveEncapsulated outer senderKey envelope.session content)
        rw [same]
        exact Asks.bind ((Intake.asks_store _).mpr trivial) fun found => (gives found).asks
    | reject rejected cause => exact Asks.bind ((Intake.asks_store _).mpr trivial) fun _ => trivial
    | terminate cause => exact Asks.bind ((Intake.asks_store _).mpr trivial) fun _ => trivial

end Endpoint

namespace Processor

open Intake (Asks)

variable (p : Processor)

theorem record_asks (sender : Identity) (id : MessageId) (typeByte : Option UInt8)
    (error : ProcessError) : Asks Request.ofAdmission (record sender id typeByte error) :=
  Asks.bind ((Intake.asks_request _).mpr trivial) fun _ => trivial

theorem reject_asks {α : Type} (sender : Identity) (id : MessageId) (typeByte : Option UInt8)
    (error : ProcessError) :
    Asks Request.ofAdmission (reject (α := α) sender id typeByte error) :=
  Asks.bind (record_asks _ _ _ _) fun _ => trivial

theorem senderKey_asks (sender : Identity) : Asks Request.ofAdmission (senderKey sender) := by
  refine Asks.bind ((Intake.asks_request _).mpr trivial) fun answer => ?_
  split <;> trivial

theorem decode_asks (boxed : Boxed) (key : Key) : Asks Request.ofAdmission (p.decode boxed key) := by
  rw [decode_eq]
  split
  · trivial
  · exact reject_asks _ _ _ _

/-- The blocklist asks for a sender, and for the group of a change of one. -/
theorem isBlocked_asks_only {allowed : Request → Prop} (message : Message)
    (blocked : allowed (.host (.isBlocked message.sender)))
    (member : ∀ group, allowed (.host (.isMember group))) : Asks allowed (isBlocked message) := by
  refine Asks.bind ((Intake.asks_host _).mpr blocked) fun blocked => ?_
  cases blocked with
  | false => trivial
  | true =>
      rw [if_neg (by decide)]
      split
      · exact Asks.bind ((Intake.asks_host _).mpr (member _)) fun _ => trivial
      · trivial

theorem isBlocked_asks (message : Message) : Asks Request.ofAdmission (isBlocked message) :=
  isBlocked_asks_only message trivial fun _ => trivial

theorem contentCheck_asks (message : Message) :
    Asks Request.ofAdmission (p.contentCheck message) := by
  unfold contentCheck
  split
  · trivial
  · exact Asks.bind (record_asks _ _ _ _) fun _ => trivial

theorem admission_asks (message : Message) : Asks Request.ofAdmission (p.admission message) := by
  rw [admission_eq]
  split
  · refine Asks.bind (isBlocked_asks message) fun blocked => ?_
    cases blocked with
    | false => exact p.contentCheck_asks message
    | true => trivial
  · exact p.contentCheck_asks message

theorem changed_asks (message : Message) (change : Change) :
    Asks Request.ofDispatch (changed message change) :=
  Asks.bind ((Intake.asks_host _).mpr trivial) fun _ => (Intake.asks_notify _).mpr trivial

theorem part_asks (message : Message) (handling : Handling) :
    Asks Request.ofDispatch (handling.part message) := by
  cases handling with
  | change c isTold =>
      cases isTold with
      | true => exact changed_asks message c
      | false => exact (Intake.asks_host _).mpr trivial
  | notice n => exact (Intake.asks_notify _).mpr trivial
  | nothing => trivial
  | failure e => trivial

theorem fetchBlobs_asks (message : Message) : Asks Request.ofDispatch (fetchBlobs message) := by
  unfold fetchBlobs
  split
  · exact (Intake.asks_host _).mpr trivial
  · trivial

theorem handleByKind_asks (message : Message) : Asks Request.ofDispatch (handleByKind message) := by
  rw [handleByKind_eq]
  exact Asks.bind (part_asks _ _) fun _ => fetchBlobs_asks message

theorem dispatch_asks (message : Message) : Asks Request.ofDispatch (dispatch message) := by
  unfold dispatch
  cases message.group? with
  | none => exact Asks.bind (handleByKind_asks message) fun _ => trivial
  | some group =>
      refine Asks.bind ((Intake.asks_host _).mpr trivial) fun decision => ?_
      cases decision with
      | handled => trivial
      | declined => exact Asks.bind (handleByKind_asks message) fun _ => trivial

/-! ## Between the nonce check and the mark -/

theorem handleInner_asks (outer inner : Message) :
    Asks Request.ofHandling (p.handleInner outer inner) := by
  unfold handleInner
  split
  · exact (reject_asks _ _ _ _).mono fun _ => .inl
  · exact (reject_asks _ _ _ _).mono fun _ => .inl
  · refine Asks.bind ((p.admission_asks inner).mono fun _ => .inl) ?_
    intro reason
    cases reason with
    | none => exact (dispatch_asks inner).mono fun _ => .inr
    | some reason => trivial

theorem handleEnvelope_asks (outer : Message) (key : Key) (envelope : Envelope) :
    Asks Request.isInner (p.handleEnvelope outer key envelope) := by
  have commits : ∀ session, Asks Request.isInner (p.endpoint.commit session) := fun session =>
    (p.endpoint.commit_asks session).mono fun _ => Request.isInner_of_ofEndpoint
  refine Asks.bind (((p.endpoint.receive_asks outer key envelope).mono fun _ =>
    Request.isInner_of_ofEndpoint).attempt) fun received => ?_
  cases received with
  | error e =>
      dsimp only
      split
      · exact Asks.bind ((record_asks _ _ _ _).mono fun _ => Request.isInner_of_ofAdmission)
          fun _ => trivial
      · trivial
  | ok received =>
      dsimp only
      split
      · exact Asks.bind ((Intake.asks_host _).mpr trivial) fun _ => trivial
      · refine Asks.bind ((p.handleInner_asks outer _).mono fun _ =>
          Request.isInner_of_ofHandling).attempt fun settled => ?_
        split
        · trivial
        · split
          · split
            · exact Asks.bind (commits _) fun _ => trivial
            · trivial
          · exact Asks.bind (commits _) fun _ => trivial

theorem isDowngrade_asks (e : Endpoint) (sender : Identity) (message : Message) :
    Asks Request.ofEndpoint (e.isDowngrade sender message) := by
  unfold Endpoint.isDowngrade
  split
  · trivial
  · exact Asks.bind ((Intake.asks_store _).mpr trivial) fun _ => trivial

theorem settle_asks (message : Message) (key : Key) :
    Asks Request.isInner (p.settle message key) := by
  have dispatched : Asks Request.isInner (dispatch message) :=
    (dispatch_asks message).mono fun _ => Request.isInner_of_ofDispatch
  unfold settle
  split
  · exact p.handleEnvelope_asks _ _ _
  · refine Asks.bind ((isDowngrade_asks _ _ _).mono fun _ =>
      Request.isInner_of_ofEndpoint) fun downgraded => ?_
    cases downgraded with
    | false => exact dispatched
    | true => exact Asks.bind ((Intake.asks_notify _).mpr trivial) fun _ => dispatched

end Processor

end SecureInbox
