import SecureInbox.Proofs.Intake.Reply

/-! # What a refusal tells the peer

`receive_verdict` lists how an endpoint can end with an envelope, and what it has sent by then,
under whatever answers.  A refusal is announced by one rejection, with one exception: an opening
or answering frame of which no session can be made (`Endpoint.Unmade`) is refused in silence.
So `refusal_announced_iff`: where sessions are enabled, these two kinds of frames are just the ones
whose refusal the peer does not hear of. -/
set_option autoImplicit false

namespace SecureInbox

def Frame.isHandshake : Frame → Bool
  | .init _ _ => true
  | .accept _ _ => true
  | _ => false

/-! ## Following what is sent -/

namespace Posting

abbrev Mail := List (Identity × Envelope)

/-- The state is what was sent so far. -/
def rules : Rules Mail := .collecting Exchange.posted fun _ => True

theorem admitsAll (sent : Mail) (xs : List Exchange) : rules.AdmitsAll sent xs :=
  Rules.admitsAll_of_mem (fun _ _ _ => trivial) sent

theorem posted_silent {r : Request} (silent : r.IsSilent) (answer : r.Answer) :
    (⟨r, answer⟩ : Exchange).posted = none := by
  cases r with
  | host c => cases c <;> first | rfl | exact silent.elim
  | _ => rfl

variable {α : Type} {sent : Mail} {post : Mail → Except ProcessError α → Prop}

/-- A part that begins with a request by which nothing is sent. -/
theorem request_bind {r : Request} {f : r.Answer → Intake α} (silent : r.IsSilent)
    (rest : ∀ answer, (f answer).Obeys rules sent post) :
    (Intake.request r >>= f).Obeys rules sent post :=
  Intake.obeys_unpicked_bind (posted_silent silent) fun answer _ => rest answer

theorem store_bind {c : StoreCall} {f : c.Answer → Intake α}
    (rest : ∀ answer, (f answer).Obeys rules sent post)
    (failed : ∀ error, post sent (.error (.store error))) :
    (Intake.store c >>= f).Obeys rules sent post := by
  unfold Intake.store
  rw [bind_assoc]
  refine request_bind trivial fun answer => ?_
  cases answer with
  | ok answer => exact rest answer
  | error error => exact failed error

theorem send_bind {peer : Identity} {session : SessionId} {frame : Frame} {f : Unit → Intake α}
    (rest : (f ()).Obeys rules (sent ++ [(peer, ⟨session, frame⟩)]) post)
    (failed : ∀ reason, post sent (.error (.notReady reason))) :
    (Endpoint.send peer session frame >>= f).Obeys rules sent post := by
  unfold Endpoint.send
  rw [bind_assoc, Intake.obeys_bind, Intake.obeys_request]
  refine ⟨trivial, fun answer _ => ?_⟩
  cases answer with
  | ok _ => exact rest
  | error error =>
      show post (sent ++ []) _
      rw [List.append_nil]
      exact failed _

end Posting

/-! ## The verdicts -/

namespace Endpoint

open Posting (Mail)

inductive Unmade (e : Endpoint) (peer : Identity) (senderKey : Key) (id : SessionId) :
    Frame → Refusal → Prop where
  | init (offered : VersionRange) (peerEphemeral ephemeral : Key) (version : Version)
      (created : Instant) (error : CryptoError)
      (negotiated : e.policy.versions.negotiate offered = some version)
      (failed : Session.respond e.suite e.secret ephemeral id e.identity.text peer.text senderKey
        peerEphemeral version created = .error error) :
      Unmade e peer senderKey id (.init offered peerEphemeral) (.init error)
  | accept (offered : VersionRange) (peerEphemeral : Key) (version : Version) (s : Session)
      (error : CryptoError) (negotiated : e.policy.versions.negotiate offered = some version)
      (failed : s.accept e.suite e.secret peerEphemeral version = .error error) :
      Unmade e peer senderKey id (.accept offered peerEphemeral) (.accept error)

theorem Unmade.isHandshake {e : Endpoint} {peer : Identity} {senderKey : Key} {id : SessionId}
    {frame : Frame} {refusal : Refusal} (unmade : e.Unmade peer senderKey id frame refusal) :
    frame.isHandshake = true := by
  cases unmade <;> rfl

/-- How an endpoint ends with an envelope, when it has sent `before` until then. -/
inductive Verdict (e : Endpoint) (outer : Message) (senderKey : Key) (envelope : Envelope)
    (before : Mail) : Mail → Except ProcessError Received → Prop where
  | received (sent : Mail) (received : Received)
      (header : ∀ inner, received.inner = some inner →
        inner.sender = outer.sender ∧ inner.id = outer.id) :
      Verdict e outer senderKey envelope before sent (.ok received)
  | broken (sent : Mail) (error : StoreError) :
      Verdict e outer senderKey envelope before sent (.error (.store error))
  | waits (sent : Mail) (reason : String) :
      Verdict e outer senderKey envelope before sent (.error (.notReady reason))
  | unread (sent : Mail) (fault : FormatFault) :
      Verdict e outer senderKey envelope before sent (.error (.ofFault outer.sender fault))
  | refused (cause : Cause) (refusal : Refusal)
      (which : ¬(e.policy.enabled = true ∧ envelope.frame.isHandshake = true)) :
      Verdict e outer senderKey envelope before
        (before ++ [(outer.sender, ⟨envelope.session, .reject outer.id cause⟩)])
        (.error (.ofRefusal refusal))
  /-- Nothing is sent. -/
  | unmade (refusal : Refusal) (enabled : e.policy.enabled = true)
      (unmade : e.Unmade outer.sender senderKey envelope.session envelope.frame refusal) :
      Verdict e outer senderKey envelope before before (.error (.ofRefusal refusal))

section Receiving

variable {e : Endpoint} {outer : Message} {senderKey : Key} {before : Mail} {id : SessionId}

theorem verdict_control {envelope : Envelope} {sent : Mail} {session : SessionInfo} :
    Verdict e outer senderKey envelope before sent (.ok (.control session)) :=
  .received _ _ fun _ inner => nomatch inner

theorem send_verdict {envelope : Envelope} {sent : Mail} {peer : Identity} {frame : Frame}
    {session : SessionInfo} :
    (send peer id frame >>= fun _ => (return .control session : Intake Received)).Obeys
      Posting.rules sent (Verdict e outer senderKey envelope before) :=
  Posting.send_bind verdict_control fun _ => .waits _ _

theorem refuse_verdict {frame : Frame} {cause : Cause} {refusal : Refusal}
    (which : ¬(e.policy.enabled = true ∧ frame.isHandshake = true)) :
    (refuse (α := Received) outer id cause refusal).Obeys Posting.rules before
      (Verdict e outer senderKey ⟨id, frame⟩ before) :=
  Posting.send_bind (.refused cause refusal which) fun _ => .waits _ _

theorem receiveDisabled_verdict {envelope : Envelope} (disabled : e.policy.enabled = false) :
    (receiveDisabled outer envelope).Obeys Posting.rules before
      (Verdict e outer senderKey envelope before) := by
  have off : ¬(e.policy.enabled = true ∧ envelope.frame.isHandshake = true) := by
    rintro ⟨enabled, _⟩
    rw [disabled] at enabled
    cases enabled
  obtain ⟨id, frame⟩ := envelope
  cases frame with
  | init offered key => exact send_verdict
  | accept offered key => exact send_verdict
  | reject rejected cause => exact verdict_control
  | terminate cause => exact verdict_control
  | encapsulated content => exact refuse_verdict off

theorem receiveInit_verdict (enabled : e.policy.enabled = true) {offered : VersionRange}
    {peerEphemeral : Key} :
    (e.receiveInit outer.sender senderKey id offered peerEphemeral).Obeys Posting.rules before
      (Verdict e outer senderKey ⟨id, .init offered peerEphemeral⟩ before) := by
  unfold receiveInit
  cases negotiated : e.policy.versions.negotiate offered with
  | none => exact send_verdict
  | some version =>
      refine Posting.store_bind (fun _ => ?_) fun error => .broken _ error
      refine Posting.request_bind (r := .draw .key) trivial fun ephemeral => ?_
      refine Posting.request_bind (r := .now) trivial fun created => ?_
      split
      · next error failed =>
        exact .unmade _ enabled (.init _ _ ephemeral version created error negotiated failed)
      · exact Posting.store_bind (fun _ => send_verdict) fun error => .broken _ error

theorem receiveAccept_verdict (enabled : e.policy.enabled = true) {offered : VersionRange}
    {peerEphemeral : Key} :
    (e.receiveAccept outer.sender id offered peerEphemeral).Obeys Posting.rules before
      (Verdict e outer senderKey ⟨id, .accept offered peerEphemeral⟩ before) := by
  unfold receiveAccept
  refine Posting.store_bind (fun found => ?_) fun error => .broken _ error
  cases found with
  | none => exact send_verdict
  | some session =>
      dsimp only
      split
      · exact verdict_control
      · cases negotiated : e.policy.versions.negotiate offered with
        | none => exact Posting.store_bind (fun _ => send_verdict) fun error => .broken _ error
        | some version =>
            dsimp only
            split
            · next error failed =>
              exact .unmade _ enabled (.accept _ _ version session error negotiated failed)
            · exact Posting.store_bind (fun _ => verdict_control) fun error => .broken _ error

theorem receiveEncapsulated_verdict {content : Encapsulated} :
    (e.receiveEncapsulated outer senderKey id content).Obeys Posting.rules before
      (Verdict e outer senderKey ⟨id, .encapsulated content⟩ before) := by
  have which : ¬(e.policy.enabled = true ∧ (Frame.encapsulated content).isHandshake = true) :=
    fun handshake => nomatch handshake.2
  have dropped : ∀ refusal, (e.dropAndRefuse outer id refusal).Obeys Posting.rules before
      (Verdict e outer senderKey ⟨id, .encapsulated content⟩ before) := fun refusal =>
    Posting.store_bind (fun _ => refuse_verdict which) fun error => .broken _ error
  unfold receiveEncapsulated
  refine Posting.store_bind (fun found => ?_) fun error => .broken _ error
  cases found with
  | none => exact refuse_verdict which
  | some stored =>
      dsimp only
      split
      · exact dropped _
      · split
        · exact dropped _
        · split
          · exact .waits _ _
          · split
            · exact dropped _
            · split
              · unfold commit
                rw [bind_assoc]
                refine Posting.store_bind (fun _ => ?_) fun error => .broken _ error
                exact Posting.store_bind (fun _ => .unread _ _) fun error => .broken _ error
              · next read =>
                refine .received _ _ ?_
                rintro _ ⟨⟩
                exact innerMessage_header read

theorem receive_verdict (e : Endpoint) (outer : Message) (senderKey : Key) (envelope : Envelope)
    (before : Mail) : (e.receive outer senderKey envelope).Obeys Posting.rules before
      (Verdict e outer senderKey envelope before) := by
  unfold receive
  cases enabled : e.policy.enabled with
  | false => exact receiveDisabled_verdict enabled
  | true =>
      obtain ⟨id, frame⟩ := envelope
      have ended : (Intake.store (.erase (e.sessionKey outer.sender id)) >>= fun _ =>
          (return .control (.gone id) : Intake Received)).Obeys Posting.rules before
            (Verdict e outer senderKey ⟨id, frame⟩ before) :=
        Posting.store_bind (fun _ => verdict_control) fun error => .broken _ error
      cases frame with
      | init versions key => exact receiveInit_verdict enabled
      | accept versions key => exact receiveAccept_verdict enabled
      | encapsulated content => exact receiveEncapsulated_verdict
      | reject rejected cause => exact ended
      | terminate cause => exact ended

end Receiving

/-! ## Announced refusals -/

/-- Whatever is answered on the way, a refusal is announced to the sender by exactly one rejection
of the message, in the session of the envelope, unless the frame is one of the handshake and
sessions are enabled.  Then nothing is sent, and no session could be made of the frame. -/
theorem refusal_announced_iff (e : Endpoint) (outer : Message) (senderKey : Key) (envelope : Envelope)
    (xs : List Exchange) (reason : String)
    (reaches : Script.Reaches (e.receive outer senderKey envelope).run xs
      (.done (.error (.refused reason)))) :
    ((∃ cause, posts xs = [(outer.sender, ⟨envelope.session, .reject outer.id cause⟩)]) ↔
        ¬(e.policy.enabled = true ∧ envelope.frame.isHandshake = true)) ∧
      (e.policy.enabled = true ∧ envelope.frame.isHandshake = true →
        posts xs = [] ∧ ∃ refusal, reason = refusal.message ∧
          e.Unmade outer.sender senderKey envelope.session envelope.frame refusal) := by
  have verdict := (receive_verdict e outer senderKey envelope []).rest reaches (Posting.admitsAll _ _)
  rw [show Posting.rules.afterAll [] xs = [] ++ posts xs from Rules.afterAll_collecting _ _ _ _,
    List.nil_append] at verdict
  generalize posts xs = sent at verdict ⊢
  generalize ended : (Except.error (.refused reason) : Except ProcessError Received) = o at verdict
  cases verdict with
  | refused cause refusal which =>
      exact ⟨⟨fun _ => which, fun _ => ⟨cause, rfl⟩⟩, fun handshake => (which handshake).elim⟩
  | unmade refusal enabled unmade =>
      cases ended
      have handshake := And.intro enabled unmade.isHandshake
      refine ⟨⟨?_, fun which => (which handshake).elim⟩, fun _ => ⟨rfl, refusal, rfl, unmade⟩⟩
      rintro ⟨_, other⟩
      cases other
  | _ => cases ended

section Example

/-- An endpoint of ours that agrees on nothing with the zero key. -/
def wary : Endpoint :=
  let agree? secret peer := if peer = Block.zero 32 then none else Suite.plain.agree? secret peer
  { Setting.processor.endpoint with suite := { Suite.plain with agree? } }

def keyless : Envelope := ⟨Block.zero 16, .init .supported (Block.zero 32)⟩

/-- It is refused, and the peer does not hear of it. -/
theorem refusal_unannounced_keyless : ∃ xs,
    Script.Reaches (wary.receive (Setting.message .empty) Setting.peerKey keyless).run xs
      (.done (.error (.refused "init: Invalid key material: low-order peer public key"))) ∧
      posts xs = [] := by
  let ran := (wary.receive (Setting.message .empty) Setting.peerKey keyless).run.run wary.suite
    (.plain Setting.peerKey) .plain
  have reaches := Script.reaches_run wary.suite (.plain Setting.peerKey)
    (wary.receive (Setting.message .empty) Setting.peerKey keyless).run .plain
  have value : ran.value = .error (.refused "init: Invalid key material: low-order peer public key") := by
    rfl
  rw [show _ = _ from value] at reaches
  exact ⟨_, reaches, ((wary.refusal_announced_iff _ _ _ _ _ reaches).2 ⟨rfl, rfl⟩).1⟩

end Example

end Endpoint

end SecureInbox
