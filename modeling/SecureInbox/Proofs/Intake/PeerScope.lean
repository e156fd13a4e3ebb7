import SecureInbox.Proofs.Intake.Arrival
import SecureInbox.Proofs.Session.Shape

/-! # What a message concerns

A `PeerScope` is what belongs to one peer of an endpoint: their sessions, and the traces of some
nonces.  `PeerScope.rules` let a script ask about no other sessions or nonces, and have no other turn
than the peer's, which it takes only while it does not have it.  They count on it that a session is
found under its own key.

The processing of a message stays in the scope of its sender (`process_scope`). -/
set_option autoImplicit false

namespace SecureInbox

structure PeerScope where
  mine : String
  peer : Identity
  /-- Whether a hash is the trace of one of the nonces. -/
  traces : NonceHash → Prop

/-- Whether an answer is not a session that was filed under the key of another. -/
def Exchange.isFiled : Exchange → Prop
  | ⟨.store (.find key), answer⟩ => ∀ s, answer = .ok (some s) → s.fileKey = key
  | _ => True

def Request.isApart : Request → Prop
  | .store _ => False
  | .enter _ => False
  | .leave _ => False
  | _ => True

namespace PeerScope

variable (c : PeerScope)

def holds (key : SessionKey) : Prop := key.isOfPair c.mine c.peer.text = true

def has : Request → Prop
  | .store (.seen hash) => c.traces hash
  | .store (.mark hash) => c.traces hash
  | .store (.best mine peer) => mine = c.mine ∧ peer = c.peer.text
  | .store (.find key) => c.holds key
  | .store (.put s) => c.holds s.fileKey
  | .store (.erase key) => c.holds key
  | .store (.erasePair mine peer) => mine = c.mine ∧ peer = c.peer.text
  | .enter peer => peer = c.peer
  | .leave peer => peer = c.peer
  | _ => True

def insideAfter (inside : Bool) : Exchange → Bool
  | ⟨.enter _, _⟩ => true
  | ⟨.leave _, _⟩ => false
  | _ => inside

def rules : Rules Bool where
  allows inside r := c.has r ∧ ((∃ peer, r = .enter peer) → inside = false)
  admits _ x := x.isFiled
  after := insideAfter

/-- Whether a part stays in the scope, leaves the turn as it is and ends as `post` says. -/
def Keeps {α : Type} (inside : Bool) (part : Intake α) (post : Except ProcessError α → Prop) : Prop :=
  part.Obeys c.rules inside fun s o => s = inside ∧ post o

variable {c} {inside : Bool}

theorem holds_iff {key : SessionKey} : c.holds key ↔ key.mine = c.mine ∧ key.peer = c.peer.text := by
  simp [holds, SessionKey.isOfPair]

namespace Keeps

variable {α β : Type}

theorem of_asks {part : Intake α} (asks : Intake.Asks Request.isApart part) :
    c.Keeps inside part fun _ => True := by
  have kept : part.Obeys c.rules inside fun s _ => s = inside := by
    apply asks.obeys
    intro r apart
    cases r with
    | store call => cases apart
    | enter peer => cases apart
    | leave peer => cases apart
    | _ => exact ⟨⟨trivial, nofun⟩, fun _ _ => rfl⟩
  exact kept.mono fun _ _ same => ⟨same, trivial⟩

theorem store {call : StoreCall} (own : c.has (.store call)) :
    c.Keeps inside (Intake.store call) fun o =>
      ∀ a, o = .ok a → Exchange.isFiled ⟨.store call, .ok a⟩ := by
  refine (Intake.obeys_store _ _ _ _).mpr ⟨⟨own, nofun⟩, fun answer admitted => ⟨rfl, ?_⟩⟩
  intro a given
  cases answer with
  | error e => cases given
  | ok value =>
      cases given
      exact admitted

theorem bind {part : Intake α} {f : α → Intake β} {mid : Except ProcessError α → Prop}
    {post : Except ProcessError β → Prop} (first : c.Keeps inside part mid)
    (second : ∀ a, mid (.ok a) → c.Keeps inside (f a) post)
    (failed : ∀ e, mid (.error e) → post (.error e)) : c.Keeps inside (part >>= f) post := by
  refine (Intake.obeys_bind _ _ _ _ _).mpr (first.mono ?_)
  rintro s o ⟨rfl, holds⟩
  cases o with
  | error e => exact ⟨rfl, failed e holds⟩
  | ok a => exact second a holds

/-- A question to a store whose failure ends the part. -/
theorem store_bind {call : StoreCall} {f : call.Answer → Intake β}
    {post : Except ProcessError β → Prop} (own : c.has (.store call))
    (second : ∀ a, Exchange.isFiled ⟨.store call, .ok a⟩ → c.Keeps inside (f a) post)
    (failed : ∀ e, post (.error e)) : c.Keeps inside (Intake.store call >>= f) post :=
  bind (store own) (fun a filed => second a (filed a rfl)) fun e _ => failed e

/-- What concerns no store and no turn, and whose failure ends the part. -/
theorem asks_bind {part : Intake α} {f : α → Intake β} {post : Except ProcessError β → Prop}
    (asks : Intake.Asks Request.isApart part) (second : ∀ a, c.Keeps inside (f a) post)
    (failed : ∀ e, post (.error e)) : c.Keeps inside (part >>= f) post :=
  bind (of_asks asks) (fun a _ => second a) fun e _ => failed e

theorem attempt_bind {part : Intake α} {f : Except ProcessError α → Intake β}
    {mid : Except ProcessError α → Prop} {post : Except ProcessError β → Prop}
    (first : c.Keeps inside part mid) (second : ∀ o, mid o → c.Keeps inside (f o) post) :
    c.Keeps inside (Intake.attempt part >>= f) post := by
  refine (Intake.obeys_bind _ _ _ _ _).mpr ((Intake.obeys_attempt _ _ _ _).mpr (first.mono ?_))
  rintro s o ⟨rfl, holds⟩
  exact second o holds

theorem mono {part : Intake α} {post weaker : Except ProcessError α → Prop}
    (keeps : c.Keeps inside part post) (imp : ∀ o, post o → weaker o) : c.Keeps inside part weaker :=
  Intake.Obeys.mono keeps fun _ o both => ⟨both.1, imp o both.2⟩

theorem pure {a : α} {post : Except ProcessError α → Prop} (holds : post (.ok a)) :
    c.Keeps inside (Pure.pure a) post := ⟨rfl, holds⟩

theorem throw {e : ProcessError} {post : Except ProcessError α → Prop} (holds : post (.error e)) :
    c.Keeps inside (throw e : Intake α) post := ⟨rfl, holds⟩

end Keeps

end PeerScope

namespace Request

theorem isApart_of_ofAdmission {r : Request} (h : r.ofAdmission) : r.isApart := by
  cases r with
  | host call => trivial
  | record rejection => trivial
  | _ => exact h.elim

theorem isApart_of_ofDispatch {r : Request} (h : r.ofDispatch) : r.isApart := by
  cases r with
  | host call => trivial
  | notice n => trivial
  | _ => exact h.elim

theorem isApart_of_ofHandling {r : Request} (h : r.ofHandling) : r.isApart :=
  h.elim isApart_of_ofAdmission isApart_of_ofDispatch

end Request

/-! ## The endpoint -/

namespace Endpoint

open Intake (Asks)

variable (e : Endpoint) {peer : Identity} {traces : NonceHash → Prop} {inside : Bool}

def scope (peer : Identity) (traces : NonceHash → Prop) : PeerScope := ⟨e.identity.text, peer, traces⟩

theorem holds_sessionKey (id : SessionId) : (e.scope peer traces).holds (e.sessionKey peer id) :=
  PeerScope.holds_iff.mpr ⟨rfl, rfl⟩

def IsPending (c : PeerScope) (o : Except ProcessError Received) : Prop :=
  ∀ received s, o = .ok received → received.pending = some s → c.holds s.fileKey

theorem isPending_error (c : PeerScope) (error : ProcessError) : IsPending c (.error error) :=
  fun _ _ other => nomatch other

theorem isPending_control (c : PeerScope) (session : SessionInfo) :
    IsPending c (.ok (.control session)) := by
  rintro _ s ⟨⟩ ⟨⟩

theorem send_apart (peer : Identity) (id : SessionId) (frame : Frame) :
    Asks Request.isApart (send peer id frame) := by
  apply Asks.bind ((Intake.asks_request _).mpr trivial)
  intro answer
  cases answer <;> trivial

theorem refuse_scope {c : PeerScope} (outer : Message) (id : SessionId) (cause : Cause)
    (refusal : Refusal) :
    c.Keeps inside (refuse (α := Received) outer id cause refusal) (IsPending c) := by
  apply PeerScope.Keeps.asks_bind (send_apart _ _ _)
  · exact fun _ => .throw (isPending_error c _)
  · exact isPending_error c

/-- A frame is sent, and that is all that came. -/
theorem send_scope {c : PeerScope} (peer : Identity) (id : SessionId) (frame : Frame)
    (session : SessionInfo) :
    c.Keeps inside (send peer id frame >>= fun _ => (return .control session : Intake Received))
      (IsPending c) := by
  apply PeerScope.Keeps.asks_bind (send_apart _ _ _)
  · exact fun _ => .pure (isPending_control c session)
  · exact isPending_error c

theorem receiveDisabled_scope {c : PeerScope} (outer : Message) (envelope : Envelope) :
    c.Keeps inside (receiveDisabled outer envelope) (IsPending c) := by
  unfold receiveDisabled
  cases envelope.frame with
  | init versions key => exact send_scope _ _ _ _
  | accept versions key => exact send_scope _ _ _ _
  | reject rejected cause => exact .pure (isPending_control c _)
  | terminate cause => exact .pure (isPending_control c _)
  | encapsulated content => exact refuse_scope _ _ _ _

theorem receiveInit_scope (senderKey : Key) (id : SessionId) (offered : VersionRange)
    (peerEphemeral : Key) :
    (e.scope peer traces).Keeps inside (e.receiveInit peer senderKey id offered peerEphemeral)
      (IsPending (e.scope peer traces)) := by
  unfold receiveInit
  cases e.policy.versions.negotiate offered with
  | none => exact send_scope _ _ _ _
  | some version =>
      refine PeerScope.Keeps.store_bind ⟨rfl, rfl⟩ ?_ (isPending_error _)
      intro _ _
      refine PeerScope.Keeps.asks_bind ((Intake.asks_draw _).mpr trivial) ?_ (isPending_error _)
      intro ephemeral
      refine PeerScope.Keeps.asks_bind ((Intake.asks_request _).mpr trivial) ?_ (isPending_error _)
      intro created
      split
      · exact .throw (isPending_error _ _)
      · next session ephemeralKey answered =>
        have own : (e.scope peer traces).holds session.fileKey := by
          rw [(Session.respond_ok answered).2.1]
          exact e.holds_sessionKey id
        refine PeerScope.Keeps.store_bind own ?_ (isPending_error _)
        exact fun _ _ => send_scope _ _ _ _

theorem receiveAccept_scope (id : SessionId) (offered : VersionRange) (peerEphemeral : Key) :
    (e.scope peer traces).Keeps inside (e.receiveAccept peer id offered peerEphemeral)
      (IsPending (e.scope peer traces)) := by
  unfold receiveAccept
  refine PeerScope.Keeps.store_bind (e.holds_sessionKey id) ?_ (isPending_error _)
  intro found filed
  cases found with
  | none => exact send_scope _ _ _ _
  | some session =>
      dsimp only
      split
      · exact .pure (isPending_control _ _)
      · split
        · refine PeerScope.Keeps.store_bind (e.holds_sessionKey id) ?_ (isPending_error _)
          exact fun _ _ => send_scope _ _ _ _
        · split
          · exact .throw (isPending_error _ _)
          · next completed accepted =>
            have own : (e.scope peer traces).holds completed.fileKey := by
              obtain ⟨-, -, out, back, rfl⟩ := Session.accept_ok accepted
              have named : session.fileKey = e.sessionKey peer id := filed session rfl
              exact named ▸ e.holds_sessionKey id
            refine PeerScope.Keeps.store_bind own ?_ (isPending_error _)
            exact fun _ _ => .pure (isPending_control _ _)

theorem commit_scope {s : Session} (own : (e.scope peer traces).holds s.fileKey) :
    (e.scope peer traces).Keeps inside (e.commit s) fun _ => True := by
  have key : (e.scope peer traces).holds ⟨e.identity.text, s.peer, s.id⟩ :=
    PeerScope.holds_iff.mpr ⟨rfl, (PeerScope.holds_iff.mp own).2⟩
  refine PeerScope.Keeps.store_bind key ?_ fun _ => trivial
  intro _ _
  have stored : (e.scope peer traces).Keeps inside (Intake.store (.put s)) _ := .store own
  exact stored.mono fun _ _ => trivial

theorem dropAndRefuse_scope (outer : Message) (id : SessionId) (refusal : Refusal) :
    (e.scope outer.sender traces).Keeps inside (e.dropAndRefuse (α := Received) outer id refusal)
      (IsPending (e.scope outer.sender traces)) := by
  refine PeerScope.Keeps.store_bind (e.holds_sessionKey id) ?_ (isPending_error _)
  exact fun _ _ => refuse_scope _ _ _ _

theorem receiveEncapsulated_scope (outer : Message) (senderKey : Key) (id : SessionId)
    (content : Encapsulated) :
    (e.scope outer.sender traces).Keeps inside (e.receiveEncapsulated outer senderKey id content)
      (IsPending (e.scope outer.sender traces)) := by
  unfold receiveEncapsulated
  refine PeerScope.Keeps.store_bind (e.holds_sessionKey id) ?_ (isPending_error _)
  intro found filed
  cases found with
  | none => exact refuse_scope _ _ _ _
  | some stored =>
      dsimp only
      split
      · exact e.dropAndRefuse_scope _ _ _
      · split
        · exact e.dropAndRefuse_scope _ _ _
        · split
          · exact .throw (isPending_error _ _)
          · split
            · exact e.dropAndRefuse_scope _ _ _
            · next plaintext session decrypted =>
              have own : (e.scope outer.sender traces).holds session.fileKey := by
                rw [(Session.decrypt_spends decrypted).fileKey, filed stored rfl]
                exact e.holds_sessionKey id
              split
              · refine PeerScope.Keeps.bind (e.commit_scope own) ?_ fun _ _ => isPending_error _ _
                exact fun _ _ => .throw (isPending_error _ _)
              · apply PeerScope.Keeps.pure
                rintro _ s ⟨⟩ ⟨⟩
                exact own

theorem receive_scope (outer : Message) (senderKey : Key) (envelope : Envelope) :
    (e.scope outer.sender traces).Keeps inside (e.receive outer senderKey envelope)
      (IsPending (e.scope outer.sender traces)) := by
  have ended (id : SessionId) : (e.scope outer.sender traces).Keeps inside
      (Intake.store (.erase (e.sessionKey outer.sender id)) >>= fun _ =>
        (return .control (.gone id) : Intake Received)) (IsPending (e.scope outer.sender traces)) := by
    refine PeerScope.Keeps.store_bind (e.holds_sessionKey id) ?_ (isPending_error _)
    exact fun _ _ => .pure (isPending_control _ _)
  unfold receive
  split
  · exact receiveDisabled_scope _ _
  · cases envelope.frame with
    | init versions key => exact e.receiveInit_scope _ _ _ _
    | accept versions key => exact e.receiveAccept_scope _ _ _
    | encapsulated content => exact e.receiveEncapsulated_scope _ _ _ _
    | reject rejected cause => exact ended _
    | terminate cause => exact ended _

theorem isDowngrade_scope (message : Message) :
    (e.scope peer traces).Keeps inside (e.isDowngrade peer message) fun _ => True := by
  unfold isDowngrade
  split
  · exact .pure trivial
  · refine PeerScope.Keeps.store_bind ⟨rfl, rfl⟩ ?_ fun _ => trivial
    exact fun _ _ => .pure trivial

end Endpoint

/-! ## The pipeline -/

namespace Processor

variable (p : Processor) {traces : NonceHash → Prop} {inside : Bool}

theorem handleEnvelope_scope (outer : Message) (key : Key) (envelope : Envelope) :
    (p.endpoint.scope outer.sender traces).Keeps inside (p.handleEnvelope outer key envelope)
      fun _ => True := by
  apply PeerScope.Keeps.attempt_bind (p.endpoint.receive_scope outer key envelope)
  intro received pending
  cases received with
  | error error =>
      dsimp only
      split
      · refine PeerScope.Keeps.asks_bind
          ((record_asks _ _ _ _).mono fun _ => Request.isApart_of_ofAdmission) ?_ fun _ => trivial
        exact fun _ => .throw trivial
      · exact .throw trivial
  | ok received =>
      dsimp only
      split
      · refine PeerScope.Keeps.asks_bind ((Intake.asks_host _).mpr trivial) ?_ fun _ => trivial
        exact fun _ => .pure trivial
      · next inner _ =>
        have handled := (p.handleInner_asks outer inner).mono fun _ => Request.isApart_of_ofHandling
        apply PeerScope.Keeps.attempt_bind (.of_asks handled)
        intro settled _
        split
        · exact ⟨rfl, trivial⟩
        · next session waits =>
          have own := pending received session rfl waits
          have commits : (p.endpoint.scope outer.sender traces).Keeps inside
              (p.endpoint.commit session) fun _ => True := p.endpoint.commit_scope own
          split
          · split
            · exact .bind commits (fun _ _ => .throw trivial) fun _ _ => trivial
            · exact .throw trivial
          · exact .bind commits (fun _ _ => .pure trivial) fun _ _ => trivial

theorem settle_scope (message : Message) (key : Key) :
    (p.endpoint.scope message.sender traces).Keeps inside (p.settle message key)
      fun _ => True := by
  have dispatched : (p.endpoint.scope message.sender traces).Keeps inside (dispatch message)
      fun _ => True :=
    .of_asks ((dispatch_asks message).mono fun _ => Request.isApart_of_ofDispatch)
  unfold settle
  split
  · exact p.handleEnvelope_scope _ _ _
  · refine PeerScope.Keeps.bind (p.endpoint.isDowngrade_scope message) ?_ fun _ _ => trivial
    intro downgraded _
    cases downgraded with
    | false => exact dispatched
    | true =>
        refine PeerScope.Keeps.asks_bind ((Intake.asks_notify _).mpr trivial) ?_ fun _ => trivial
        exact fun _ => dispatched

theorem handle_scope (message : Message) (key : Key) {nonce : Bytes}
    (trace : traces (p.nonceHash nonce)) :
    (p.endpoint.scope message.sender traces).Keeps inside (p.handle message key nonce)
      fun _ => True := by
  rw [handle_eq]
  refine PeerScope.Keeps.asks_bind
    ((p.admission_asks message).mono fun _ => Request.isApart_of_ofAdmission) ?_ fun _ => trivial
  intro reason
  cases reason with
  | some reason => exact .pure trivial
  | none =>
      refine PeerScope.Keeps.store_bind trace ?_ fun _ => trivial
      intro seen _
      cases seen with
      | true => exact .pure trivial
      | false =>
          have marked : (p.endpoint.scope message.sender traces).Keeps inside
              (Intake.request (.store (.mark (p.nonceHash nonce)))) fun _ => True :=
            (Intake.obeys_request _ _ _ _).mpr ⟨⟨trace, nofun⟩, fun _ _ => ⟨rfl, trivial⟩⟩
          refine PeerScope.Keeps.bind (p.settle_scope message key) ?_ fun _ _ => trivial
          exact fun _ _ => .bind marked (fun _ _ => .pure trivial) fun _ _ => trivial

theorem decode_scope (c : PeerScope) (boxed : Boxed) (key : Key) :
    c.Keeps inside (p.decode boxed key) fun o => ∀ m, o = .ok m → m.sender = boxed.sender := by
  rw [decode_eq]
  split
  · next message opened =>
    apply PeerScope.Keeps.pure
    rintro _ ⟨⟩
    exact (opening_header opened).1
  · apply PeerScope.Keeps.asks_bind
      ((record_asks _ _ _ _).mono fun _ => Request.isApart_of_ofAdmission)
    · exact fun _ => .throw fun _ other => nomatch other
    · exact fun _ _ other => nomatch other

/-- The processing of a message stays in the scope of its sender, and gives the turn back. -/
theorem run_scope {boxed : Boxed} (trace : traces (p.nonceHash boxed.nonce.bytes)) :
    (p.endpoint.scope boxed.sender traces).Keeps false (p.run boxed) fun _ => True := by
  unfold run
  refine PeerScope.Keeps.asks_bind
    ((senderKey_asks _).mono fun _ => Request.isApart_of_ofAdmission) ?_ fun _ => trivial
  intro key
  refine PeerScope.Keeps.bind (p.decode_scope _ boxed key) ?_ fun _ _ => trivial
  intro message sent
  have sender : message.sender = boxed.sender := sent message rfl
  refine (Intake.obeys_bind _ _ _ _ _).mpr ((Intake.obeys_request _ _ _ _).mpr ?_)
  refine ⟨⟨rfl, fun _ => rfl⟩, fun _ _ => ?_⟩
  refine (Intake.obeys_bind _ _ _ _ _).mpr ((Intake.obeys_notify _ _ _ _).mpr ?_)
  refine ⟨⟨trivial, nofun⟩, fun _ => ?_⟩
  refine (Intake.obeys_bind _ _ _ _ _).mpr ((Intake.obeys_attempt _ _ _ _).mpr ?_)
  have handled : (p.endpoint.scope boxed.sender traces).Keeps true _ _ :=
    sender ▸ p.handle_scope message key trace
  refine Intake.Obeys.mono handled ?_
  rintro s handled ⟨rfl, -⟩
  have leaves {α : Type} {post : Except ProcessError α → Prop} (part : Intake α)
      (ends : (p.endpoint.scope boxed.sender traces).Keeps false part post) :
      (Intake.request (.leave boxed.sender) >>= fun _ => part).Obeys
        (p.endpoint.scope boxed.sender traces).rules true fun s o => s = false ∧ post o := by
    refine (Intake.obeys_bind _ _ _ _ _).mpr ((Intake.obeys_request _ _ _ _).mpr ?_)
    exact ⟨⟨rfl, nofun⟩, fun _ _ => ends⟩
  cases handled with
  | error error => exact leaves _ (.throw trivial)
  | ok outcome =>
      refine (Intake.obeys_bind _ _ _ _ _).mpr ((Intake.obeys_notify _ _ _ _).mpr ?_)
      exact ⟨⟨trivial, nofun⟩, fun _ => leaves _ (.pure trivial)⟩

theorem process_scope {boxed : Boxed} (trace : traces (p.nonceHash boxed.nonce.bytes)) :
    (p.process boxed).Obeys (p.endpoint.scope boxed.sender traces).rules false
      fun s _ => s = false := by
  refine ⟨⟨trivial, nofun⟩, fun _ _ => ?_⟩
  refine (Intake.obeys_run_bind _ _ _ _ _).mpr (Intake.Obeys.mono (p.run_scope trace) ?_)
  rintro s result ⟨rfl, -⟩
  cases result with
  | ok outcome => rfl
  | error error => exact ⟨⟨trivial, nofun⟩, fun _ _ => rfl⟩

end Processor

end SecureInbox
