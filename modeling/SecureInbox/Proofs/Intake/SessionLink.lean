import SecureInbox.Proofs.Intake.EndpointState
import SecureInbox.Proofs.Intake.Requests

/-! # One frame of a session

A `SessionLink` is where the frames of one session with a peer come in, a `BoxedFrame` one such
frame in its box, and a `SlotState` what is kept for them: the session, as long as there is
one, and the nonces.  `SlotState.rules` leave open all that is done for other peers.

`FrameResult` lists what can come of a frame, by where the session stands and where the frame
was made, and `process_frameResult` says that there is nothing else. -/
set_option autoImplicit false

namespace SecureInbox

structure SessionLink where
  processor : Processor
  peer : Identity
  peerKey : Key
  session : SessionId
  /-- The chains of the frames that come in. -/
  chains : Chains

namespace SessionLink

variable (link : SessionLink)

def suite : Suite := link.processor.endpoint.suite

def maxSkip : UInt64 := link.processor.endpoint.policy.maxSkip

def key : SessionKey := link.processor.endpoint.sessionKey link.peer link.session

structure Sound : Prop where
  enabled : link.processor.endpoint.policy.enabled = true
  opens : link.suite.Opens
  fresh : link.chains.Fresh

/-- A session of ours that waits for the answer of the peer, whose frames are then all
of the four-party chain. -/
def Waits (s : Session) : Prop := s.role = .initiator ∧ s.state = .l20 ∧ link.chains.two = none

structure Opens (s : Session) (p : Position) : Prop where
  receives : link.chains.Receives link.suite s p
  dropped : p.agreement = .four → s.peerTwo = none

/-- A session of the link that stands at a position, or will when it is answered. -/
structure Stands (s : Session) (p : Position) : Prop where
  filed : s.fileKey = link.key
  bound : s.peerKey = link.peerKey
  fits : p.Fits
  ready : link.Waits s ∨ link.Opens s p

end SessionLink

/-- A frame in its box, with the position where it was made and the message in it. -/
structure BoxedFrame where
  boxed : Boxed
  place : Position
  inner : Message

def BoxedFrame.outer (f : BoxedFrame) (id : SessionId) (content : Encapsulated) : Message :=
  { f.inner with body := .envelope ⟨id, .encapsulated content⟩ }

structure BoxedFrame.Genuine (link : SessionLink) (f : BoxedFrame) : Prop where
  boxedSender : f.boxed.sender = link.peer
  sender : f.inner.sender = link.peer
  fits : f.place.next.Fits
  survives : f.inner.body.Survives
  sealed : ∃ (padding : Fin 255) (sealed : Session.Protected) (offered applied : Version),
    link.processor.opening f.boxed link.peerKey =
      .ok (f.outer link.session ⟨sealed, offered, applied, f.inner.group?⟩) ∧
    link.processor.endpoint.policy.versions.contains applied = true ∧
    link.chains.Seals link.suite link.session f.place
      (f.inner.body.toPlaintext (padding.val + 1)) sealed

structure SlotState where
  slot : Option Session
  register : NonceRegister

namespace SlotState

variable (link : SessionLink)

/-- Stores and transport do not fail, and the peer has no other key than the one of the link. -/
def answers (st : SlotState) : Exchange → Prop
  | ⟨.store (.seen hash), answer⟩ => answer = .ok (st.register.contains hash)
  | ⟨.store (.mark hash), answer⟩ => answer = .ok (st.register.insert hash).1
  | ⟨.store (.find key), answer⟩ => key = link.key → answer = .ok st.slot
  | ⟨.store (.put _), answer⟩ => answer = .ok ()
  | ⟨.store (.erase _), answer⟩ => ∃ found, answer = .ok found
  | ⟨.host (.send _ _), answer⟩ => answer = .ok ()
  | ⟨.host (.publicKey identity), answer⟩ =>
      identity = link.peer → ∀ key, answer = .ok (some key) → key = link.peerKey
  | _ => True

def after (st : SlotState) : Exchange → SlotState
  | ⟨.store (.mark hash), _⟩ => { st with register := (st.register.insert hash).2 }
  | ⟨.store (.put session), _⟩ =>
      if session.fileKey = link.key then { st with slot := some session } else st
  | ⟨.store (.erase key), _⟩ => if key = link.key then { st with slot := none } else st
  | ⟨.store (.erasePair mine peer), _⟩ =>
      if link.key.isOfPair mine peer = true then { st with slot := none } else st
  | _ => st

def rules (helps : Exchange → Prop) : Rules SlotState where
  allows _ _ := True
  admits st x := answers link st x ∧ helps x
  after := after link

variable {link} {helps : Exchange → Prop} {st : SlotState}

/-! ## The endpoint -/

section Endpoint

variable {outer : Message} {id : SessionId} {content : Encapsulated}

theorem refuse_slot {α : Type} (cause : Cause) (refusal : Refusal) :
    (Endpoint.refuse (α := α) outer id cause refusal).Obeys (rules link helps) st fun t r =>
      r = .error (.ofRefusal refusal) ∧ t = st := by
  refine (Intake.obeys_bind _ _ _ _ _).mpr ?_
  refine (Intake.obeys_bind _ _ _ _ _).mpr ((Intake.obeys_request _ _ _ _).mpr ⟨trivial, ?_⟩)
  rintro answer ⟨admitted, _⟩
  obtain rfl : answer = .ok () := admitted
  exact ⟨rfl, rfl⟩

theorem dropAndRefuse_slot {α : Type} (sender : outer.sender = link.peer) (refusal : Refusal) :
    (link.processor.endpoint.dropAndRefuse (α := α) outer link.session refusal).Obeys
      (rules link helps) st fun t r =>
        r = .error (.ofRefusal refusal) ∧ t = { st with slot := none } := by
  refine (Intake.obeys_bind _ _ _ _ _).mpr ((Intake.obeys_store _ _ _ _).mpr ⟨trivial, ?_⟩)
  rintro answer ⟨admitted, _⟩
  obtain ⟨found, rfl⟩ : ∃ found, answer = .ok found := admitted
  have here : link.processor.endpoint.sessionKey outer.sender link.session = link.key := by
    rw [sender]
    rfl
  have refused : (Endpoint.refuse (α := α) outer link.session .stateMismatch refusal).Obeys
      (rules link helps) (after link st ⟨.store (.erase (link.processor.endpoint.sessionKey
        outer.sender link.session)), .ok found⟩)
      fun t r => r = .error (.ofRefusal refusal) ∧ t = { st with slot := none } := by
    rw [after, if_pos here]
    exact refuse_slot _ _
  exact refused

theorem commit_slot {s : Session} (filed : s.fileKey = link.key) :
    (link.processor.endpoint.commit s).Obeys (rules link helps) st fun t r =>
      r = .ok () ∧ t = { st with slot := some s } := by
  have here : (⟨link.processor.endpoint.identity.text, s.peer, s.id⟩ : SessionKey) = link.key := by
    rw [← filed, Session.fileKey, show s.mine = link.key.mine from congrArg SessionKey.mine filed]
    rfl
  refine Intake.Obeys.after_store trivial st.slot (fun answer admitted => admitted.1 here) ?_
  refine (Intake.obeys_store _ _ _ _).mpr ⟨trivial, fun answer admitted => ?_⟩
  obtain rfl : answer = .ok () := admitted.1
  exact ⟨rfl, if_pos filed⟩

/-- A frame begins with a look at the session. -/
theorem receive_find (sound : link.Sound) (key : Key)
    {post : SlotState → Except ProcessError Received → Prop}
    (receives : (link.processor.endpoint.receiveEncapsulated outer key link.session content).Obeys
      (rules link helps) st post) :
    (link.processor.endpoint.receive outer key ⟨link.session, .encapsulated content⟩).Obeys
      (rules link helps) st post := by
  unfold Endpoint.receive
  rw [sound.enabled, if_neg (by decide)]
  exact receives

variable (sender : outer.sender = link.peer)

include sender in
theorem find_answer (answer : Except StoreError (Option Session))
    (admitted : (rules link helps).admits st
      ⟨.store (.find (link.processor.endpoint.sessionKey outer.sender link.session)), answer⟩) :
    answer = .ok st.slot := by
  refine admitted.1 ?_
  rw [sender]
  rfl

include sender in
theorem receive_gone (key : Key) (gone : st.slot = none) :
    (link.processor.endpoint.receiveEncapsulated outer key link.session content).Obeys
      (rules link helps) st fun t r => r = .error (.ofRefusal .unknownSession) ∧ t = st := by
  refine Intake.Obeys.after_store trivial st.slot (find_answer sender) ?_
  rw [gone]
  exact refuse_slot _ _

variable {s : Session} {p q : Position} (slot : st.slot = some s)
variable (known : link.processor.endpoint.policy.versions.contains content.applied = true)

include sender slot known in
theorem receive_early (bound : s.peerKey = link.peerKey) (waits : link.Waits s)
    (four : content.sealed.agreement = .four) :
    (link.processor.endpoint.receiveEncapsulated outer link.peerKey link.session content).Obeys
      (rules link helps) st fun t r =>
        r = .error (.notReady "4DH message before accept") ∧ t = st := by
  refine Intake.Obeys.after_store trivial (some s) (slot ▸ find_answer sender) ?_
  have isBound : s.isBoundTo link.peerKey = true := beq_iff_eq.mpr bound
  dsimp only
  rw [isBound, known, if_neg (by decide), if_neg (by decide), if_pos ⟨four, waits.1, waits.2.1⟩]
  exact ⟨rfl, rfl⟩

include sender slot known in
theorem receive_lost (bound : s.peerKey = link.peerKey) (receives : link.chains.Receives link.suite s p)
    {e : CryptoError} {t : Session}
    (refused : s.decrypt link.suite content.sealed link.maxSkip = (.error e, t)) :
    (link.processor.endpoint.receiveEncapsulated outer link.peerKey link.session content).Obeys
      (rules link helps) st fun t r =>
        r = .error (.ofRefusal (.decrypt e)) ∧ t = { st with slot := none } := by
  refine Intake.Obeys.after_store trivial (some s) (slot ▸ find_answer sender) ?_
  have isBound : s.isBoundTo link.peerKey = true := beq_iff_eq.mpr bound
  dsimp only
  rw [isBound, known, if_neg (by decide), if_neg (by decide), if_neg fun early => receives.ready early.2,
    show s.decrypt link.processor.endpoint.suite content.sealed
      link.processor.endpoint.policy.maxSkip = _ from refused]
  exact dropAndRefuse_slot sender _

include sender slot known in
theorem receive_opened (bound : s.peerKey = link.peerKey)
    (receives : link.chains.Receives link.suite s p) {plaintext : Bytes} {t : Session} {inner : Message}
    (decrypted : s.decrypt link.suite content.sealed link.maxSkip = (.ok plaintext, t))
    (opened : Endpoint.innerMessage outer plaintext content.group = .ok inner) :
    (link.processor.endpoint.receiveEncapsulated outer link.peerKey link.session content).Obeys
      (rules link helps) st fun u r => r = .ok ⟨some inner, .ofSession t, some t⟩ ∧ u = st := by
  refine Intake.Obeys.after_store trivial (some s) (slot ▸ find_answer sender) ?_
  have isBound : s.isBoundTo link.peerKey = true := beq_iff_eq.mpr bound
  dsimp only
  rw [isBound, known, if_neg (by decide), if_neg (by decide), if_neg fun early => receives.ready early.2,
    show s.decrypt link.processor.endpoint.suite content.sealed
      link.processor.endpoint.policy.maxSkip = _ from decrypted]
  dsimp only
  rw [opened]
  exact ⟨rfl, rfl⟩

end Endpoint

/-! ## What comes of a frame -/

/-- What can come of a frame: what the processor leaves in the slot and gives back.  `helps` and
`holds` are what is known of all answers and of the way the message inside is handled, and `mark` is
what becomes of the register when the frame is done. -/
inductive FrameResult (link : SessionLink) (helps : Exchange → Prop) (p : Position) (f : BoxedFrame)
    (holds : ProcessResult → Prop) (mark : NonceRegister → NonceRegister) (st : SlotState) :
    SlotState → ProcessResult → Prop
  /-- The peer's key is not known at the moment. -/
  | unknown (sender reason : String) (answer : Except HandlerError (Option Key))
      (unanswered : ∀ key, answer ≠ .ok (some key))
      (admitted : helps ⟨.host (.publicKey link.peer), answer⟩) :
      FrameResult link helps p f holds mark st st (.error (.senderUnknown sender reason))
  /-- There is no session any more. -/
  | gone (reason : String) (slot : st.slot = none) :
      FrameResult link helps p f holds mark st st (.error (.refused reason))
  | early (reason : String) (s : Session) (slot : st.slot = some s) (waits : link.Waits s) :
      FrameResult link helps p f holds mark st st (.error (.notReady reason))
  /-- The session has passed the frame, or cannot get as far. -/
  | lost (reason : String) (s : Session) (slot : st.slot = some s) (ready : ¬link.Waits s)
      (lost : ¬p.le f.place ∨ link.maxSkip.toNat < p.lead f.place) :
      FrameResult link helps p f holds mark st { st with slot := none } (.error (.refused reason))
  | retried (e : ProcessError) (s : Session) (slot : st.slot = some s) (ready : ¬link.Waits s)
      (le : p.le f.place) (near : p.lead f.place ≤ link.maxSkip.toNat)
      (retry : e.disposition = .retry) (handled : holds (.error e)) :
      FrameResult link helps p f holds mark st st (.error e)
  | failed (e : ProcessError) (s t : Session) (slot : st.slot = some s) (ready : ¬link.Waits s)
      (le : p.le f.place) (near : p.lead f.place ≤ link.maxSkip.toNat)
      (done : e.disposition ≠ .retry) (stands : link.Stands t f.place.next)
      (handled : holds (.error e)) :
      FrameResult link helps p f holds mark st { st with slot := some t } (.error e)
  | settled (outcome : Outcome) (s t : Session) (slot : st.slot = some s) (ready : ¬link.Waits s)
      (le : p.le f.place) (near : p.lead f.place ≤ link.maxSkip.toNat)
      (stands : link.Stands t f.place.next) (handled : holds (.ok outcome)) :
      FrameResult link helps p f holds mark st ⟨some t, mark st.register⟩ (.ok outcome)

section Stages

variable {f : BoxedFrame} {p : Position} {holds : ProcessResult → Prop}

theorem handleEnvelope_failed {outer : Message} {key : Key} {envelope : Envelope} {after : SlotState}
    {e : ProcessError}
    (failed : (link.processor.endpoint.receive outer key envelope).Obeys (rules link helps) st
      fun t r => r = .error e ∧ t = after) :
    (link.processor.handleEnvelope outer key envelope).Obeys (rules link helps) st
      fun t r => r = .error e ∧ t = after := by
  refine (Intake.obeys_bind _ _ _ _ _).mpr ((Intake.obeys_attempt _ _ _ _).mpr (failed.mono ?_))
  rintro t r ⟨rfl, rfl⟩
  dsimp only [Intake.onward]
  split
  · refine (Intake.obeys_bind _ _ _ _ _).mpr ((Intake.obeys_bind _ _ _ _ _).mpr ?_)
    exact (Intake.obeys_request _ _ _ _).mpr ⟨trivial, fun _ _ => ⟨rfl, rfl⟩⟩
  · exact ⟨rfl, rfl⟩

/-- The message inside is handled, and then the session is stored, unless it is to come again. -/
theorem handleEnvelope_opened {outer inner : Message} {key : Key} {envelope : Envelope} {s : Session}
    (opened : (link.processor.endpoint.receive outer key envelope).Obeys (rules link helps) st
      fun t r => r = .ok ⟨some inner, .ofSession s, some s⟩ ∧ t = st)
    (filed : s.fileKey = link.key)
    (handled : (link.processor.handleInner outer inner).Obeys (rules link helps) st
      fun t r => t = st ∧ holds r) :
    (link.processor.handleEnvelope outer key envelope).Obeys (rules link helps) st fun t r =>
      holds r ∧ ((∃ e, r = .error e ∧ e.disposition = .retry ∧ t = st) ∨
        (∀ e, r = .error e → e.disposition ≠ .retry) ∧ t = { st with slot := some s }) := by
  refine (Intake.obeys_bind _ _ _ _ _).mpr ((Intake.obeys_attempt _ _ _ _).mpr (opened.mono ?_))
  rintro t r ⟨rfl, rfl⟩
  refine (Intake.obeys_bind _ _ _ _ _).mpr ((Intake.obeys_attempt _ _ _ _).mpr (handled.mono ?_))
  rintro u r ⟨rfl, holdsHere⟩
  cases r with
  | error e =>
      dsimp only [Intake.onward]
      by_cases retry : e.disposition = .retry
      · rw [if_neg (not_not_intro retry)]
        exact ⟨holdsHere, .inl ⟨e, rfl, retry, rfl⟩⟩
      · rw [if_pos retry]
        refine (Intake.obeys_bind _ _ _ _ _).mpr ((commit_slot filed).mono ?_)
        rintro v r ⟨rfl, rfl⟩
        exact ⟨holdsHere, .inr ⟨fun _ same => Except.error.inj same ▸ retry, rfl⟩⟩
  | ok outcome =>
      refine (Intake.obeys_bind _ _ _ _ _).mpr ((commit_slot filed).mono ?_)
      rintro v r ⟨rfl, rfl⟩
      exact ⟨holdsHere, .inr ⟨fun _ same => (nomatch same), rfl⟩⟩

theorem handleEnvelope_frameResult (sound : link.Sound) (genuine : f.Genuine link)
    (stands : ∀ s, st.slot = some s → link.Stands s p) {padding : Fin 255} {content : Encapsulated}
    (known : link.processor.endpoint.policy.versions.contains content.applied = true)
    (seals : link.chains.Seals link.suite link.session f.place
      (f.inner.body.toPlaintext (padding.val + 1)) content.sealed)
    (group : content.group = f.inner.group?)
    (handled : (link.processor.handleInner (f.outer link.session content) f.inner).Obeys
      (rules link helps) st fun t r => t = st ∧ holds r) :
    (link.processor.handleEnvelope (f.outer link.session content) link.peerKey
      ⟨link.session, .encapsulated content⟩).Obeys (rules link helps) st
        (FrameResult link helps p f holds id st) := by
  have sender : (f.outer link.session content).sender = link.peer := genuine.sender
  have fits : f.place.Fits := Nat.lt_trans (Nat.lt_succ_self _) genuine.fits
  cases slot : st.slot with
  | none =>
      refine (handleEnvelope_failed (receive_find sound _ (receive_gone sender _ slot))).mono ?_
      rintro t r ⟨rfl, rfl⟩
      exact .gone _ slot
  | some s =>
      have here := stands s slot
      have name : s.id = link.session := congrArg SessionKey.id here.filed
      by_cases waits : link.Waits s
      · have four : content.sealed.agreement = .four := by
          obtain ⟨base, nonce, chain, made⟩ := seals
          rw [made]
          cases agreement : f.place.agreement with
          | four => rfl
          | two =>
              rw [agreement, Chains.get, waits.2.2] at chain
              cases chain
        refine (handleEnvelope_failed (receive_find sound _
          (receive_early sender slot known here.bound waits four))).mono ?_
        rintro t r ⟨rfl, rfl⟩
        exact .early _ s slot waits
      · have opens := here.ready.resolve_left waits
        by_cases within : p.le f.place ∧ p.lead f.place ≤ link.maxSkip.toNat
        · have near := (opens.receives.near_iff sound.fresh within.1 fits seals link.maxSkip).mpr within.2
          obtain ⟨state, peerTwo, peerFour, decrypted, receivesNext, dropped⟩ :=
            Chains.decrypt_sealed sound.opens sound.fresh opens.receives within.1 fits
              (name ▸ seals) near
          have opened : Endpoint.innerMessage (f.outer link.session content)
              (f.inner.body.toPlaintext (padding.val + 1)) content.group = .ok f.inner := by
            rw [group]
            exact innerMessage_toPlaintext f.inner _ padding genuine.survives
          have standsNext : link.Stands
              { s with state := state, peerTwo := peerTwo, peerFour := peerFour } f.place.next :=
            ⟨here.filed, here.bound, genuine.fits, .inr ⟨receivesNext, fun four =>
              dropped four opens.dropped⟩⟩
          refine (handleEnvelope_opened (receive_find sound _
            (receive_opened sender slot known here.bound opens.receives decrypted opened))
            standsNext.filed handled).mono ?_
          rintro t r ⟨holdsHere, ⟨e, rfl, retry, rfl⟩ | ⟨done, rfl⟩⟩
          · exact .retried e s slot waits within.1 within.2 retry holdsHere
          · cases r with
            | error e => exact .failed e s _ slot waits within.1 within.2 (done e rfl) standsNext holdsHere
            | ok outcome => exact .settled outcome s _ slot waits within.1 within.2 standsNext holdsHere
        · have lost : ¬p.le f.place ∨ link.maxSkip.toNat < p.lead f.place :=
            (Classical.not_and_iff_not_or_not.mp within).imp id Nat.lt_of_not_le
          obtain ⟨e, refused⟩ := Chains.decrypt_lost sound.fresh opens.receives opens.dropped here.fits
            fits seals lost
          refine (handleEnvelope_failed (receive_find sound _
            (receive_lost sender slot known here.bound opens.receives refused))).mono ?_
          rintro t r ⟨rfl, rfl⟩
          exact .lost _ s slot waits lost

/-- A frame whose nonce is not in the register gets to the session. -/
theorem handle_frameResult {outer : Message} {envelope : Envelope} {nonce : Bytes}
    (isEnvelope : outer.body = .envelope envelope)
    (unused : st.register.contains (link.processor.nonceHash nonce) = false)
    (result : (link.processor.handleEnvelope outer link.peerKey envelope).Obeys (rules link helps) st
      (FrameResult link helps p f holds id st)) :
    (link.processor.handle outer link.peerKey nonce).Obeys (rules link helps) st
      (FrameResult link helps p f holds (fun register =>
        (register.insert (link.processor.nonceHash nonce)).2) st) := by
  have admitted : link.processor.admission outer = pure none := by
    have valid : outer.hasValidContent link.processor.limits = true := by
      rw [Message.hasValidContent, isEnvelope]
      rfl
    rw [Processor.admission_eq, isEnvelope, Processor.contentCheck, if_pos valid]
    rfl
  have settled : link.processor.settle outer link.peerKey =
      link.processor.handleEnvelope outer link.peerKey envelope := by
    rw [Processor.settle, isEnvelope]
  rw [Processor.handle_eq, admitted, pure_bind]
  dsimp only
  refine Intake.Obeys.after_store trivial _ (fun answer admitted => admitted.1) ?_
  rw [unused, if_neg (by decide), settled]
  refine (Intake.obeys_bind _ _ _ _ _).mpr (result.mono ?_)
  intro t r result
  cases result with
  | unknown sender reason answer unanswered admitted =>
      exact .unknown sender reason answer unanswered admitted
  | gone reason slot => exact .gone reason slot
  | early reason s slot waits => exact .early reason s slot waits
  | lost reason s slot ready lost => exact .lost reason s slot ready lost
  | retried e s slot ready le near retry handled => exact .retried e s slot ready le near retry handled
  | failed e s t slot ready le near done stands handled =>
      exact .failed e s t slot ready le near done stands handled
  | settled outcome s t slot ready le near stands handled =>
      refine (Intake.obeys_bind _ _ _ _ _).mpr ((Intake.obeys_request _ _ _ _).mpr ⟨trivial, ?_⟩)
      exact fun answer _ => .settled outcome s t slot ready le near stands handled

theorem senderKey_slot :
    (Processor.senderKey link.peer).Obeys (rules link helps) st fun t r =>
      t = st ∧ ((∃ sender reason answer, r = .error (.senderUnknown sender reason) ∧
        (∀ key, answer ≠ .ok (some key)) ∧ helps ⟨.host (.publicKey link.peer), answer⟩) ∨
          r = .ok link.peerKey) := by
  refine (Intake.obeys_bind _ _ _ _ _).mpr ((Intake.obeys_request _ _ _ _).mpr ⟨trivial, ?_⟩)
  intro answer admitted
  have only : ∀ key, answer = .ok (some key) → key = link.peerKey := admitted.1 rfl
  by_cases known : ∃ key, answer = .ok (some key)
  · obtain ⟨key, rfl⟩ := known
    obtain rfl := only key rfl
    exact ⟨rfl, .inr rfl⟩
  · have unanswered : ∀ key, answer ≠ .ok (some key) := fun key same => known ⟨key, same⟩
    cases answer with
    | error e => exact ⟨rfl, .inl ⟨_, _, _, rfl, unanswered, admitted.2⟩⟩
    | ok found =>
        cases found with
        | none => exact ⟨rfl, .inl ⟨_, _, _, rfl, unanswered, admitted.2⟩⟩
        | some key => exact (known ⟨key, rfl⟩).elim

def mark (link : SessionLink) (f : BoxedFrame) (register : NonceRegister) : NonceRegister :=
  (register.insert (link.processor.nonceHash f.boxed.nonce.bytes)).2

theorem run_frameResult (sound : link.Sound) (genuine : f.Genuine link)
    (stands : ∀ s, st.slot = some s → link.Stands s p)
    (unused : st.register.contains (link.processor.nonceHash f.boxed.nonce.bytes) = false)
    (handled : ∀ content, (link.processor.handleInner (f.outer link.session content) f.inner).Obeys
      (rules link helps) st fun t r => t = st ∧ holds r) :
    (link.processor.run f.boxed).Obeys (rules link helps) st
      (FrameResult link helps p f holds (mark link f) st) := by
  obtain ⟨padding, sealed, offered, applied, opened, known, seals⟩ := genuine.sealed
  have result := handle_frameResult rfl unused
    (handleEnvelope_frameResult sound genuine stands known seals rfl
      (handled ⟨sealed, offered, applied, f.inner.group?⟩))
  have decoded : link.processor.decode f.boxed link.peerKey =
      pure (f.outer link.session ⟨sealed, offered, applied, f.inner.group?⟩) := by
    rw [Processor.decode_eq, opened]
  unfold Processor.run
  rw [genuine.boxedSender]
  refine (Intake.obeys_bind _ _ _ _ _).mpr (senderKey_slot.mono ?_)
  rintro t r ⟨rfl, ⟨sender, reason, answer, rfl, unanswered, admitted⟩ | rfl⟩
  · exact .unknown sender reason answer unanswered admitted
  · rw [Intake.onward, decoded, pure_bind]
    refine (Intake.obeys_bind _ _ _ _ _).mpr ((Intake.obeys_request _ _ _ _).mpr ⟨trivial, ?_⟩)
    intro _ _
    refine (Intake.obeys_bind _ _ _ _ _).mpr ((Intake.obeys_notify _ _ _ _).mpr ⟨trivial, ?_⟩)
    intro _
    refine (Intake.obeys_bind _ _ _ _ _).mpr ((Intake.obeys_attempt _ _ _ _).mpr (result.mono ?_))
    intro u r result
    cases r with
    | error e =>
        refine (Intake.obeys_bind _ _ _ _ _).mpr ((Intake.obeys_request _ _ _ _).mpr ⟨trivial, ?_⟩)
        exact fun _ _ => result
    | ok outcome =>
        refine (Intake.obeys_bind _ _ _ _ _).mpr ((Intake.obeys_notify _ _ _ _).mpr ⟨trivial, ?_⟩)
        intro _
        refine (Intake.obeys_bind _ _ _ _ _).mpr ((Intake.obeys_request _ _ _ _).mpr ⟨trivial, ?_⟩)
        exact fun _ _ => result

/-- Whatever is answered, a frame whose nonce is new comes to one of the results. -/
theorem process_frameResult (sound : link.Sound) (genuine : f.Genuine link)
    (stands : ∀ s, st.slot = some s → link.Stands s p)
    (unused : st.register.contains (link.processor.nonceHash f.boxed.nonce.bytes) = false)
    (handled : ∀ content, (link.processor.handleInner (f.outer link.session content) f.inner).Obeys
      (rules link helps) st fun t r => t = st ∧ holds r) :
    (link.processor.process f.boxed).Obeys (rules link helps) st
      (FrameResult link helps p f holds (mark link f) st) := by
  refine ⟨trivial, fun _ _ => ?_⟩
  refine (Intake.obeys_run_bind _ _ _ _ _).mpr
    ((run_frameResult sound genuine stands unused handled).mono ?_)
  intro t r result
  cases r with
  | ok outcome => exact result
  | error e => exact ⟨trivial, fun _ _ => result⟩

/-! ## The message inside -/

theorem after_of_ofHandling {r : Request} (handling : r.ofHandling) (answer : r.Answer) :
    st.after link ⟨r, answer⟩ = st := by
  cases r with
  | store c => cases c <;> exact handling.elim False.elim False.elim
  | _ => rfl

theorem admitsAll_helps {xs : List Exchange} : ∀ {st : SlotState},
    (rules link fun _ => True).AdmitsAll st xs → (∀ x ∈ xs, helps x) →
      (rules link helps).AdmitsAll st xs := by
  induction xs with
  | nil => exact fun _ _ => trivial
  | cons x xs ih =>
      intro st admitted all
      refine ⟨⟨admitted.1.1, all x List.mem_cons_self⟩, ih admitted.2 fun y member => ?_⟩
      exact all y (List.mem_cons_of_mem x member)

theorem handleInner_slot (outer inner : Message) :
    (link.processor.handleInner outer inner).Obeys (rules link helps) st fun t _ => t = st ∧ True :=
  ((link.processor.handleInner_asks outer inner).obeys fun _ handling =>
    ⟨trivial, fun answer _ => after_of_ofHandling handling answer⟩).mono fun _ _ same => ⟨same, trivial⟩

end Stages

end SlotState

def IsRefused {α : Type} (r : Except ProcessError α) : Prop := ∃ reason, r = .error (.refused reason)

namespace SlotState

/-! ## Failures of the message inside -/

section Unrefused

variable {link : SessionLink} {helps : Exchange → Prop} {st : SlotState} {α β : Type}

theorem unrefused_ok (a : α) : ¬IsRefused (.ok a) := fun ⟨_, same⟩ => nomatch same

theorem unrefused_bind {part : Intake α} {f : α → Intake β}
    (first : part.Obeys (rules link helps) st fun _ r => ¬IsRefused r)
    (rest : ∀ a t, (f a).Obeys (rules link helps) t fun _ r => ¬IsRefused r) :
    (part >>= f).Obeys (rules link helps) st fun _ r => ¬IsRefused r := by
  refine (Intake.obeys_bind _ _ _ _ _).mpr (first.mono ?_)
  intro t r unrefused
  cases r with
  | error e => exact fun ⟨reason, same⟩ => unrefused ⟨reason, congrArg _ (Except.error.inj same)⟩
  | ok a => exact rest a t

theorem request_unrefused (r : Request) :
    (Intake.request r).Obeys (rules link helps) st fun _ r => ¬IsRefused r :=
  (Intake.obeys_request _ _ _ _).mpr ⟨trivial, fun answer _ => unrefused_ok answer⟩

theorem host_unrefused (c : HostCall) :
    (Intake.host c).Obeys (rules link helps) st fun _ r => ¬IsRefused r := by
  refine (Intake.obeys_host _ _ _ _).mpr ⟨trivial, fun answer _ => ?_⟩
  cases answer with
  | error e => exact fun ⟨_, same⟩ => nomatch same
  | ok answer => exact unrefused_ok answer

theorem record_unrefused (sender : Identity) (id : MessageId) (typeByte : Option UInt8)
    (error : ProcessError) :
    (Processor.record sender id typeByte error).Obeys (rules link helps) st fun _ r => ¬IsRefused r :=
  unrefused_bind (request_unrefused _) fun _ _ => unrefused_ok ()

theorem admission_unrefused (p : Processor) (m : Message) :
    (p.admission m).Obeys (rules link helps) st fun _ r => ¬IsRefused r := by
  have checked : ∀ t, (p.contentCheck m).Obeys (rules link helps) t fun _ r => ¬IsRefused r := by
    intro t
    unfold Processor.contentCheck
    split
    · exact unrefused_ok _
    · exact unrefused_bind (record_unrefused _ _ _ _) fun _ _ => unrefused_ok _
  have blocked : (Processor.isBlocked m).Obeys (rules link helps) st fun _ r => ¬IsRefused r := by
    refine unrefused_bind (host_unrefused _) fun isBlocked t => ?_
    cases isBlocked with
    | false => exact unrefused_ok _
    | true =>
        rw [if_neg (by decide)]
        split
        · exact unrefused_bind (host_unrefused _) fun _ _ => unrefused_ok _
        · exact unrefused_ok _
  rw [Processor.admission_eq]
  split
  · refine unrefused_bind blocked fun isBlocked t => ?_
    cases isBlocked with
    | false => exact checked t
    | true => exact unrefused_ok _
  · exact checked st

theorem handling_unrefused (m : Message) (e : ProcessError) (failure : m.handling = .failure e)
    (reason : String) : e ≠ .refused reason := by
  rintro rfl
  unfold Message.handling at failure
  split at failure <;> cases failure

theorem handleByKind_unrefused (m : Message) :
    (Processor.handleByKind m).Obeys (rules link helps) st fun _ r => ¬IsRefused r := by
  rw [Processor.handleByKind_eq]
  have handled : (m.handling.part m).Obeys (rules link helps) st fun _ r => ¬IsRefused r := by
    cases handling : m.handling with
    | change c isTold =>
        cases isTold with
        | true => exact unrefused_bind (host_unrefused _) fun _ _ => request_unrefused _
        | false => exact host_unrefused _
    | notice n => exact request_unrefused _
    | nothing => exact unrefused_ok ()
    | failure e =>
        exact fun ⟨reason, same⟩ => handling_unrefused m e handling reason (Except.error.inj same)
  refine unrefused_bind handled fun _ t => ?_
  unfold Processor.fetchBlobs
  split
  · exact host_unrefused _
  · exact unrefused_ok ()

theorem dispatch_unrefused (m : Message) :
    (Processor.dispatch m).Obeys (rules link helps) st fun _ r => ¬IsRefused r := by
  unfold Processor.dispatch
  cases m.group? with
  | none => exact unrefused_bind (handleByKind_unrefused m) fun _ _ => unrefused_ok _
  | some group =>
      refine unrefused_bind (host_unrefused _) fun decision t => ?_
      cases decision with
      | handled => exact unrefused_ok _
      | declined => exact unrefused_bind (handleByKind_unrefused m) fun _ _ => unrefused_ok _

/-- A message inside a frame is never refused. -/
theorem handleInner_unrefused (p : Processor) (outer inner : Message) :
    (p.handleInner outer inner).Obeys (rules link helps) st fun _ r => ¬IsRefused r := by
  unfold Processor.handleInner
  split
  · exact unrefused_bind (record_unrefused _ _ _ _) fun _ _ ⟨_, same⟩ => nomatch same
  · exact unrefused_bind (record_unrefused _ _ _ _) fun _ _ ⟨_, same⟩ => nomatch same
  · refine unrefused_bind (admission_unrefused p inner) fun reason t => ?_
    cases reason with
    | none => exact dispatch_unrefused inner
    | some reason => exact unrefused_ok _

end Unrefused

end SlotState

def Message.HasHandler (m : Message) : Prop := ∀ e, m.handling ≠ .failure e

/-- Answers under which a message is processed, if it can be at all: the sender's key is
known, nobody is blocked, and the application takes what it is given. -/
def Exchange.helps : Exchange → Prop
  | ⟨.host (.publicKey _), answer⟩ => ∃ key, answer = .ok (some key)
  | ⟨.host (.isBlocked _), answer⟩ => answer = .ok false
  | ⟨.host (.handleGroup message _), answer⟩ =>
      answer = .ok .handled ∨ answer = .ok .declined ∧ message.HasHandler
  | ⟨.host (.change _), answer⟩ => answer = .ok ()
  | ⟨.host (.schedule _), answer⟩ => answer = .ok ()
  | _ => True

namespace SlotState

section Helped

variable {link : SessionLink} {st : SlotState} {α β : Type}

theorem bind_ok {part : Intake α} {f : α → Intake β} {a : α} {post : Except ProcessError β → Prop}
    (first : part.Obeys (rules link Exchange.helps) st fun _ r => r = .ok a)
    (rest : ∀ t, (f a).Obeys (rules link Exchange.helps) t fun _ r => post r) :
    (part >>= f).Obeys (rules link Exchange.helps) st fun _ r => post r := by
  refine (Intake.obeys_bind _ _ _ _ _).mpr (first.mono ?_)
  rintro t r rfl
  exact rest t

theorem host_ok (c : HostCall) (value : c.Answer)
    (exact : ∀ answer, Exchange.helps ⟨.host c, answer⟩ → answer = .ok value) :
    (Intake.host c).Obeys (rules link Exchange.helps) st fun _ r => r = .ok value := by
  refine (Intake.obeys_host _ _ _ _).mpr ⟨trivial, fun answer admitted => ?_⟩
  rw [exact answer admitted.2]
  rfl

theorem notify_ok (n : Notice) :
    (Intake.notify n).Obeys (rules link Exchange.helps) st fun _ r => r = .ok () :=
  (Intake.obeys_notify _ _ _ _).mpr ⟨trivial, fun _ => rfl⟩

theorem handleByKind_ok {m : Message} (hasHandler : m.HasHandler) :
    (Processor.handleByKind m).Obeys (rules link Exchange.helps) st fun _ r => r = .ok () := by
  rw [Processor.handleByKind_eq]
  have handled : (m.handling.part m).Obeys (rules link Exchange.helps) st fun _ r => r = .ok () := by
    cases handling : m.handling with
    | change c isTold =>
        cases isTold with
        | true => exact bind_ok (host_ok (.change c) () fun _ told => told) fun _ => notify_ok _
        | false => exact host_ok (.change c) () fun _ told => told
    | notice n => exact notify_ok n
    | nothing => exact rfl
    | failure e => exact (hasHandler e handling).elim
  refine bind_ok handled fun t => ?_
  unfold Processor.fetchBlobs
  split
  · exact host_ok (.schedule m) () fun _ told => told
  · exact rfl

theorem dispatch_ok {m : Message} (taken : m.group?.isSome = true ∨ m.HasHandler) :
    (Processor.dispatch m).Obeys (rules link Exchange.helps) st
      fun _ r => r = .ok (.processed m) := by
  unfold Processor.dispatch
  cases group : m.group? with
  | none =>
      rw [group] at taken
      have hasHandler : m.HasHandler := taken.resolve_left (by decide)
      exact bind_ok (handleByKind_ok hasHandler) fun _ => rfl
  | some g =>
      refine (Intake.obeys_bind _ _ _ _ _).mpr ((Intake.obeys_host _ _ _ _).mpr ⟨trivial, ?_⟩)
      rintro answer ⟨_, rfl | ⟨rfl, hasHandler⟩⟩
      · exact rfl
      · exact bind_ok (handleByKind_ok hasHandler) fun _ => rfl

theorem isBlocked_ok (m : Message) :
    (Processor.isBlocked m).Obeys (rules link Exchange.helps) st fun _ r => r = .ok false := by
  unfold Processor.isBlocked
  exact bind_ok (host_ok (.isBlocked m.sender) false fun _ told => told) fun _ => rfl

theorem handleInner_ok (outer : Message) {m : Message}
    (valid : m.hasValidContent link.processor.limits = true)
    (taken : m.group?.isSome = true ∨ m.HasHandler) :
    (link.processor.handleInner outer m).Obeys (rules link Exchange.helps) st
      fun t r => t = st ∧ r = .ok (.processed m) := by
  have admitted : ∀ t, (link.processor.admission m).Obeys (rules link Exchange.helps) t
      fun _ r => r = .ok none := by
    intro t
    have checked : ∀ u, (link.processor.contentCheck m).Obeys (rules link Exchange.helps) u
        fun _ r => r = .ok none := by
      intro u
      rw [Processor.contentCheck, if_pos valid]
      exact rfl
    rw [Processor.admission_eq]
    split
    · exact bind_ok (isBlocked_ok m) checked
    · exact checked t
  have handled : (link.processor.handleInner outer m).Obeys (rules link Exchange.helps) st
      fun _ r => r = .ok (.processed m) := by
    unfold Processor.handleInner
    cases kind : m.body with
    | envelope envelope =>
        refine (taken.elim (fun group => ?_) fun hasHandler => ?_)
        · simp only [Message.group?, kind, Option.isSome_none, Bool.false_eq_true] at group
        · exact (hasHandler (.ofFault m.sender .nestedEnvelope) (by rw [Message.handling, kind])).elim
    | unknown typeByte content =>
        refine (taken.elim (fun group => ?_) fun hasHandler => ?_)
        · simp only [Message.group?, kind, Option.isSome_none, Bool.false_eq_true] at group
        · exact (hasHandler (.unknownType typeByte) (by rw [Message.handling, kind])).elim
    | _ => exact bind_ok (admitted st) fun _ => dispatch_ok taken
  exact ((handleInner_slot outer m).and handled).mono fun _ _ both => ⟨both.1.1, both.2⟩

end Helped

end SlotState

/-! ## The slot in an endpoint's state -/

namespace EndpointState

variable {link : SessionLink} {secrets : Key → Prop}

def slotOf (link : SessionLink) (d : EndpointState) : SlotState := ⟨d.book.find? link.key, d.register⟩

def Knows (link : SessionLink) : Exchange → Prop
  | ⟨.host (.publicKey identity), answer⟩ =>
      identity = link.peer → ∀ key, answer = .ok (some key) → key = link.peerKey
  | _ => True

theorem slotState_ite {c : Prop} [Decidable c] {found here slot : Option Session}
    (same : found = if c then here else slot) (register : NonceRegister) :
    (⟨found, register⟩ : SlotState) = if c then ⟨here, register⟩ else ⟨slot, register⟩ := by
  rw [same]
  split <;> rfl

theorem slotOf_answer {d : EndpointState} {x : Exchange} (admitted : answers secrets d x)
    (knows : Knows link x) :
    (d.slotOf link).answers link x ∧ (d.after x).slotOf link = (d.slotOf link).after link x := by
  obtain ⟨r, answer⟩ := x
  cases r with
  | host c => cases c <;> first | exact ⟨knows, rfl⟩ | exact ⟨admitted, rfl⟩
  | store c =>
      cases c with
      | seen hash => exact ⟨admitted, rfl⟩
      | mark hash => exact ⟨admitted, rfl⟩
      | best mine peer => exact ⟨trivial, rfl⟩
      | find key =>
          refine ⟨?_, rfl⟩
          rintro rfl
          exact admitted
      | put s => exact ⟨admitted, slotState_ite (d.book.find?_put s link.key) _⟩
      | erase key => exact ⟨⟨_, admitted⟩, slotState_ite (d.book.find?_erase key link.key) _⟩
      | erasePair mine peer =>
          exact ⟨trivial, slotState_ite (d.book.find?_erasePair mine peer link.key) _⟩
  | _ => exact ⟨trivial, rfl⟩

/-- What can happen at an endpoint's state can happen at the slot of a link. -/
theorem slotOf_admits {xs : List Exchange} : ∀ {d : EndpointState}, (rules secrets).AdmitsAll d xs →
    (∀ x ∈ xs, Knows link x) →
      (SlotState.rules link fun _ => True).AdmitsAll (d.slotOf link) xs ∧
        ((rules secrets).afterAll d xs).slotOf link =
          (SlotState.rules link fun _ => True).afterAll (d.slotOf link) xs := by
  induction xs with
  | nil => exact fun _ _ => ⟨trivial, rfl⟩
  | cons x xs ih =>
      intro d admitted knows
      obtain ⟨answered, same⟩ := slotOf_answer admitted.1 (knows x List.mem_cons_self)
      have rest := ih admitted.2 fun y member => knows y (List.mem_cons_of_mem x member)
      rw [show (rules secrets).after d x = d.after x from rfl, same] at rest
      exact ⟨⟨⟨answered, trivial⟩, rest.1⟩, rest.2⟩

end EndpointState

end SecureInbox
