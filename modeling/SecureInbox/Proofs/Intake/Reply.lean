import Mathlib.Algebra.GroupWithZero.Nat
import SecureInbox.Proofs.Intake.Arrival
import SecureInbox.Proofs.Script.History

/-! # What is said to a frame

An endpoint says at most one thing to a frame that it hears: a frame of the same session, to the
one from whom it was heard.  `Frame.deliveries` counts what can come of a frame in all, and comes
to less for what is said than for what was heard (`receive_replies`).

In the pipeline nothing else is sent, and only to a message that holds an envelope
(`process_replies`). -/
set_option autoImplicit false

namespace SecureInbox

/-- How many frames are delivered on account of one at most: the frame itself, the answer to it,
the answer to that and so on. -/
def Frame.deliveries : Frame → Nat
  | .init _ _ => 3
  | .accept _ _ => 2
  | .encapsulated _ => 2
  | .reject _ _ => 1
  | .terminate _ => 1

theorem Frame.deliveries_pos (f : Frame) : 0 < f.deliveries := by
  cases f <;> exact Nat.succ_pos _

namespace Request

def IsSilent : Request → Prop
  | .host (.send _ _) => False
  | _ => True

/-- Whether what a request sends, if it sends anything, answers one of some envelopes from a peer:
it goes to the peer, in the session of the envelope. -/
def Answers (peer : Identity) (heard : Envelope → Prop) (r : Request) : Prop :=
  ∀ receiver reply, r = .host (.send receiver reply) →
    receiver = peer ∧ ∃ envelope, heard envelope ∧ reply.session = envelope.session

theorem answers_of_silent {peer : Identity} {heard : Envelope → Prop} {r : Request}
    (silent : r.IsSilent) : r.Answers peer heard := by
  rintro receiver reply rfl
  cases silent

theorem Answers.mono {peer : Identity} {heard among : Envelope → Prop} {r : Request}
    (answers : r.Answers peer heard) (imp : ∀ envelope, heard envelope → among envelope) :
    r.Answers peer among := by
  intro receiver reply sends
  obtain ⟨same, envelope, isHeard, session⟩ := answers receiver reply sends
  exact ⟨same, envelope, imp envelope isHeard, session⟩

theorem silent_of_ofAdmission {r : Request} (ofAdmission : r.ofAdmission) : r.IsSilent := by
  cases r with
  | host c => cases c <;> first | exact trivial | exact ofAdmission.elim
  | _ => trivial

theorem silent_of_ofDispatch {r : Request} (ofDispatch : r.ofDispatch) : r.IsSilent := by
  cases r with
  | host c => cases c <;> first | exact trivial | exact ofDispatch.elim
  | _ => trivial

theorem silent_of_ofHandling {r : Request} (ofHandling : r.ofHandling) : r.IsSilent :=
  ofHandling.elim silent_of_ofAdmission silent_of_ofDispatch

end Request

/-! ## One reply -/

namespace Reply

/-- What may be said to an envelope from a peer; the state is whether something was said. -/
def rules (peer : Identity) (heard : Envelope) : Rules Bool where
  allows said r := ∀ receiver reply, r = .host (.send receiver reply) →
    said = false ∧ receiver = peer ∧ reply.session = heard.session ∧
      reply.frame.deliveries < heard.frame.deliveries
  admits _ _ := True
  after
    | _, ⟨.host (.send _ _), _⟩ => true
    | said, _ => said

theorem after_silent {peer : Identity} {heard : Envelope} {said : Bool} {r : Request}
    (silent : r.IsSilent) (answer : r.Answer) : (rules peer heard).after said ⟨r, answer⟩ = said := by
  cases r with
  | host c => cases c <;> first | rfl | exact silent.elim
  | _ => rfl

theorem after_said {peer : Identity} {heard : Envelope} (x : Exchange) :
    (rules peer heard).after true x = true := by
  obtain ⟨request, answer⟩ := x
  cases request with
  | host c => cases c <;> rfl
  | _ => rfl

end Reply

def Intake.Replies {α : Type} (peer : Identity) (heard : Envelope) (part : Intake α) : Prop :=
  part.Obeys (Reply.rules peer heard) false fun _ _ => True

namespace Intake

variable {α β : Type} {peer : Identity} {heard : Envelope}

theorem Asks.keeps_said {part : Intake α} (quiet : Asks Request.IsSilent part) (said : Bool) :
    part.Obeys (Reply.rules peer heard) said fun t _ => t = said := by
  refine quiet.obeys fun r silent => ⟨?_, fun answer _ => ?_⟩
  · rintro receiver reply rfl
    cases silent
  · exact Reply.after_silent silent answer

theorem Asks.replies {part : Intake α} (quiet : Asks Request.IsSilent part) :
    part.Replies peer heard := (quiet.keeps_said false).mono fun _ _ _ => trivial

/-- Before anything is said. -/
theorem Asks.replies_bind {part : Intake α} {f : α → Intake β} (quiet : Asks Request.IsSilent part)
    (rest : ∀ a, (f a).Replies peer heard) : (part >>= f).Replies peer heard := by
  refine (obeys_bind _ _ _ _ _).mpr ((quiet.keeps_said false).mono ?_)
  rintro said o rfl
  cases o with
  | ok a => exact rest a
  | error e => trivial

/-- Something is said, and nothing after it. -/
theorem Replies.bind {part : Intake α} {f : α → Intake β} (replies : part.Replies peer heard)
    (quiet : ∀ a, Asks Request.IsSilent (f a)) : (part >>= f).Replies peer heard := by
  refine (obeys_bind _ _ _ _ _).mpr (Obeys.mono replies ?_)
  intro said o _
  cases o with
  | ok a => exact ((quiet a).keeps_said said).mono fun _ _ _ => trivial
  | error e => trivial

end Intake

namespace Endpoint

open Intake (Asks Replies)

variable (e : Endpoint) (peer : Identity) (heard : Envelope)

theorem send_replies (frame : Frame) (less : frame.deliveries < heard.frame.deliveries) :
    (send peer heard.session frame).Replies peer heard := by
  refine (Intake.obeys_bind _ _ _ _ _).mpr ((Intake.obeys_request _ _ _ _).mpr ⟨?_, ?_⟩)
  · rintro receiver reply ⟨⟩
    exact ⟨rfl, rfl, rfl, less⟩
  · intro answer _
    cases answer <;> trivial

variable {outer : Message}

theorem refuse_replies {α : Type} {cause : Cause} {refusal : Refusal}
    (more : 1 < heard.frame.deliveries) :
    (refuse (α := α) outer heard.session cause refusal).Replies outer.sender heard :=
  (send_replies _ heard (.reject outer.id cause) more).bind fun _ => trivial

theorem dropAndRefuse_replies {α : Type} {refusal : Refusal} (more : 1 < heard.frame.deliveries) :
    (e.dropAndRefuse (α := α) outer heard.session refusal).Replies outer.sender heard :=
  ((Intake.asks_store _).mpr trivial).replies_bind fun _ => refuse_replies heard more

theorem receiveDisabled_replies : (receiveDisabled outer heard).Replies outer.sender heard := by
  obtain ⟨id, frame⟩ := heard
  unfold receiveDisabled
  cases frame with
  | init versions key =>
      have speaks := send_replies outer.sender ⟨id, .init versions key⟩
        (.reject outer.id .disabledByLocal) (by decide : 1 < 3)
      exact speaks.bind fun _ => trivial
  | accept versions key =>
      have speaks := send_replies outer.sender ⟨id, .accept versions key⟩
        (.reject outer.id .disabledByLocal) Nat.one_lt_two
      exact speaks.bind fun _ => trivial
  | encapsulated content => exact refuse_replies ⟨id, .encapsulated content⟩ Nat.one_lt_two
  | reject rejected cause => trivial
  | terminate cause => trivial

theorem receiveInit_replies {senderKey peerEphemeral : Key} {id : SessionId} {offered : VersionRange} :
    (e.receiveInit peer senderKey id offered peerEphemeral).Replies peer
      ⟨id, .init offered peerEphemeral⟩ := by
  have speaks {frame : Frame} {session : SessionInfo}
      (less : frame.deliveries < (Frame.init offered peerEphemeral).deliveries) :
      (send peer id frame >>= fun _ => (return .control session : Intake Received)).Replies peer
        ⟨id, .init offered peerEphemeral⟩ :=
    (send_replies peer ⟨id, .init offered peerEphemeral⟩ frame less).bind fun _ => trivial
  unfold receiveInit
  cases e.policy.versions.negotiate offered with
  | none => exact speaks (by decide : 1 < 3)
  | some version =>
      refine ((Intake.asks_store _).mpr trivial).replies_bind fun _ => ?_
      refine ((Intake.asks_draw _).mpr trivial).replies_bind fun ephemeral => ?_
      refine ((Intake.asks_request _).mpr trivial).replies_bind fun created => ?_
      split
      · trivial
      · exact ((Intake.asks_store _).mpr trivial).replies_bind fun _ => speaks (Nat.lt_succ_self 2)

theorem receiveAccept_replies {id : SessionId} {offered : VersionRange} {peerEphemeral : Key} :
    (e.receiveAccept peer id offered peerEphemeral).Replies peer
      ⟨id, .accept offered peerEphemeral⟩ := by
  have speaks {cause : Cause} {session : SessionInfo} :
      (send peer id (.terminate cause) >>= fun _ => (return .control session : Intake Received)).Replies
        peer ⟨id, .accept offered peerEphemeral⟩ :=
    (send_replies peer ⟨id, .accept offered peerEphemeral⟩ (.terminate cause) Nat.one_lt_two).bind
      fun _ => trivial
  unfold receiveAccept
  refine ((Intake.asks_store _).mpr trivial).replies_bind fun found => ?_
  cases found with
  | none => exact speaks
  | some session =>
      dsimp only
      split
      · trivial
      · split
        · exact ((Intake.asks_store _).mpr trivial).replies_bind fun _ => speaks
        · split
          · trivial
          · exact ((Intake.asks_store _).mpr trivial).replies_bind fun _ => trivial

theorem commit_silent (s : Session) : Asks Request.IsSilent (e.commit s) :=
  ((Intake.asks_store _).mpr trivial).bind fun _ => (Intake.asks_store _).mpr trivial

theorem receiveEncapsulated_replies {senderKey : Key} {id : SessionId} {content : Encapsulated} :
    (e.receiveEncapsulated outer senderKey id content).Replies outer.sender
      ⟨id, .encapsulated content⟩ := by
  have refuses {refusal : Refusal} :
      (e.dropAndRefuse (α := Received) outer id refusal).Replies outer.sender ⟨id, .encapsulated content⟩ :=
    e.dropAndRefuse_replies ⟨id, .encapsulated content⟩ Nat.one_lt_two
  refine ((Intake.asks_store _).mpr trivial).replies_bind fun found => ?_
  cases found with
  | none => exact refuse_replies ⟨id, .encapsulated content⟩ Nat.one_lt_two
  | some stored =>
      dsimp only
      split
      · exact refuses
      · split
        · exact refuses
        · split
          · trivial
          · split
            · exact refuses
            · split
              · exact (e.commit_silent _).replies_bind fun _ => trivial
              · trivial

/-- To what it hears, an endpoint says at most one thing. -/
theorem receive_replies (senderKey : Key) :
    (e.receive outer senderKey heard).Replies outer.sender heard := by
  have ended : (Intake.store (.erase (e.sessionKey outer.sender heard.session)) >>= fun _ =>
      (return .control (.gone heard.session) : Intake Received)).Replies outer.sender heard :=
    ((Intake.asks_store _).mpr trivial).replies_bind fun _ => trivial
  obtain ⟨id, frame⟩ := heard
  unfold receive
  split
  · exact receiveDisabled_replies ⟨id, frame⟩
  · cases frame with
    | init versions key => exact e.receiveInit_replies _
    | accept versions key => exact e.receiveAccept_replies _
    | encapsulated content => exact e.receiveEncapsulated_replies
    | reject rejected cause => exact ended
    | terminate cause => exact ended

end Endpoint

/-! ## What was sent -/

def Exchange.posted : Exchange → Option (Identity × Envelope)
  | ⟨.host (.send receiver envelope), .ok _⟩ => some (receiver, envelope)
  | _ => none

def posts (xs : List Exchange) : List (Identity × Envelope) := xs.filterMap Exchange.posted

theorem Exchange.request_of_posted {x : Exchange} {receiver : Identity} {envelope : Envelope}
    (posted : x.posted = some (receiver, envelope)) : x.request = .host (.send receiver envelope) := by
  unfold Exchange.posted at posted
  split at posted
  · obtain ⟨rfl, rfl⟩ := Prod.mk.inj (Option.some.inj posted)
    rfl
  · cases posted

namespace Reply

variable {peer : Identity} {heard : Envelope} {xs : List Exchange}

theorem answers_of_allowed {said : Bool} {r : Request} (allowed : (rules peer heard).allows said r) :
    r.Answers peer (· = heard) := by
  intro receiver reply sends
  obtain ⟨_, same, session, _⟩ := allowed receiver reply sends
  exact ⟨same, heard, rfl, session⟩

/-- Who has said something says nothing more. -/
theorem posts_said : (rules peer heard).AllowsAll true xs → posts xs = [] := by
  induction xs with
  | nil => exact fun _ => rfl
  | cons x xs ih =>
      intro allowed
      have unsent : x.posted = none := by
        cases posted : x.posted with
        | none => rfl
        | some sent =>
            obtain ⟨receiver, envelope⟩ := sent
            have said := (allowed.1 receiver envelope (Exchange.request_of_posted posted)).1
            cases said
      rw [posts, List.filterMap_cons, unsent]
      exact ih (after_said x ▸ allowed.2)

/-- All that is sent comes to less than what was heard. -/
theorem deliveries_posts_lt : (rules peer heard).AllowsAll false xs →
    ((posts xs).map fun sent => sent.2.frame.deliveries).sum < heard.frame.deliveries := by
  induction xs with
  | nil => exact fun _ => heard.frame.deliveries_pos
  | cons x xs ih =>
      intro allowed
      rw [posts, List.filterMap_cons]
      cases posted : x.posted with
      | some sent =>
          obtain ⟨receiver, envelope⟩ := sent
          have request := Exchange.request_of_posted posted
          have less := (allowed.1 receiver envelope request).2.2.2
          have said : (rules peer heard).after false x = true := by
            obtain ⟨_, answer⟩ := x
            subst request
            rfl
          have nothing := posts_said (said ▸ allowed.2)
          rw [posts] at nothing
          simpa [nothing] using less
      | none =>
          cases said : (rules peer heard).after false x with
          | false => exact ih (said ▸ allowed.2)
          | true =>
              have nothing := posts_said (said ▸ allowed.2)
              rw [posts] at nothing
              simpa [nothing] using heard.frame.deliveries_pos

end Reply

/-- What a part makes of a rule that admits all answers is what it asks. -/
theorem Intake.Obeys.asks {σ α : Type} {rules : Rules σ} {allowed : Request → Prop} {part : Intake α}
    {s : σ} {post : σ → Except ProcessError α → Prop} (obeys : part.Obeys rules s post)
    (admits : ∀ s x, rules.admits s x) (imp : ∀ s r, rules.allows s r → allowed r) :
    Asks allowed part := by
  have general : ∀ (script : Script (Except ProcessError α)) (s : σ), Script.Obeys rules script s post →
      Script.Obeys (.only allowed) script () fun _ _ => True := by
    intro script
    induction script with
    | done value => exact fun _ _ => trivial
    | ask request next ih =>
        intro s obeys
        exact ⟨imp s request obeys.1, fun answer _ => ih answer _ (obeys.2 answer (admits _ _))⟩
  exact general part.run s obeys

/-! ## The pipeline -/

namespace Endpoint

open Intake (Asks)

theorem receive_answers (e : Endpoint) (outer : Message) (senderKey : Key) (envelope : Envelope) :
    Asks (Request.Answers outer.sender (· = envelope)) (e.receive outer senderKey envelope) :=
  (e.receive_replies envelope senderKey).asks (fun _ _ => trivial) fun _ _ => Reply.answers_of_allowed

theorem isDowngrade_silent (e : Endpoint) (sender : Identity) (message : Message) :
    Asks Request.IsSilent (e.isDowngrade sender message) := by
  unfold isDowngrade
  split
  · trivial
  · exact ((Intake.asks_store _).mpr trivial).bind fun _ => trivial

end Endpoint

def Message.Answered (m : Message) (r : Request) : Prop :=
  r.Answers m.sender (m.body = .envelope ·)

namespace Processor

open Intake (Asks Follows)

variable (p : Processor) (message : Message) (key : Key)

theorem handleEnvelope_answers (envelope : Envelope) :
    Asks (Request.Answers message.sender (· = envelope)) (p.handleEnvelope message key envelope) := by
  have quiet {α : Type} {part : Intake α} (silent : Asks Request.IsSilent part) :
      Asks (Request.Answers message.sender (· = envelope)) part :=
    silent.mono fun _ => Request.answers_of_silent
  have commits (s : Session) := quiet (p.endpoint.commit_silent s)
  refine Asks.bind ((p.endpoint.receive_answers message key envelope).attempt) fun received => ?_
  cases received with
  | error e =>
      dsimp only
      split
      · exact Asks.bind (quiet ((record_asks _ _ _ _).mono fun _ => Request.silent_of_ofAdmission))
          fun _ => trivial
      · trivial
  | ok received =>
      dsimp only
      split
      · exact Asks.bind (quiet ((Intake.asks_host _).mpr trivial)) fun _ => trivial
      · refine Asks.bind (quiet ((p.handleInner_asks message _).mono fun _ =>
          Request.silent_of_ofHandling)).attempt fun settled => ?_
        split
        · trivial
        · split
          · split
            · exact Asks.bind (commits _) fun _ => trivial
            · trivial
          · exact Asks.bind (commits _) fun _ => trivial

theorem settle_answered : Asks message.Answered (p.settle message key) := by
  have dispatched : Asks message.Answered (dispatch message) :=
    (dispatch_asks message).mono fun _ ofDispatch =>
      Request.answers_of_silent (Request.silent_of_ofDispatch ofDispatch)
  unfold settle
  split
  · next envelope body =>
    refine (p.handleEnvelope_answers message key envelope).mono fun r answers => ?_
    exact answers.mono fun _ same => same ▸ body
  · refine Asks.bind ((p.endpoint.isDowngrade_silent _ _).mono fun _ => Request.answers_of_silent)
      fun downgraded => ?_
    cases downgraded with
    | false => exact dispatched
    | true =>
        exact Asks.bind ((Intake.asks_notify _).mpr (Request.answers_of_silent trivial)) fun _ => dispatched

theorem handle_answered (nonce : Bytes) : Asks message.Answered (p.handle message key nonce) := by
  rw [handle_eq]
  refine Asks.bind ((p.admission_asks message).mono fun _ ofAdmission =>
    Request.answers_of_silent (Request.silent_of_ofAdmission ofAdmission)) fun reason => ?_
  cases reason with
  | some reason => trivial
  | none =>
      refine Asks.bind ((Intake.asks_store _).mpr (Request.answers_of_silent trivial)) fun seen => ?_
      cases seen with
      | true => trivial
      | false =>
          refine Asks.bind (p.settle_answered message key) fun outcome => ?_
          exact Asks.bind ((Intake.asks_request _).mpr (Request.answers_of_silent trivial)) fun _ => trivial

end Processor

/-- Whether an envelope is the one in a box, as the box was opened. -/
def Boxed.Holds (p : Processor) (boxed : Boxed) (past : List Exchange) (envelope : Envelope) : Prop :=
  ∃ key message, ⟨.host (.publicKey boxed.sender), .ok (some key)⟩ ∈ past ∧
    p.opening boxed key = .ok message ∧ message.body = .envelope envelope

def Boxed.Answered (p : Processor) (boxed : Boxed) (past : List Exchange) (r : Request) : Prop :=
  r.Answers boxed.sender (boxed.Holds p past)

namespace Processor

open Intake (Asks Follows)

variable {p : Processor} {boxed : Boxed} {past : List Exchange}

theorem boxed_grows (p : Processor) (boxed : Boxed) : Grows (Boxed.Answered p boxed) := by
  intro past more r grown answered
  refine answered.mono ?_
  rintro envelope ⟨key, message, resolved, rest⟩
  exact ⟨key, message, grown resolved, rest⟩

theorem quiet_follows {α : Type} {part : Intake α} (silent : Asks Request.IsSilent part) :
    part.Follows (Boxed.Answered p boxed) past fun _ _ => True :=
  .gives (boxed_grows p boxed) (silent.mono fun _ => Request.answers_of_silent)

theorem run_replies : (p.run boxed).Follows (Boxed.Answered p boxed) past fun _ _ => True := by
  have ask {α : Type} {past : List Exchange} {r : Request} {f : r.Answer → Intake α}
      (silent : r.IsSilent) (rest : ∀ more a, past ⊆ more → ⟨r, a⟩ ∈ more →
        (f a).Follows (Boxed.Answered p boxed) more fun _ _ => True) :
      (Intake.request r >>= f).Follows (Boxed.Answered p boxed) past fun _ _ => True := by
    refine Follows.bind (Follows.request (Request.answers_of_silent silent)) ?_ fun _ _ _ _ => trivial
    rintro more a grown ⟨_, ⟨⟩, member⟩
    exact rest more a grown member
  unfold run senderKey
  rw [bind_assoc]
  refine ask trivial fun more answer _ resolved => ?_
  match answer with
  | .error error => exact ⟨List.Subset.refl _, trivial⟩
  | .ok none => exact ⟨List.Subset.refl _, trivial⟩
  | .ok (some key) =>
      rw [pure_bind, decode_eq]
      cases opened : p.opening boxed key with
      | error failure =>
          exact quiet_follows ((reject_asks _ _ _ _).mono fun _ => Request.silent_of_ofAdmission)
      | ok message =>
          have sender : message.sender = boxed.sender := (opening_header opened).1
          dsimp only
          rw [pure_bind]
          refine ask trivial fun entered _ first _ => ask trivial fun started _ second _ => ?_
          have handled : (p.handle message key boxed.nonce.bytes).Follows (Boxed.Answered p boxed)
              started fun _ _ => True := by
            refine .gives (boxed_grows p boxed) ((p.handle_answered message key _).mono ?_)
            intro r answered
            rw [Message.Answered, sender] at answered
            exact answered.mono fun _ body => ⟨key, message, second (first resolved), opened, body⟩
          refine Follows.attempt_bind handled fun _ o _ _ => ?_
          cases o with
          | error e => exact ask trivial fun _ _ _ _ => ⟨List.Subset.refl _, trivial⟩
          | ok outcome => exact ask trivial fun _ _ _ _ => ask trivial fun _ _ _ _ => .pure trivial

/-- Whatever is answered to a call for a boxed message, each envelope that it sends answers the one
in the box. -/
theorem process_replies (p : Processor) (boxed : Boxed) :
    (p.process boxed).Obeys (.history (Boxed.Answered p boxed)) [] fun _ _ => True := by
  refine ⟨Request.answers_of_silent trivial, fun _ _ => ?_⟩
  refine (Intake.obeys_run_bind _ _ _ _ _).mpr (Intake.Obeys.mono run_replies ?_)
  intro more o _
  cases o with
  | ok outcome => trivial
  | error e => exact ⟨Request.answers_of_silent trivial, fun _ _ => trivial⟩

end Processor

end SecureInbox
