import SecureInbox.Proofs.Intake.StoreView

/-! # The frames that make a session

What can come of an opening frame (`Answering`) and of an answering one (`Completing`) at the
one who hears it, of opening a session (`Opening`), and of any envelope while sessions are
switched off (`Dismissing`).  Each list names the sessions that are
filed or removed, and the frame that is sent, with what was checked before.  A failure of a
store or of the transport comes at any place, and leaves what was done until then.

`Hearing` has these together, with a protected frame (`Receipt`) and the end of a session, and
`receive_hearing` says that nothing else can come of an envelope. -/
set_option autoImplicit false

namespace SecureInbox

def Frame.isEnd : Frame → Bool
  | .reject _ _ => true
  | .terminate _ => true
  | _ => false

namespace Endpoint

section Kinds

variable (e : Endpoint) (helps : Exchange → Prop) (peer : Identity) (peerKey : Key) (id : SessionId)
  (offered : VersionRange) (peerEphemeral : Key) (r : StoreView)

inductive Answering : StoreView → Except ProcessError Received → Prop where
  | failed (error : ProcessError) : Answering r (.error error)
  | declined (none : e.policy.versions.negotiate offered = none) :
      Answering (r.post peer ⟨id, .terminate .reset⟩) (.ok (.control (.gone id)))
  | cleared (error : ProcessError) :
      Answering (r.erasePair e.identity.text peer.text) (.error error)
  | unsent (version : Version) (ephemeral : Key) (created : Instant) (s : Session) (key : Key)
      (negotiated : e.policy.versions.negotiate offered = some version)
      (responded : Session.respond e.suite e.secret ephemeral id e.identity.text peer.text peerKey
        peerEphemeral version created = .ok (s, key)) (error : ProcessError) :
      Answering ((r.erasePair e.identity.text peer.text).put s) (.error error)
  | answered (version : Version) (ephemeral : Key) (created : Instant) (s : Session) (key : Key)
      (negotiated : e.policy.versions.negotiate offered = some version)
      (responded : Session.respond e.suite e.secret ephemeral id e.identity.text peer.text peerKey
        peerEphemeral version created = .ok (s, key)) :
      Answering
        (((r.erasePair e.identity.text peer.text).put s).post peer ⟨id, .accept e.policy.versions key⟩)
        (.ok (.control (.ofSession s)))

inductive Completing : StoreView → Except ProcessError Received → Prop where
  | failed (error : ProcessError) : Completing r (.error error)
  | unknown (gone : r.filed (e.sessionKey peer id) = none) :
      Completing (r.post peer ⟨id, .terminate .unknownSession⟩) (.ok (.control (.gone id)))
  /-- The session waits for no answer. -/
  | ignored (s : Session) (found : r.filed (e.sessionKey peer id) = some s)
      (ready : ¬(s.role = .initiator ∧ s.state = .l20)) :
      Completing r (.ok (.control (.ofSession s)))
  | undone (s : Session) (found : r.filed (e.sessionKey peer id) = some s)
      (waiting : s.role = .initiator ∧ s.state = .l20) (error : ProcessError) :
      Completing (r.erase (e.sessionKey peer id)) (.error error)
  | declined (s : Session) (found : r.filed (e.sessionKey peer id) = some s)
      (waiting : s.role = .initiator ∧ s.state = .l20)
      (none : e.policy.versions.negotiate offered = none) :
      Completing ((r.erase (e.sessionKey peer id)).post peer ⟨id, .terminate .reset⟩)
        (.ok (.control (.gone id)))
  | completed (version : Version) (s t : Session) (found : r.filed (e.sessionKey peer id) = some s)
      (negotiated : e.policy.versions.negotiate offered = some version)
      (accepted : s.accept e.suite e.secret peerEphemeral version = .ok t) :
      Completing (r.put t) (.ok (.control (.ofSession t)))

/-- What can come of opening a session, with what `helps` says of the identifier. -/
inductive Opening : StoreView → Except ProcessError Envelope → Prop where
  | failed (error : ProcessError) : Opening r (.error error)
  | opened (ephemeral : Key) (id : SessionId) (created : Instant) (s : Session) (key : Key)
      (drawn : helps ⟨.draw .sessionId, id⟩)
      (initiated : Session.initiate e.suite e.secret ephemeral id e.identity.text peer.text peerKey
        e.policy.versions.max created = .ok (s, key)) :
      Opening (r.put s) (.ok ⟨s.id, .init e.policy.versions key⟩)

inductive Dismissing (outer : Message) (envelope : Envelope) :
    StoreView → Except ProcessError Received → Prop where
  | unsent (error : ProcessError) : Dismissing outer envelope r (.error error)
  | ended : Dismissing outer envelope r (.ok (.control (.gone envelope.session)))
  | rejected (result : Except ProcessError Received)
      (what : result = .ok (.control (.gone envelope.session)) ∨ result = .error (.ofRefusal .disabled)) :
      Dismissing outer envelope
        (r.post outer.sender ⟨envelope.session, .reject outer.id .disabledByLocal⟩) result

inductive Hearing (outer : Message) (senderKey : Key) :
    Envelope → StoreView → Except ProcessError Received → Prop where
  | dismissed {envelope : Envelope} {u : StoreView} {o : Except ProcessError Received}
      (disabled : e.policy.enabled = false) (dismissing : Dismissing r outer envelope u o) :
      Hearing outer senderKey envelope u o
  | answered {id : SessionId} {offered : VersionRange} {peerEphemeral : Key} {u : StoreView}
      {o : Except ProcessError Received} (enabled : e.policy.enabled = true)
      (answering : Answering e outer.sender senderKey id offered peerEphemeral r u o) :
      Hearing outer senderKey ⟨id, .init offered peerEphemeral⟩ u o
  | completed {id : SessionId} {offered : VersionRange} {peerEphemeral : Key} {u : StoreView}
      {o : Except ProcessError Received} (enabled : e.policy.enabled = true)
      (completing : Completing e outer.sender id offered peerEphemeral r u o) :
      Hearing outer senderKey ⟨id, .accept offered peerEphemeral⟩ u o
  | read {id : SessionId} {content : Encapsulated} {u : StoreView} {o : Except ProcessError Received}
      (enabled : e.policy.enabled = true)
      (receipt : Receipt e helps outer senderKey id content r u o) :
      Hearing outer senderKey ⟨id, .encapsulated content⟩ u o
  | ended {id : SessionId} {frame : Frame} (isEnd : frame.isEnd = true) :
      Hearing outer senderKey ⟨id, frame⟩ (r.erase (e.sessionKey outer.sender id))
        (.ok (.control (.gone id)))
  | unended {id : SessionId} {frame : Frame} (isEnd : frame.isEnd = true) (call : StoreCall)
      (error : StoreError) (admitted : helps ⟨.store call, .error error⟩) :
      Hearing outer senderKey ⟨id, frame⟩ r (.error (.store error))

end Kinds

variable {e : Endpoint} {helps : Exchange → Prop} {r : StoreView} {peer : Identity}

/-- A part that ends by sending a frame without a message. -/
theorem send_control {id : SessionId} {frame : Frame} {session : SessionInfo}
    {post : StoreView → Except ProcessError Received → Prop}
    (sent : post (r.post peer ⟨id, frame⟩) (.ok (.control session)))
    (unsent : ∀ error, post r (.error error)) :
    (send peer id frame >>= fun _ => (return .control session : Intake Received)).Obeys
      (StoreView.rules helps) r post := by
  rw [Intake.obeys_bind]
  refine send_view.mono ?_
  rintro u o (⟨rfl, rfl⟩ | ⟨reason, error, _, rfl, rfl⟩)
  · exact sent
  · exact unsent _

theorem receiveInit_answering {peerKey : Key} {id : SessionId} {offered : VersionRange}
    {peerEphemeral : Key} :
    (e.receiveInit peer peerKey id offered peerEphemeral).Obeys (StoreView.rules helps) r
      (Answering e peer peerKey id offered peerEphemeral r) := by
  unfold receiveInit
  cases negotiated : e.policy.versions.negotiate offered with
  | none => exact send_control (.declined negotiated) .failed
  | some version =>
      refine StoreView.obeys_store_bind ?_ fun error _ => .failed _
      intro _ _ _
      refine (Intake.obeys_bind _ _ _ _ _).mpr ((Intake.obeys_draw _ _ _ _).mpr ⟨trivial, ?_⟩)
      intro ephemeral _
      refine (Intake.obeys_bind _ _ _ _ _).mpr ((Intake.obeys_request _ _ _ _).mpr ⟨trivial, ?_⟩)
      intro created _
      show Intake.Obeys _ _ (r.erasePair e.identity.text peer.text) _
      split
      · exact .cleared _
      · next s key responded =>
        refine StoreView.obeys_store_bind ?_ fun error _ => .cleared _
        intro _ _ _
        exact send_control (.answered version ephemeral created s key negotiated responded)
          (.unsent version ephemeral created s key negotiated responded)

theorem receiveAccept_completing {id : SessionId} {offered : VersionRange} {peerEphemeral : Key} :
    (e.receiveAccept peer id offered peerEphemeral).Obeys (StoreView.rules helps) r
      (Completing e peer id offered peerEphemeral r) := by
  unfold receiveAccept
  refine StoreView.obeys_find_bind ?_ fun error _ => .failed _
  cases found : r.filed (e.sessionKey peer id) with
  | none => exact send_control (.unknown found) .failed
  | some s =>
      dsimp only
      by_cases other : s.role ≠ .initiator ∨ s.state ≠ .l20
      · rw [if_pos other]
        exact .ignored s found fun waiting => other.elim (· waiting.1) (· waiting.2)
      · rw [if_neg other]
        obtain ⟨role, state⟩ := not_or.mp other
        have waiting : s.role = .initiator ∧ s.state = .l20 :=
          ⟨Decidable.not_not.mp role, Decidable.not_not.mp state⟩
        cases negotiated : e.policy.versions.negotiate offered with
        | none =>
            refine StoreView.obeys_store_bind ?_ fun error _ => .failed _
            intro _ _ _
            exact send_control (.declined s found waiting negotiated) (.undone s found waiting)
        | some version =>
            dsimp only
            split
            · exact .failed _
            · next t accepted =>
              refine StoreView.obeys_store_bind ?_ fun error _ => .failed _
              intro _ _ _
              exact .completed version s t found negotiated accepted

theorem receiveDisabled_dismissing {outer : Message} {envelope : Envelope} :
    (receiveDisabled outer envelope).Obeys (StoreView.rules helps) r (Dismissing r outer envelope) := by
  unfold receiveDisabled
  cases envelope.frame with
  | init offered key => exact send_control (.rejected _ (.inl rfl)) .unsent
  | accept offered key => exact send_control (.rejected _ (.inl rfl)) .unsent
  | reject rejected cause => exact .ended
  | terminate cause => exact .ended
  | encapsulated content =>
      refine refuse_view.mono ?_
      rintro u o (⟨rfl, rfl⟩ | ⟨reason, error, _, rfl, rfl⟩)
      · exact .rejected _ (.inr rfl)
      · exact .unsent _

theorem initiate_opening {peerKey : Key} :
    (e.initiate peer peerKey).Obeys (StoreView.rules helps) r (Opening e helps peer peerKey r) := by
  unfold initiate
  refine (Intake.obeys_bind _ _ _ _ _).mpr ((Intake.obeys_draw _ _ _ _).mpr ⟨trivial, ?_⟩)
  intro ephemeral _
  refine (Intake.obeys_bind _ _ _ _ _).mpr ((Intake.obeys_draw _ _ _ _).mpr ⟨trivial, ?_⟩)
  rintro id ⟨_, drawn⟩
  refine (Intake.obeys_bind _ _ _ _ _).mpr ((Intake.obeys_request _ _ _ _).mpr ⟨trivial, ?_⟩)
  intro created _
  show Intake.Obeys _ _ r _
  split
  · exact .failed _
  · next s key opened =>
    refine StoreView.obeys_store_bind ?_ fun error _ => .failed _
    intro _ _ _
    exact .opened ephemeral id created s key drawn opened

theorem receive_hearing {outer : Message} {senderKey : Key} {envelope : Envelope} :
    (e.receive outer senderKey envelope).Obeys (StoreView.rules helps) r
      (Hearing e helps r outer senderKey envelope) := by
  obtain ⟨id, frame⟩ := envelope
  unfold receive
  cases enabled : e.policy.enabled with
  | false => exact receiveDisabled_dismissing.mono fun _ _ => .dismissed enabled
  | true =>
      have ended : frame.isEnd = true → (Intake.store (.erase (e.sessionKey outer.sender id)) >>= fun _ =>
          (return .control (.gone id) : Intake Received)).Obeys (StoreView.rules helps) r
            (Hearing e helps r outer senderKey ⟨id, frame⟩) := fun isEnd =>
        StoreView.obeys_store_bind (fun _ _ _ => .ended isEnd) fun error helpful =>
          .unended isEnd _ error helpful
      cases frame with
      | init offered key => exact receiveInit_answering.mono fun _ _ => .answered enabled
      | accept offered key => exact receiveAccept_completing.mono fun _ _ => .completed enabled
      | encapsulated content => exact receiveEncapsulated_receipt.mono fun _ _ => .read enabled
      | reject rejected cause => exact ended rfl
      | terminate cause => exact ended rfl

end Endpoint

end SecureInbox
