import SecureInbox.Proofs.Intake.Recovery
import SecureInbox.Proofs.Session.Version

/-! # Sessions that cross

Both of two endpoints open a session with the other one before either has heard of it.  In a
`Crossing.Step` one of them hears the first frame that is on its way to it, and what it says sets
out behind what is on its way already; nothing is lost, and neither a store nor the transport fails.

An endpoint that hears the opening frame of the other one gives up the session that it has opened
itself, and answers (`Superseding`).  So both answers are to sessions that are not there any more,
are answered by the end of those sessions, and in the end the two share none (`crossing_ends`).  Where
there is no version that both have, both openings are declined (`Declining`). -/
set_option autoImplicit false

namespace SecureInbox

namespace SessionRole

@[simp] theorem other_other (side : SessionRole) : side.other.other = side := by
  cases side <;> rfl

theorem eq_or_eq_other (side s : SessionRole) : s = side ∨ s = side.other := by
  cases side <;> cases s <;> first | exact .inl rfl | exact .inr rfl

end SessionRole

namespace Both

variable {α : Type} (both : Both α) (side : SessionRole) (a : α)

@[simp] theorem get_set : (both.set side a).get side = a := by
  cases side <;> rfl

@[simp] theorem get_set_other : (both.set side a).get side.other = both.get side.other := by
  cases side <;> rfl

@[simp] theorem get_other_set : (both.set side.other a).get side = both.get side := by
  cases side <;> rfl

theorem get_ne {both : Both α} (differ : both.initiator ≠ both.responder) (side : SessionRole) :
    both.get side ≠ both.get side.other := by
  cases side with
  | initiator => exact differ
  | responder => exact differ.symm

end Both

/-! ## What was sent -/

namespace StoreView

theorem sent_after (r : StoreView) (x : Exchange) : (r.after x).sent = r.sent ++ x.posted.toList := by
  have silent (sent : List (Identity × Envelope)) : sent = sent ++ [] := sent.append_nil.symm
  obtain ⟨request, answer⟩ := x
  cases request with
  | host c =>
      cases c with
      | send peer envelope =>
          cases answer with
          | ok _ => rfl
          | error error => exact silent _
      | _ => exact silent _
  | store c =>
      cases answer with
      | ok _ => cases c <;> exact silent _
      | error error =>
          rw [after_failed]
          exact silent _
  | _ => exact silent _

theorem sent_afterAll {helps : Exchange → Prop} (xs : List Exchange) :
    ∀ r : StoreView, ((rules helps).afterAll r xs).sent = r.sent ++ posts xs := by
  induction xs with
  | nil => exact fun r => r.sent.append_nil.symm
  | cons x xs ih =>
      intro r
      show ((rules helps).afterAll (r.after x) xs).sent = _
      rw [ih, sent_after, List.append_assoc, posts, posts, List.filterMap_cons]
      cases x.posted <;> rfl

/-- Nothing that was sent is taken back. -/
theorem Goes.sent_grows {α : Type} {helps : Exchange → Prop} {part : Intake α} {r left : StoreView}
    {result : Except ProcessError α} (goes : Goes helps part r result left) :
    left.sent = r.sent ++ left.sent.drop r.sent.length := by
  obtain ⟨xs, _, _, rfl⟩ := goes
  rw [sent_afterAll, List.drop_left]

end StoreView

/-! ## While nothing fails -/

namespace Endpoint

variable {e : Endpoint} {r : StoreView} {peer : Identity} {id : SessionId} {offered : VersionRange}
  {peerKey peerEphemeral : Key}

theorem send_works {frame : Frame} {session : SessionInfo} :
    (send peer id frame >>= fun _ => (return .control session : Intake Received)).Obeys
      (StoreView.rules Exchange.works) r fun u _ => u = r.post peer ⟨id, frame⟩ := by
  rw [Intake.obeys_bind]
  refine send_view.mono ?_
  rintro u o (⟨rfl, rfl⟩ | ⟨_, _, impossible, _⟩)
  · rfl
  · cases impossible

/-- An opening frame in a version that we have removes all sessions with the peer; there may be a
new one, and then that is said. -/
theorem receiveInit_supersedes {version : Version}
    (negotiated : e.policy.versions.negotiate offered = some version) :
    (e.receiveInit peer peerKey id offered peerEphemeral).Obeys (StoreView.rules Exchange.works) r
      fun u _ => u = r.erasePair e.identity.text peer.text ∨
        ∃ s key, s.fileKey = e.sessionKey peer id ∧ s.role = .responder ∧
          u = ((r.erasePair e.identity.text peer.text).put s).post peer
            ⟨id, .accept e.policy.versions key⟩ := by
  unfold receiveInit
  rw [negotiated]
  refine StoreView.obeys_store_bind ?_ fun _ impossible => nomatch impossible
  intro _ _ _
  refine (Intake.obeys_bind _ _ _ _ _).mpr ((Intake.obeys_draw _ _ _ _).mpr ⟨trivial, ?_⟩)
  intro ephemeral _
  refine (Intake.obeys_bind _ _ _ _ _).mpr ((Intake.obeys_request _ _ _ _).mpr ⟨trivial, ?_⟩)
  intro created _
  show Intake.Obeys _ _ (r.erasePair e.identity.text peer.text) _
  split
  · exact .inl rfl
  · next s key responded =>
    obtain ⟨is, fileKey, _⟩ := Session.respond_ok responded
    refine StoreView.obeys_store_bind ?_ fun _ impossible => nomatch impossible
    intro _ _ _
    exact send_works.mono fun _ _ sent => .inr ⟨s, key, fileKey, is.role, sent⟩

/-- An opening frame in no version that we have is declined. -/
theorem receiveInit_declines (none : e.policy.versions.negotiate offered = none) :
    (e.receiveInit peer peerKey id offered peerEphemeral).Obeys (StoreView.rules Exchange.works) r
      fun u _ => u = r.post peer ⟨id, .terminate .reset⟩ := by
  unfold receiveInit
  rw [none]
  exact send_works

/-- An answering frame for which no session waits ends the session that it is for, unless it is one
that the peer has opened. -/
theorem receiveAccept_unasked
    (unasked : ∀ s, r.filed (e.sessionKey peer id) = some s → s.role = .responder) :
    (e.receiveAccept peer id offered peerEphemeral).Obeys (StoreView.rules Exchange.works) r fun u _ =>
      r.filed (e.sessionKey peer id) = none ∧ u = r.post peer ⟨id, .terminate .unknownSession⟩ ∨
        (r.filed (e.sessionKey peer id)).isSome = true ∧ u = r := by
  unfold receiveAccept
  refine StoreView.obeys_find_bind ?_ fun _ impossible => nomatch impossible
  cases found : r.filed (e.sessionKey peer id) with
  | none => exact send_works.mono fun _ _ sent => .inl ⟨rfl, sent⟩
  | some s =>
      have other : s.role ≠ .initiator ∨ s.state ≠ .l20 := by
        rw [unasked s found]
        exact .inl nofun
      dsimp only
      rw [if_pos other]
      exact .inr ⟨rfl, rfl⟩

theorem receive_init (enabled : e.policy.enabled = true) {outer : Message} :
    e.receive outer peerKey ⟨id, .init offered peerEphemeral⟩ =
      e.receiveInit outer.sender peerKey id offered peerEphemeral := by
  unfold receive
  rw [enabled]
  rfl

theorem receive_accept (enabled : e.policy.enabled = true) {outer : Message} :
    e.receive outer peerKey ⟨id, .accept offered peerEphemeral⟩ =
      e.receiveAccept outer.sender id offered peerEphemeral := by
  unfold receive
  rw [enabled]
  rfl

end Endpoint

/-! ## Two who open -/

/-- The stores of both sides, and what is on its way to each, the first first. -/
structure Crossing where
  view : Both StoreView
  inbox : Both (List Envelope)

namespace Crossing

section Steps

variable (ends : Both Endpoint)

def key (side : SessionRole) (id : SessionId) : SessionKey :=
  (ends.get side).sessionKey (ends.get side.other).identity id

def held (t : Crossing) (side : SessionRole) (id : SessionId) : Option Session :=
  (t.view.get side).filed (key ends side id)

def after (t : Crossing) (side : SessionRole) (left : StoreView) (rest news : List Envelope) : Crossing :=
  ⟨t.view.set side left, (t.inbox.set side rest).set side.other (t.inbox.get side.other ++ news)⟩

/-- Each side, which had no session with the other one, has opened a session of its number, and the
opening frames are on their way. -/
def Starts (ids : Both SessionId) (t : Crossing) : Prop :=
  ∀ side : SessionRole, ∃ before peerKey envelope,
    (∀ id, before.filed (key ends side id) = none) ∧
      StoreView.Goes Exchange.works ((ends.get side).initiate (ends.get side.other).identity peerKey)
        before (.ok envelope) (t.view.get side) ∧
      t.inbox.get side.other = [envelope] ∧ envelope.session = ids.get side

inductive Step : Crossing → Crossing → Prop where
  | hears (t : Crossing) (side : SessionRole) (envelope : Envelope) (rest : List Envelope)
      (outer : Message) (senderKey : Key) (result : Except ProcessError Received) (left : StoreView)
      (news : List (Identity × Envelope)) (first : t.inbox.get side = envelope :: rest)
      (sender : outer.sender = (ends.get side.other).identity)
      (goes : StoreView.Goes Exchange.works ((ends.get side).receive outer senderKey envelope)
        (t.view.get side) result left)
      (sent : left.sent = (t.view.get side).sent ++ news) :
      Step t (t.after side left rest (news.map Prod.snd))

inductive Run : Crossing → Crossing → Prop where
  | nil (t : Crossing) : Run t t
  | snoc {t u v : Crossing} (run : Run t u) (step : Step ends u v) : Run t v

end Steps

variable {ends : Both Endpoint} {t : Crossing} {side : SessionRole} {left : StoreView} {e : Envelope}
  {rest news : List Envelope} {id : SessionId} {provokes : Envelope → Prop}

@[simp] theorem inbox_after : (t.after side left rest news).inbox.get side = rest := by
  simp [after]

@[simp] theorem inbox_after_other : (t.after side left rest news).inbox.get side.other =
    t.inbox.get side.other ++ news := by
  simp [after]

@[simp] theorem held_after : (t.after side left rest news).held ends side id =
    left.filed (key ends side id) := by
  simp [after, held]

@[simp] theorem held_after_other : (t.after side left rest news).held ends side.other id =
    t.held ends side.other id := by
  simp [after, held]

/-! ## An end that is on its way -/

/-- Whether the end of a session is on its way to a side, or something that will be answered so. -/
def Owed (t : Crossing) (side : SessionRole) (id : SessionId) (provokes : Envelope → Prop) : Prop :=
  (∃ e ∈ t.inbox.get side.other, provokes e) ∨ ∃ cause, ⟨id, .terminate cause⟩ ∈ t.inbox.get side

/-- What is owed to a side is owed until it hears it. -/
theorem Owed.hearing (owed : t.Owed side id provokes) (first : t.inbox.get side = e :: rest)
    (other : ∀ cause, e ≠ ⟨id, .terminate cause⟩) : (t.after side left rest news).Owed side id provokes := by
  rcases owed with ⟨x, waits, provoking⟩ | ⟨cause, waits⟩
  · refine .inl ⟨x, ?_, provoking⟩
    rw [inbox_after_other]
    exact List.mem_append_left _ waits
  · rw [first] at waits
    rcases List.mem_cons.mp waits with same | waits
    · exact (other cause same.symm).elim
    · exact .inr ⟨cause, by rwa [inbox_after]⟩

/-- What provokes it is answered by it. -/
theorem Owed.heard (owed : t.Owed side.other id provokes) (first : t.inbox.get side = e :: rest)
    (answered : provokes e → ∃ cause, ⟨id, .terminate cause⟩ ∈ news) :
    (t.after side left rest news).Owed side.other id provokes := by
  rcases owed with ⟨x, waits, provoking⟩ | ⟨cause, waits⟩
  · rw [SessionRole.other_other, first] at waits
    rcases List.mem_cons.mp waits with rfl | waits
    · obtain ⟨cause, isNew⟩ := answered provoking
      refine .inr ⟨cause, ?_⟩
      rw [inbox_after_other]
      exact List.mem_append_right _ isNew
    · exact .inl ⟨x, by rwa [SessionRole.other_other, inbox_after], provoking⟩
  · refine .inr ⟨cause, ?_⟩
    rw [inbox_after_other]
    exact List.mem_append_left _ waits

theorem Owed.not_quiet (owed : t.Owed side id provokes) (quiet : ∀ side, t.inbox.get side = []) : False := by
  rcases owed with ⟨x, waits, _⟩ | ⟨cause, waits⟩
  · rw [quiet] at waits
    cases waits
  · rw [quiet] at waits
    cases waits

/-- Whether a side has no session but one, in this role, to which the end is coming, if `given`; what
is on its way to it is as `comes` says. -/
structure Ending (ends : Both Endpoint) (id : SessionId) (role : SessionRole) (given : Prop)
    (comes provokes : Envelope → Prop) (t : Crossing) (side : SessionRole) : Prop where
  frames : ∀ e ∈ t.inbox.get side, comes e
  sessions : ∀ other s, t.held ends side other = some s → other = id ∧ s.role = role
  owed : given → (t.held ends side id).isSome = true → t.Owed side id provokes

namespace Ending

variable {role : SessionRole} {given : Prop} {comes : Envelope → Prop}

/-- The side that hears a frame, unless it makes a session of that. -/
theorem hearing (ending : Ending ends id role given comes provokes t side)
    (first : t.inbox.get side = e :: rest)
    (fewer : ∀ other s, left.filed (key ends side other) = some s → t.held ends side other = some s)
    (ended : ∀ cause, e = ⟨id, .terminate cause⟩ → left.filed (key ends side id) = none) :
    Ending ends id role given comes provokes (t.after side left rest news) side := by
  have frames := ending.frames
  rw [first] at frames
  refine ⟨?_, ?_, fun given held => ?_⟩
  · rw [inbox_after]
    exact (List.forall_mem_cons.mp frames).2
  · intro other s found
    rw [held_after] at found
    exact ending.sessions other s (fewer other s found)
  · rw [held_after] at held
    obtain ⟨s, found⟩ := Option.isSome_iff_exists.mp held
    have there : (t.held ends side id).isSome = true :=
      Option.isSome_iff_exists.mpr ⟨s, fewer id s found⟩
    refine (ending.owed given there).hearing first fun cause same => ?_
    rw [ended cause same] at found
    cases found

/-- The side that hears nothing. -/
theorem other (ending : Ending ends id role given comes provokes t side.other)
    (first : t.inbox.get side = e :: rest) (trailing : ∀ x ∈ news, comes x)
    (answered : given → provokes e → ∃ cause, ⟨id, .terminate cause⟩ ∈ news) :
    Ending ends id role given comes provokes (t.after side left rest news) side.other := by
  refine ⟨?_, ?_, fun given held => ?_⟩
  · rw [inbox_after_other]
    exact List.forall_mem_append.mpr ⟨ending.frames, trailing⟩
  · intro other s found
    rw [held_after_other] at found
    exact ending.sessions other s found
  · rw [held_after_other] at held
    exact (ending.owed given held).heard first (answered given)

theorem gone (ending : Ending ends id role given comes provokes t side) (holds : given)
    (quiet : ∀ side, t.inbox.get side = []) (other : SessionId) : t.held ends side other = none := by
  cases held : t.held ends side other with
  | none => rfl
  | some s =>
      obtain ⟨rfl, _⟩ := ending.sessions other s held
      have owed := ending.owed holds (Option.isSome_iff_exists.mpr ⟨s, held⟩)
      exact (owed.not_quiet quiet).elim

end Ending

section Phases

variable (ends : Both Endpoint) (ids : Both SessionId)

def IsOpening (side : SessionRole) (e : Envelope) : Prop :=
  ∃ k, e = ⟨ids.get side, .init (ends.get side).policy.versions k⟩

def IsAnswer (side : SessionRole) (e : Envelope) : Prop :=
  ∃ k, e = ⟨ids.get side.other, .accept (ends.get side).policy.versions k⟩

/-! ## With a version in common -/

/-- What comes to a side behind the opening frame of the other one. -/
inductive Trailing (side : SessionRole) : Envelope → Prop where
  | answer (e : Envelope) (isAnswer : IsAnswer ends ids side.other e) : Trailing side e
  | terminate (id : SessionId) (cause : Cause) : Trailing side ⟨id, .terminate cause⟩

/-- A side has heard the opening frame of the other one; to its session with the other one an end is
coming, unless both have one number. -/
def Answering (t : Crossing) (side : SessionRole) : Prop :=
  t.Ending ends (ids.get side.other) .responder (ids.initiator ≠ ids.responder) (Trailing ends ids side)
    (IsAnswer ends ids side) side

inductive Superseding (t : Crossing) (side : SessionRole) : Prop where
  | waits (opening : Envelope) (rest : List Envelope) (isOpening : IsOpening ends ids side.other opening)
      (first : t.inbox.get side = opening :: rest) (trailing : ∀ e ∈ rest, Trailing ends ids side e)
  | heard (answering : Answering ends ids t side)

structure Passes (t : Crossing) (side : SessionRole) (e : Envelope) (left : StoreView)
    (rest news : List Envelope) : Prop where
  answering : Answering ends ids (t.after side left rest news) side
  trailing : ∀ x ∈ news, Trailing ends ids side.other x
  /-- The answer to an opening frame finds no session, and that is said. -/
  answered : ids.initiator ≠ ids.responder → IsAnswer ends ids side.other e →
    ∃ cause, ⟨ids.get side, .terminate cause⟩ ∈ news

variable {ends ids}

/-- The side that hears nothing. -/
theorem Passes.other (passes : Passes ends ids t side e left rest news)
    (first : t.inbox.get side = e :: rest) (phase : Superseding ends ids t side.other) :
    Superseding ends ids (t.after side left rest news) side.other := by
  cases phase with
  | waits opening others isOpening here behind =>
      have trailing := List.forall_mem_append.mpr ⟨behind, passes.trailing⟩
      refine .waits opening (others ++ news) isOpening ?_ trailing
      rw [inbox_after_other, here]
      rfl
  | heard answering =>
      refine .heard (Ending.other answering first passes.trailing ?_)
      rw [SessionRole.other_other]
      exact passes.answered

section Hears

variable {outer : Message} {senderKey : Key} {result : Except ProcessError Received}
  {sent : List (Identity × Envelope)} (enabled : (ends.get side).policy.enabled = true)
  (sender : outer.sender = (ends.get side.other).identity)
  (goes : StoreView.Goes Exchange.works ((ends.get side).receive outer senderKey e) (t.view.get side)
    result left)
  (sends : left.sent = (t.view.get side).sent ++ sent)
include enabled sender goes sends

/-- One who hears the opening frame has no session of its own any more. -/
theorem passes_init {version : Version} (isOpening : IsOpening ends ids side.other e)
    (negotiated : (ends.get side).policy.versions.negotiate (ends.get side.other).policy.versions =
      some version)
    (trailing : ∀ e ∈ rest, Trailing ends ids side e) :
    Passes ends ids t side e left rest (sent.map Prod.snd) := by
  obtain ⟨k, rfl⟩ := isOpening
  have gone (id : SessionId) : ((t.view.get side).erasePair (ends.get side).identity.text
      (ends.get side.other).identity.text).filed (key ends side id) = none :=
    if_pos (SessionKey.isOfPair_iff.mpr ⟨rfl, rfl⟩)
  rw [Endpoint.receive_init enabled, sender] at goes
  rcases goes.holds (Endpoint.receiveInit_supersedes negotiated) with
    rfl | ⟨s, ephemeral, filed, role, rfl⟩
  · have none : sent = [] := List.append_right_eq_self.mp sends.symm
    subst none
    refine ⟨⟨?_, ?_, fun _ held => ?_⟩, by simp, fun _ ⟨_, same⟩ => nomatch congrArg Envelope.frame same⟩
    · rwa [inbox_after]
    · intro id s found
      rw [held_after, gone] at found
      cases found
    · rw [held_after, gone] at held
      cases held
  · obtain rfl := List.append_cancel_left sends
    have isAnswer : IsAnswer ends ids side
        ⟨ids.get side.other, .accept (ends.get side).policy.versions ephemeral⟩ := ⟨ephemeral, rfl⟩
    refine ⟨⟨?_, ?_, fun _ _ => .inl ⟨_, ?_, isAnswer⟩⟩, ?_,
      fun _ ⟨_, same⟩ => nomatch congrArg Envelope.frame same⟩
    · rwa [inbox_after]
    · intro id u found
      rw [held_after] at found
      rcases StoreView.filed_put_cases found with ⟨rfl, same⟩ | before
      · rw [filed] at same
        exact ⟨(congrArg SessionKey.id same).symm, role⟩
      · rw [gone] at before
        cases before
    · rw [inbox_after_other]
      exact List.mem_append_right _ List.mem_cons_self
    · intro x member
      obtain rfl := List.mem_singleton.mp member
      exact .answer _ (by rwa [SessionRole.other_other])

variable (answering : Answering ends ids t side) (first : t.inbox.get side = e :: rest)
include answering first

/-- The answer to an opening frame finds no session that waits for it. -/
theorem passes_answer (isAnswer : IsAnswer ends ids side.other e) :
    Passes ends ids t side e left rest (sent.map Prod.snd) := by
  obtain ⟨k, rfl⟩ := isAnswer
  rw [SessionRole.other_other] at goes first ⊢
  have unasked : ∀ s, (t.view.get side).filed (key ends side (ids.get side)) = some s →
      s.role = .responder := fun s found => (answering.sessions _ s found).2
  have stays {left : StoreView} {news : List Envelope} (same : left.filed = (t.view.get side).filed) :
      Answering ends ids (t.after side left rest news) side := by
    refine Ending.hearing answering first (fun other s found => ?_) fun _ ended => ?_
    · rwa [same] at found
    · cases congrArg Envelope.frame ended
  rw [Endpoint.receive_accept enabled, sender] at goes
  rcases goes.holds (Endpoint.receiveAccept_unasked unasked) with ⟨_, rfl⟩ | ⟨there, rfl⟩
  · obtain rfl := List.append_cancel_left sends
    refine ⟨stays rfl, fun x member => ?_, fun _ _ => ⟨_, List.mem_cons_self⟩⟩
    obtain rfl := List.mem_singleton.mp member
    exact .terminate _ _
  · have none : sent = [] := List.append_right_eq_self.mp sends.symm
    subst none
    refine ⟨stays rfl, by simp, fun differ _ => ?_⟩
    obtain ⟨s, found⟩ := Option.isSome_iff_exists.mp there
    exact (Both.get_ne differ side (answering.sessions _ s found).1).elim

theorem passes_terminate {id : SessionId} {cause : Cause} (is : e = ⟨id, .terminate cause⟩) :
    Passes ends ids t side e left rest (sent.map Prod.snd) := by
  subst is
  rcases goes.holds (Endpoint.receive_end enabled rfl) with ⟨rfl, _⟩ | ⟨_, _, impossible, _⟩
  · have none : sent = [] := List.append_right_eq_self.mp sends.symm
    subst none
    refine ⟨?_, by simp, fun _ ⟨_, same⟩ => nomatch congrArg Envelope.frame same⟩
    refine Ending.hearing answering first (fun _ _ => StoreView.filed_without_some) ?_
    rintro _ ⟨⟩
    rw [sender, StoreView.filed_erase]
    exact Function.update_self _ _ _
  · cases impossible

end Hears

/-- Whichever side hears a frame, both stay in their phases. -/
theorem Step.superseding {u : Crossing} {version : Version}
    (enabled : ∀ side, (ends.get side).policy.enabled = true)
    (negotiated : ∀ side, (ends.get side).policy.versions.negotiate (ends.get side.other).policy.versions =
      some version)
    (step : Step ends t u) (phases : ∀ side, Superseding ends ids t side) :
    ∀ side, Superseding ends ids u side := by
  cases step with
  | hears side envelope rest outer senderKey result left news first sender goes sent =>
      have passes : Passes ends ids t side envelope left rest (news.map Prod.snd) := by
        cases phases side with
        | waits opening others isOpening here behind =>
            obtain ⟨rfl, rfl⟩ := List.cons.inj (first.symm.trans here)
            exact passes_init (enabled side) sender goes sent isOpening (negotiated side) behind
        | heard answering =>
            cases answering.frames envelope (first ▸ List.mem_cons_self) with
            | answer _ isAnswer => exact passes_answer (enabled side) sender goes sent answering first isAnswer
            | terminate id cause => exact passes_terminate (enabled side) sender goes sent answering first rfl
      intro s
      rcases side.eq_or_eq_other s with rfl | rfl
      · exact .heard passes.answering
      · exact passes.other first (phases _)

/-! ## With none -/

variable (ends ids)

inductive Declined (side : SessionRole) : Envelope → Prop where
  | opening (e : Envelope) (isOpening : IsOpening ends ids side.other e) : Declined side e
  | terminate (cause : Cause) : Declined side ⟨ids.get side, .terminate cause⟩

def Declining (t : Crossing) (side : SessionRole) : Prop :=
  t.Ending ends (ids.get side) .initiator True (Declined ends ids side) (IsOpening ends ids side) side

variable {ends ids}

theorem Step.declining {u : Crossing} (enabled : ∀ side, (ends.get side).policy.enabled = true)
    (none : ∀ side : SessionRole, (ends.get side).policy.versions.negotiate
      (ends.get side.other).policy.versions = none)
    (step : Step ends t u) (phases : ∀ side, Declining ends ids t side) :
    ∀ side, Declining ends ids u side := by
  cases step with
  | hears side envelope rest outer senderKey result left news first sender goes sent =>
      intro s
      cases (phases side).frames envelope (first ▸ List.mem_cons_self) with
      | opening _ isOpening =>
          obtain ⟨k, rfl⟩ := isOpening
          rw [Endpoint.receive_init (enabled side), sender] at goes
          obtain rfl := goes.holds (Endpoint.receiveInit_declines (none side))
          obtain rfl := List.append_cancel_left sent
          rcases side.eq_or_eq_other s with rfl | rfl
          · exact (phases _).hearing first (fun _ _ found => found) fun _ ended =>
              nomatch congrArg Envelope.frame ended
          · refine (phases _).other first (fun x member => ?_) fun _ _ => ⟨_, List.mem_cons_self⟩
            obtain rfl := List.mem_singleton.mp member
            exact .terminate _
      | terminate cause =>
          rcases goes.holds (Endpoint.receive_end (enabled side) rfl) with ⟨rfl, _⟩ | ⟨_, _, impossible, _⟩
          · have none : news = [] := List.append_right_eq_self.mp sent.symm
            subst none
            rcases side.eq_or_eq_other s with rfl | rfl
            · refine (phases _).hearing first (fun _ _ => StoreView.filed_without_some) fun _ _ => ?_
              rw [sender, StoreView.filed_erase]
              exact Function.update_self _ _ _
            · exact (phases _).other first (by simp) fun _ ⟨_, same⟩ => nomatch congrArg Envelope.frame same
          · cases impossible

end Phases

/-! ## How it ends -/

/-- What a step keeps holds after a run. -/
theorem Run.keeps {holds : Crossing → Prop} {u : Crossing} (run : Run ends t u) (first : holds t)
    (kept : ∀ {u v : Crossing}, Step ends u v → holds u → holds v) : holds u := by
  induction run with
  | nil => exact first
  | snoc run step ih => exact kept step ih

section Ends

variable {ids : Both SessionId}

/-- At first a side has the session that it has opened, and the other side is told of it. -/
theorem Starts.opened (starts : Starts ends ids t) (side : SessionRole) :
    (∃ opening, t.inbox.get side.other = [opening] ∧ IsOpening ends ids side opening) ∧
      ∀ id s, t.held ends side id = some s → id = ids.get side ∧ s.role = .initiator := by
  obtain ⟨before, peerKey, envelope, empty, goes, inbox, named⟩ := starts side
  generalize result : Except.ok envelope = o at goes
  generalize after : t.view.get side = left at goes
  cases goes.holds Endpoint.initiate_opening with
  | failed error => cases result
  | opened ephemeral id created s k drawn initiated =>
      obtain rfl := Except.ok.inj result
      obtain ⟨is, fileKey, _⟩ := Session.initiate_ok initiated
      refine ⟨⟨_, inbox, k, ?_⟩, fun other u found => ?_⟩
      · rw [← named]
      · rw [held, after] at found
        rcases StoreView.filed_put_cases found with ⟨rfl, same⟩ | there
        · have numbered : u.id = other := congrArg SessionKey.id same
          exact ⟨numbered.symm.trans named, is.role⟩
        · rw [empty] at there
          cases there

theorem Starts.superseding (starts : Starts ends ids t) (side : SessionRole) :
    Superseding ends ids t side := by
  obtain ⟨⟨opening, inbox, isOpening⟩, _⟩ := starts.opened side.other
  rw [SessionRole.other_other] at inbox
  exact .waits opening [] isOpening inbox fun _ none => nomatch none

theorem Starts.declining (starts : Starts ends ids t) (side : SessionRole) : Declining ends ids t side := by
  obtain ⟨⟨theirs, here, isTheirs⟩, _⟩ := starts.opened side.other
  obtain ⟨⟨ours, there, isOurs⟩, waiting⟩ := starts.opened side
  rw [SessionRole.other_other] at here
  refine ⟨?_, waiting, fun _ _ => .inl ⟨ours, ?_, isOurs⟩⟩
  · intro e member
    rw [here] at member
    obtain rfl := List.mem_singleton.mp member
    exact .opening _ isTheirs
  · rw [there]
    exact List.mem_cons_self

structure Ended (ends : Both Endpoint) (ids : Both SessionId) (t : Crossing) : Prop where
  /-- There is no session of which the sides have the two ends. -/
  apart : ∀ id a b, t.held ends .initiator id = some a → t.held ends .responder id = some b →
    b.role ≠ a.role.other
  /-- Unless they have drawn one number, neither side has a session at all. -/
  gone : ids.initiator ≠ ids.responder → ∀ side id, t.held ends side id = none

theorem Superseding.ended (phases : ∀ side, Superseding ends ids t side)
    (quiet : ∀ side, t.inbox.get side = []) : Ended ends ids t := by
  have answering (side : SessionRole) : Answering ends ids t side := by
    cases phases side with
    | waits opening rest _ first _ =>
        rw [quiet] at first
        cases first
    | heard answering => exact answering
  refine ⟨fun id a b heldA heldB => ?_, fun differ side => (answering side).gone differ quiet⟩
  rw [((answering .initiator).sessions id a heldA).2, ((answering .responder).sessions id b heldB).2]
  exact nofun

theorem Declining.ended (phases : ∀ side, Declining ends ids t side)
    (quiet : ∀ side, t.inbox.get side = []) : Ended ends ids t := by
  have none (side : SessionRole) : ∀ id, t.held ends side id = none := (phases side).gone trivial quiet
  refine ⟨fun id a b heldA => ?_, fun _ => none⟩
  rw [none] at heldA
  cases heldA

/-- Two sides that open sessions with each other at the same time are left without one that they
share, in whatever order they hear of each other. -/
theorem crossing_ends {u : Crossing} (enabled : ∀ side, (ends.get side).policy.enabled = true)
    (starts : Starts ends ids t) (run : Run ends t u) (quiet : ∀ side, u.inbox.get side = []) :
    Ended ends ids u := by
  have same (side : SessionRole) : (ends.get side).policy.versions.negotiate
      (ends.get side.other).policy.versions =
        ends.initiator.policy.versions.negotiate ends.responder.policy.versions := by
    cases side with
    | initiator => rfl
    | responder => exact VersionRange.negotiate_comm _ _
  cases negotiated : ends.initiator.policy.versions.negotiate ends.responder.policy.versions with
  | some version =>
      have phases := run.keeps starts.superseding fun step =>
        step.superseding enabled fun side => (same side).trans negotiated
      exact Superseding.ended phases quiet
  | none =>
      have phases := run.keeps starts.declining fun step =>
        step.declining enabled fun side => (same side).trans negotiated
      exact Declining.ended phases quiet

end Ends

section Example

open Traffic (pair)

def numbers : Both SessionId := ⟨Block.zero 16, Block.ofNat 16 1⟩

def numbered (id : SessionId) : Host Unit where
  call := (Host.plain Setting.peerKey).call
  storeFault := (Host.plain Setting.peerKey).storeFault
  draw
    | .sessionId, _ => (id, ())
    | other, w => (Host.plain Setting.peerKey).draw other w
  now := (Host.plain Setting.peerKey).now

/-- What the other side takes for the key of a side. -/
def lasting (side : SessionRole) : Key := (pair.get side).suite.publicKey (pair.get side).secret

def opening (side : SessionRole) : Except ProcessError Envelope × EndpointState :=
  (Talk.state .empty).outcomeAt .plain (numbered (numbers.get side))
    ((pair.get side).initiate (pair.get side.other).identity (lasting side.other))

def greeting (side : SessionRole) : Envelope :=
  ⟨numbers.get side, .init .supported Setting.peerKey⟩

/-- Two endpoints as they run, and what is on its way to each. -/
structure CrossingStates where
  state : Both EndpointState
  inbox : Both (List Envelope)

namespace CrossingStates

def crossing (t : CrossingStates) : Crossing :=
  ⟨⟨t.state.initiator.view, t.state.responder.view⟩, t.inbox⟩

def crossed : CrossingStates :=
  ⟨⟨(opening .initiator).2, (opening .responder).2⟩, ⟨[greeting .responder], [greeting .initiator]⟩⟩

def hear (t : CrossingStates) (side : SessionRole) : CrossingStates :=
  match t.inbox.get side with
  | [] => t
  | envelope :: rest =>
    let o := EndpointState.plainOutcome
      ((pair.get side).receive (Traffic.outer side) (lasting side.other) envelope) (t.state.get side)
    let news := (o.2.sent.drop (t.state.get side).sent.length).map Prod.snd
    ⟨t.state.set side o.2, (t.inbox.set side rest).set side.other (t.inbox.get side.other ++ news)⟩

def settled : CrossingStates :=
  [.initiator, .responder, .initiator, .responder, .initiator, .responder].foldl hear crossed

theorem starts_crossed : Starts pair numbers crossed.crossing := by
  have serves (id : SessionId) : (numbered id).Serves fun _ => True :=
    ⟨fun _ _ => rfl, fun _ _ _ => rfl, fun _ => trivial⟩
  intro side
  have greets : (opening side).1 = .ok (greeting side) := by
    cases side <;> exact ok_of_toOption (by decide +kernel)
  have goes := EndpointState.view_meets_at .plain (serves (numbers.get side)) ((pair.get side).initiate
    (pair.get side.other).identity (lasting side.other)) (Talk.state .empty) fun _ _ works => works
  rw [show (EndpointState.outcomeAt _ _ _ _).1 = _ from greets] at goes
  refine ⟨(Talk.state .empty).view, lasting side.other, greeting side, fun _ => rfl, ?_, ?_, ?_⟩
  · cases side <;> exact goes
  · cases side <;> rfl
  · rfl

theorem run_hear {t : Crossing} {b : CrossingStates} (run : Run pair t b.crossing) (side : SessionRole) :
    Run pair t (b.hear side).crossing := by
  unfold hear
  cases inbox : b.inbox.get side with
  | nil => exact run
  | cons envelope rest =>
      have there : b.crossing.view.get side = (b.state.get side).view := by cases side <;> rfl
      have goes : StoreView.Goes Exchange.works ((pair.get side).receive (Traffic.outer side)
          (lasting side.other) envelope) (b.state.get side).view _ _ :=
        EndpointState.view_goes .plain Setting.peerKey _ (b.state.get side) fun _ works => works
      have sent := goes.sent_grows
      rw [← there] at goes sent
      have step := Step.hears b.crossing side envelope rest _ _ _ _ _ inbox rfl goes sent
      cases side with
      | initiator => exact .snoc run step
      | responder => exact .snoc run step

theorem run_foldl_hear (sides : List SessionRole) {t : Crossing} : ∀ {b : CrossingStates},
    Run pair t b.crossing → Run pair t (sides.foldl hear b).crossing := by
  induction sides with
  | nil => exact fun run => run
  | cons side sides ih => exact fun run => ih (run_hear run side)

theorem settled_quiet (side : SessionRole) : settled.inbox.get side = [] := by
  rw [← List.isEmpty_iff]
  cases side <;> decide +kernel

/-- Both have opened a session, and have no session in the end. -/
theorem crossing_ends_apart : Starts pair numbers crossed.crossing ∧
    Run pair crossed.crossing settled.crossing ∧ Ended pair numbers settled.crossing ∧
      ∀ side id, settled.crossing.held pair side id = none := by
  have run : Run pair crossed.crossing settled.crossing :=
    run_foldl_hear _ (.nil _)
  have enabled : ∀ side, (pair.get side).policy.enabled = true := by
    intro side
    cases side <;> rfl
  have ended : Ended pair numbers settled.crossing :=
    crossing_ends enabled starts_crossed run settled_quiet
  exact ⟨starts_crossed, run, ended, ended.gone (by decide)⟩

end CrossingStates

end Example

end Crossing

end SecureInbox
