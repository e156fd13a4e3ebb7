import SecureInbox.Proofs.Intake.Conduct
import SecureInbox.Proofs.Session.Shape
import SecureInbox.Proofs.Session.Version

/-! # The sessions that an endpoint keeps

An endpoint is called to open sessions, to take envelopes from anyone and to put messages
into frames, and each of these may fail at any place.  `Origin` says where a session comes
from that is filed after a call: it was there, or it is made or moved on by what the call is
for (`Does.origin`).

So every session that is ever filed is one of ours under its own key, is in one of the four
shapes, and speaks a version that we know; and only a peer's opening frame puts an unfinished
session where a finished one was (`sessions_in_shape`). -/
set_option autoImplicit false

namespace SecureInbox

inductive EndpointCall where
  | initiate (peer : Identity) (peerKey : Key)
  | take (outer : Message) (senderKey : Key) (envelope : Envelope)
  | encapsulate (peer : Identity) (message : Message)

def EndpointCall.isInit : EndpointCall → Bool
  | .take _ _ ⟨_, .init _ _⟩ => true
  | _ => false

/-- Whether an identifier that is drawn is none of a session that is there. -/
def StoreView.Fresh (r : StoreView) : Exchange → Prop
  | ⟨.draw .sessionId, id⟩ => ∀ key s, r.filed key = some s → key.id ≠ id
  | _ => True

def Request.drawsId : Request → Bool
  | .draw .sessionId => true
  | _ => false

theorem StoreView.fresh_of_drawsId (r : StoreView) {x : Exchange} (other : x.request.drawsId = false) :
    r.Fresh x := by
  obtain ⟨request, answer⟩ := x
  cases request with
  | draw d =>
      cases d with
      | sessionId => cases other
      | _ => trivial
  | _ => trivial

namespace Endpoint

section Calls

variable (e : Endpoint) (helps : Exchange → Prop) (r : StoreView)

inductive Does : EndpointCall → StoreView → Prop where
  | initiate {peer : Identity} {peerKey : Key} {o : Except ProcessError Envelope} {left : StoreView}
      (goes : StoreView.Goes helps (e.initiate peer peerKey) r o left) :
      Does (.initiate peer peerKey) left
  | take {outer : Message} {senderKey : Key} {envelope : Envelope} {o : Except ProcessError Received}
      {left : StoreView} (goes : StoreView.Goes helps (e.take outer senderKey envelope) r o left) :
      Does (.take outer senderKey envelope) left
  | encapsulate {peer : Identity} {message : Message} {o : Except ProcessError Envelope}
      {left : StoreView}
      (goes : StoreView.Goes helps (e.encapsulate peer message) r o left) :
      Does (.encapsulate peer message) left

inductive Origin : EndpointCall → Session → Prop where
  | there (call : EndpointCall) (t : Session) (found : r.filed t.fileKey = some t) : Origin call t
  | opened (peer : Identity) (peerKey ephemeral : Key) (id : SessionId) (created : Instant)
      (t : Session) (key : Key) (drawn : helps ⟨.draw .sessionId, id⟩)
      (initiated : Session.initiate e.suite e.secret ephemeral id e.identity.text peer.text peerKey
        e.policy.versions.max created = .ok (t, key)) :
      Origin (.initiate peer peerKey) t
  | answered (outer : Message) (senderKey : Key) (envelope : SessionId) (offered : VersionRange)
      (peerEphemeral : Key) (version : Version) (ephemeral : Key) (id : SessionId) (peer : String)
      (peerKey : Key) (created : Instant) (t : Session) (key : Key)
      (negotiated : e.policy.versions.negotiate offered = some version)
      (responded : Session.respond e.suite e.secret ephemeral id e.identity.text peer peerKey
        peerEphemeral version created = .ok (t, key)) :
      Origin (.take outer senderKey ⟨envelope, .init offered peerEphemeral⟩) t
  | completed (outer : Message) (senderKey : Key) (envelope : SessionId) (offered : VersionRange)
      (peerEphemeral : Key) (version : Version) (s t : Session)
      (found : r.filed s.fileKey = some s)
      (negotiated : e.policy.versions.negotiate offered = some version)
      (accepted : s.accept e.suite e.secret peerEphemeral version = .ok t) :
      Origin (.take outer senderKey ⟨envelope, .accept offered peerEphemeral⟩) t
  | read (outer : Message) (senderKey : Key) (envelope : SessionId) (content : Encapsulated)
      (peerKey : Key) (s t : Session) (plaintext : Bytes) (found : r.filed s.fileKey = some s)
      (authentic : e.Authentic peerKey content s plaintext t) :
      Origin (.take outer senderKey ⟨envelope, .encapsulated content⟩) t
  | framed (peer : Identity) (message : Message) (s t : Session) (nonce : Nonce) (plaintext : Bytes)
      (sealed : Session.Protected) (found : r.filed s.fileKey = some s)
      (encrypted : s.encrypt e.suite nonce plaintext = .ok (sealed, t)) :
      Origin (.encapsulate peer message) t

end Calls

variable {e : Endpoint} {helps : Exchange → Prop} {r left : StoreView} {call : EndpointCall}

/-! ## Where sessions come from -/

def origins (e : Endpoint) (helps : Exchange → Prop) (r : StoreView) (call : EndpointCall) : Conduct where
  session := Origin e helps r call
  hears frame := ∃ outer senderKey id, call = .take outer senderKey ⟨id, frame⟩
  tells _ := True

theorem origins_keeps (e : Endpoint) (helps : Exchange → Prop) (r : StoreView) (call : EndpointCall) :
    (origins e helps r call).Keeps r := by
  refine ⟨fun key s found => .there call s ?_, fun _ _ => trivial⟩
  rw [r.own key s found]
  exact found

theorem origins_sound (e : Endpoint) (helps : Exchange → Prop) (r : StoreView) (call : EndpointCall) :
    (origins e helps r call).SoundAt e r where
  rejects _ _ := trivial
  terminates _ := trivial
  opens := by
    rintro _ _ s plaintext t ⟨outer, senderKey, id, rfl⟩ found authentic
    exact .read outer senderKey id _ _ s t plaintext found authentic
  answers := by
    rintro _ _ version ephemeral _ peer peerKey created s key ⟨outer, senderKey, id, rfl⟩ negotiated
      responded
    exact ⟨.answered outer senderKey id _ _ version ephemeral _ peer peerKey created s key negotiated
      responded, trivial⟩
  completes := by
    rintro _ _ version s t ⟨outer, senderKey, id, rfl⟩ negotiated found accepted
    exact .completed outer senderKey id _ _ version s t found negotiated accepted

/-- A frame that is taken leaves what it leaves when it is heard, or the session of it stored. -/
theorem take_view {outer : Message} {senderKey : Key} {envelope : Envelope} (post : StoreView → Prop)
    (hears : (e.receive outer senderKey envelope).Obeys (StoreView.rules helps) r fun u o =>
      post u ∧ ∀ s ∈ Conduct.pending o, post (u.put s)) :
    (e.take outer senderKey envelope).Obeys (StoreView.rules helps) r fun u _ => post u := by
  unfold take
  rw [Intake.obeys_bind]
  refine hears.mono ?_
  rintro u o ⟨held, stored⟩
  cases o with
  | error error => exact held
  | ok received =>
      obtain ⟨inner, session, pending⟩ := received
      cases pending with
      | none => exact held
      | some s =>
          refine (Intake.obeys_bind _ _ _ _ _).mpr (commit_view.mono ?_)
          rintro v o (⟨rfl, rfl⟩ | ⟨call, error, _, rfl, rfl⟩)
          · exact stored s (List.mem_singleton_self s)
          · exact held

/-- Whatever a call does, the sessions that are filed after it have an origin. -/
theorem Does.origin (does : e.Does helps r call left) {key : SessionKey} {t : Session}
    (found : left.filed key = some t) : e.Origin helps r call t := by
  -- To have an origin is a conduct, so that the frames need not be gone through once more.
  suffices keeps : (origins e helps r call).Keeps left from keeps.filed key t found
  have start := origins_keeps e helps r call
  cases does with
  | initiate goes =>
      cases goes.holds initiate_opening with
      | failed error => exact start
      | opened ephemeral id created s key drawn initiated =>
          exact start.put (.opened _ _ ephemeral id created s key drawn initiated)
  | @take outer senderKey envelope o left goes =>
      refine goes.holds (take_view _ ?_)
      refine (Conduct.receive_keeps (origins_sound e helps r _) start ⟨_, _, _, rfl⟩).mono ?_
      rintro u o ⟨kept, pending⟩
      exact ⟨kept, fun s member => kept.put (pending s member)⟩
  | encapsulate goes =>
      cases goes.holds encapsulate_framing with
      | failed error => exact start
      | framed s u nonce plaintext sealed group there ofPair encrypted =>
          exact start.put (.framed _ _ s u nonce plaintext sealed there encrypted)

/-! ## What every session keeps -/

structure Filed (e : Endpoint) (key : SessionKey) (s : Session) : Prop where
  key : key = ⟨s.mine, s.peer, s.id⟩
  mine : s.mine = e.identity.text
  version : e.policy.versions.contains s.version = true
  shape : ∃ shape, s.IsOf shape

theorem Filed.next {e : Endpoint} {s t : Session} (before : e.Filed s.fileKey s)
    (same : t.fileKey = s.fileKey) (version : e.policy.versions.contains t.version = true)
    (shape : ∃ shape, t.IsOf shape) : e.Filed t.fileKey t :=
  ⟨rfl, (congrArg SessionKey.mine same).trans before.mine, version, shape⟩

variable {t : Session}

theorem Origin.filed (ordered : e.policy.versions.min ≤ e.policy.versions.max)
    (before : ∀ key s, r.filed key = some s → e.Filed key s) (origin : e.Origin helps r call t) :
    e.Filed t.fileKey t := by
  cases origin with
  | there _ t found => exact before _ t found
  | opened peer peerKey ephemeral id created t key drawn initiated =>
      obtain ⟨is, own, version⟩ := Session.initiate_ok initiated
      have known : e.policy.versions.contains t.version = true := by
        rw [version, VersionRange.contains_iff]
        exact ⟨ordered, UInt16.le_refl _⟩
      exact ⟨rfl, congrArg SessionKey.mine own, known, _, is⟩
  | answered outer senderKey envelope offered peerEphemeral version ephemeral id peer peerKey created t
      key negotiated responded =>
      obtain ⟨is, own, applied⟩ := Session.respond_ok responded
      exact ⟨rfl, congrArg SessionKey.mine own,
        applied ▸ (VersionRange.isHighest_of_negotiate negotiated).left, _, is⟩
  | completed outer senderKey envelope offered peerEphemeral version s t found negotiated accepted =>
      have filed := before _ s found
      obtain ⟨shape, is⟩ := filed.shape
      have shaped := is.accepts accepted
      obtain ⟨_, _, out, back, rfl⟩ := Session.accept_ok accepted
      exact filed.next rfl (VersionRange.isHighest_of_negotiate negotiated).left ⟨_, shaped⟩
  | read outer senderKey envelope content peerKey s t plaintext found authentic =>
      have filed := before _ s found
      obtain ⟨shape, is⟩ := filed.shape
      have spends := Session.decrypt_spends authentic.decrypted
      refine filed.next spends.fileKey (spends.version ▸ filed.version) ?_
      rcases (Session.decrypt_trial authentic.decrypted).isOf is with after | ⟨_, after⟩
      · exact ⟨_, after⟩
      · exact ⟨_, after⟩
  | framed peer message s t nonce plaintext sealed found encrypted =>
      have filed := before _ s found
      obtain ⟨shape, is⟩ := filed.shape
      have shaped := is.encrypts encrypted
      obtain ⟨same, _⟩ := Session.encrypt_ok encrypted
      rw [same] at shaped ⊢
      exact filed.next rfl filed.version ⟨_, shaped⟩

/-! ## Finished sessions -/

variable {s : Session}

/-- Where a finished session was there is none that is not, unless a peer has opened one anew. -/
theorem Origin.established (origin : e.Origin r.Fresh r call t) (notInit : call.isInit = false)
    (found : r.filed t.fileKey = some s) (state : s.state = .l40) : t.state = .l40 := by
  cases origin with
  | there _ t there =>
      obtain rfl : t = s := Option.some.inj (there.symm.trans found)
      exact state
  | opened peer peerKey ephemeral id created t key drawn initiated =>
      obtain ⟨_, own, _⟩ := Session.initiate_ok initiated
      exact (drawn _ s found (congrArg SessionKey.id own)).elim
  | answered => cases notInit
  | completed outer senderKey envelope offered peerEphemeral version u t _ _ accepted =>
      obtain ⟨_, _, out, back, rfl⟩ := Session.accept_ok accepted
      rfl
  | read outer senderKey envelope content peerKey u t plaintext there authentic =>
      have spends := Session.decrypt_spends authentic.decrypted
      rw [spends.fileKey] at found
      obtain rfl : u = s := Option.some.inj (there.symm.trans found)
      have unlike : ¬u.IsConfirmedBy content.sealed.agreement := by
        rintro ⟨_, _, unfinished⟩
        rw [state] at unfinished
        cases unfinished
      exact (spends.unconfirmed unlike).1.trans state
  | framed peer message u t nonce plaintext sealed there encrypted =>
      obtain ⟨same, _⟩ := Session.encrypt_ok encrypted
      rw [same] at found ⊢
      obtain rfl : u = s := Option.some.inj (there.symm.trans found)
      exact state

def Rests (r u : StoreView) : Prop :=
  ∀ key s, r.filed key = some s → s.state = .l40 → u.filed key = some s

theorem unlike_waiting {key waits : SessionKey} (waiting : r.filed waits = some s)
    (unfinished : s.state = .l20) (found : r.filed key = some t) (state : t.state = .l40) :
    key ≠ waits := by
  rintro rfl
  rw [waiting] at found
  obtain rfl := Option.some.inj found
  rw [unfinished] at state
  cases state

theorem Rests.put (waiting : r.filed s.fileKey = some s) (unfinished : s.state = .l20)
    (same : t.fileKey = s.fileKey) : Rests r (r.put t) := by
  intro key u found state
  rw [StoreView.filed_put, same, Function.update_of_ne (unlike_waiting waiting unfinished found state)]
  exact found

theorem Rests.erase {gone : SessionKey} (waiting : r.filed gone = some s) (unfinished : s.state = .l20) :
    Rests r (r.erase gone) := by
  intro key u found state
  rw [StoreView.filed_erase, Function.update_of_ne (unlike_waiting waiting unfinished found state)]
  exact found

/-- An answer changes no session but one that waits for it. -/
theorem receive_accept_rests {outer : Message} {senderKey : Key} {id : SessionId}
    {offered : VersionRange} {peerEphemeral : Key} :
    (e.receive outer senderKey ⟨id, .accept offered peerEphemeral⟩).Obeys (StoreView.rules helps) r
      fun u o => Rests r u ∧ Conduct.pending o = [] := by
  have start : Rests r r := fun _ _ found _ => found
  refine receive_hearing.mono ?_
  intro u o hearing
  cases hearing with
  | dismissed disabled dismissing =>
      cases dismissing with
      | unsent error => exact ⟨start, rfl⟩
      | ended => exact ⟨start, rfl⟩
      | rejected result what => rcases what with rfl | rfl <;> exact ⟨start, rfl⟩
  | completed enabled completing =>
      cases completing with
      | failed error => exact ⟨start, rfl⟩
      | unknown gone => exact ⟨start, rfl⟩
      | ignored s found ready => exact ⟨start, rfl⟩
      | undone s found waiting error => exact ⟨Rests.erase found waiting.2, rfl⟩
      | declined s found waiting none => exact ⟨Rests.erase found waiting.2, rfl⟩
      | completed version s t found negotiated accepted =>
          have own : r.filed s.fileKey = some s := (r.own _ s found).symm ▸ found
          obtain ⟨_, unfinished, out, back, same⟩ := Session.accept_ok accepted
          have keyed : t.fileKey = s.fileKey := by
            rw [same]
            rfl
          exact ⟨Rests.put own unfinished keyed, rfl⟩
  | _ => next isEnd => cases isEnd

/-! ## Over all calls -/

inductive Reachable (e : Endpoint) : StoreView → Prop where
  | empty : Reachable e .empty
  | call {r left : StoreView} {call : EndpointCall} (reachable : Reachable e r)
      (does : e.Does (fun _ => True) r call left) : Reachable e left

theorem Reachable.filed (ordered : e.policy.versions.min ≤ e.policy.versions.max)
    (reachable : e.Reachable r) : ∀ key s, r.filed key = some s → e.Filed key s := by
  induction reachable with
  | empty => exact fun _ _ found => nomatch found
  | @call r left call _ does ih =>
      intro key t found
      rw [← left.own key t found]
      exact (does.origin found).filed ordered ih

/-- Whatever calls an endpoint has had, its sessions are its own, under their own keys, of a
version that it knows and of one of the four shapes.  An answer leaves the finished ones as
they are, and no call but one with a peer's opening frame has an unfinished session in the
place of a finished one. -/
theorem sessions_in_shape (ordered : e.policy.versions.min ≤ e.policy.versions.max)
    (reachable : e.Reachable r) :
    (∀ key s, r.filed key = some s →
      key = ⟨s.mine, s.peer, s.id⟩ ∧ s.mine = e.identity.text ∧ (s.state = .l20 ∨ s.state = .l40) ∧
        e.policy.versions.contains s.version = true ∧ ∃! shape, s.IsOf shape) ∧
    (∀ outer senderKey id offered peerEphemeral left,
      e.Does (fun _ => True) r (.take outer senderKey ⟨id, .accept offered peerEphemeral⟩) left →
        ∀ key s, r.filed key = some s → s.state = .l40 → left.filed key = some s) ∧
    ∀ call left, call.isInit = false → e.Does r.Fresh r call left →
      ∀ key s t, r.filed key = some s → s.state = .l40 → left.filed key = some t →
        t.state = .l40 := by
  refine ⟨?_, ?_, ?_⟩
  · intro key s found
    obtain ⟨own, mine, version, shape, is⟩ := reachable.filed ordered key s found
    have state : s.state = .l20 ∨ s.state = .l40 := by
      rw [is.state]
      cases shape with
      | waiting => exact .inl rfl
      | completed => exact .inr rfl
      | answering => exact .inl rfl
      | established => exact .inr rfl
    exact ⟨own, mine, state, version, is.existsUnique⟩
  · intro outer senderKey id offered peerEphemeral left does
    cases does with
    | take goes =>
        refine goes.holds (take_view (Rests r) (receive_accept_rests.mono ?_))
        rintro u o ⟨rests, nothing⟩
        rw [nothing]
        exact ⟨rests, fun _ member => nomatch member⟩
  · intro call left notInit does key s t found state after
    have own := left.own key t after
    exact (does.origin after).established notInit (own.symm ▸ found) state

section Example

def ours : Endpoint := Setting.processor.endpoint

def opened : EndpointState :=
  (EndpointState.plainOutcome (ours.initiate Setting.peer Setting.peerKey) ⟨.empty, .empty, []⟩).2

def answeredBy (key : Key) (d : EndpointState) : EndpointState :=
  (EndpointState.plainOutcome (ours.take (Setting.message .contactDeletePhoto) Setting.peerKey
    ⟨Block.zero 16, .accept .supported key⟩) d).2

def finished : EndpointState := answeredBy (Block.ofNat 32 4) opened

theorem finished_reachable : ours.Reachable finished.view := by
  refine .call (r := opened.view) ?_ (.take (EndpointState.plain_goes _ opened))
  exact .call .empty (.initiate (EndpointState.plain_goes _ ⟨.empty, .empty, []⟩))

/-- A session that we opened, after the peer's answer: another answer leaves it as it is, and a
frame leaves it finished. -/
theorem sessions_in_shape_answered :
    ∃ key s t, finished.view.filed key = some s ∧ s.state = .l40 ∧ (∃! shape, s.IsOf shape) ∧
      (answeredBy (Block.ofNat 32 9) finished).view.filed key = some s ∧
      (EndpointState.plainOutcome (ours.encapsulate Setting.peer (Setting.message .contactDeletePhoto))
        finished).2.view.filed key = some t ∧ t ≠ s ∧ t.state = .l40 := by
  obtain ⟨inShape, accepts, keeps⟩ := sessions_in_shape (e := ours) (by decide) finished_reachable
  let key := ours.sessionKey Setting.peer (Block.zero 16)
  let later := (EndpointState.plainOutcome (ours.encapsulate Setting.peer
    (Setting.message .contactDeletePhoto)) finished).2
  have moved : (do
      let s ← finished.view.filed key
      let t ← later.view.filed key
      return decide (s.state = .l40 ∧ t ≠ s)) = some true := by
    decide +kernel
  obtain ⟨s, found, moved⟩ := Option.bind_eq_some_iff.mp moved
  obtain ⟨t, after, moved⟩ := Option.bind_eq_some_iff.mp moved
  obtain ⟨state, unlike⟩ := of_decide_eq_true (Option.some.inj moved)
  have answers : ours.Does (fun _ => True) finished.view
      (.take (Setting.message .contactDeletePhoto) Setting.peerKey
        ⟨Block.zero 16, .accept .supported (Block.ofNat 32 9)⟩)
      (answeredBy (Block.ofNat 32 9) finished).view := .take (EndpointState.plain_goes _ finished)
  have frames : ours.Does finished.view.Fresh finished.view
      (.encapsulate Setting.peer (Setting.message .contactDeletePhoto)) later.view := by
    refine .encapsulate (EndpointState.view_meets .plain Setting.peerKey _ finished ?_)
    have drawn : ∀ x ∈ ((ours.encapsulate Setting.peer (Setting.message .contactDeletePhoto)).run.run
        .plain (.plain Setting.peerKey) ⟨(), finished.register, .memory finished.book, none⟩).exchanges,
          x.request.drawsId = false := by
      decide +kernel
    exact fun x member _ => StoreView.fresh_of_drawsId _ (drawn x member)
  exact ⟨key, s, t, found, state, (inShape key s found).2.2.2.2,
    accepts _ _ _ _ _ _ answers key s found state, after, unlike,
    keeps _ _ rfl frames key s t found state after⟩

end Example

end Endpoint

end SecureInbox
