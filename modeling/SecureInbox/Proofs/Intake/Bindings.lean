import Mathlib.Logic.Relation
import SecureInbox.Proofs.Intake.FiledSessions
import SecureInbox.Proofs.Intake.Recovery

/-! # For whose key a session advances

A session is bound to the key of its peer.  An endpoint hears envelopes under whatever key their
sender has at the moment, stores the sessions behind them at a later time, and opens sessions and
makes frames in between (`Act`).  A session advances when it is finished, gets its chains over four
agreements, or has a receiving chain moved (`Session.IsAheadOf`).

What an envelope brings is bound to the key it was heard under (`Brings`), with one exception: an
answer completes the session that waits for it without a look at that key.  So a session advances
for its own key, or by an answer, and then any other key would have done as well
(`advance_bound_or_answered`). -/
set_option autoImplicit false

namespace SecureInbox

namespace Session

inductive IsAheadOf (before : Option Session) (t : Session) : Prop where
  | finished (s : Session) (was : before = some s) (unfinished : s.state = .l20)
      (finished : t.state = .l40)
  | gained (r : Ratchet) (has : t.myFour = some r) (had : before.bind Session.myFour = none)
  | moved (agreement : Agreement) (r : Ratchet) (stands : t.peerRatchet agreement = some r)
      (stood : (before.bind fun s => s.peerRatchet agreement) ≠ some r)

theorem not_isAheadOf_of_eq {before : Option Session} {t : Session} (same : before = some t) :
    ¬IsAheadOf before t := by
  subst same
  intro ahead
  cases ahead with
  | finished s was unfinished finished =>
      obtain rfl := Option.some.inj was
      rw [unfinished] at finished
      cases finished
  | gained r has had =>
      rw [Option.bind_some, has] at had
      cases had
  | moved agreement r stands stood => exact stood stands

theorem not_isAheadOf_encrypt {suite : Suite} {nonce : Nonce} {plaintext : Bytes} {sealed : Protected}
    {s t : Session} (encrypted : s.encrypt suite nonce plaintext = .ok (sealed, t)) :
    ¬IsAheadOf (some s) t := by
  obtain ⟨same, _, chains⟩ := encrypt_ok encrypted
  intro ahead
  cases ahead with
  | finished u was unfinished finished =>
      obtain rfl := Option.some.inj was
      rw [same, unfinished] at finished
      cases finished
  | gained r has had =>
      rw [Option.bind_some] at had
      rcases chains with ⟨_, none, _⟩ | ⟨some, _⟩
      · rw [has] at none
        cases none
      · rw [had] at some
        cases some
  | moved agreement r stands stood =>
      rw [same] at stands
      cases agreement <;> exact stood stands

theorem not_isAheadOf_initiate {suite : Suite} {secret ephemeral : Key} {id : SessionId}
    {mine peer : String} {peerKey key : Key} {version : Version} {created : Instant} {t : Session}
    (opened : initiate suite secret ephemeral id mine peer peerKey version created = .ok (t, key))
    (before : Option Session) : ¬IsAheadOf before t := by
  obtain ⟨is, _⟩ := initiate_ok opened
  intro ahead
  cases ahead with
  | finished s was unfinished finished =>
      rw [is.state] at finished
      cases finished
  | gained r has had =>
      have none := is.myFour
      rw [has] at none
      cases none
  | moved agreement r stands stood =>
      rw [is.peerRatchet_none] at stands
      cases stands

theorem respond_peerKey {suite : Suite} {secret ephemeral : Key} {id : SessionId}
    {mine peer : String} {peerKey peerEphemeral key : Key} {version : Version} {created : Instant}
    {t : Session}
    (answered : respond suite secret ephemeral id mine peer peerKey peerEphemeral version created =
      .ok (t, key)) : t.peerKey = peerKey := by
  obtain ⟨ss, _, answered⟩ := exists_of_bind_ok answered
  obtain ⟨se, _, answered⟩ := exists_of_bind_ok answered
  obtain ⟨es, _, answered⟩ := exists_of_bind_ok answered
  obtain ⟨ee, _, answered⟩ := exists_of_bind_ok answered
  cases answered
  rfl

end Session

namespace Endpoint

/-! ## What an envelope brings -/

/-- Where a session comes from that is filed after an envelope was heard. -/
inductive Brings (e : Endpoint) (outer : Message) (senderKey : Key) (envelope : Envelope) (r : StoreView)
    (key : SessionKey) (t : Session) : Prop where
  | there (found : r.filed key = some t)
  | bound (bound : t.peerKey = senderKey)
  /-- The session waited for this answer. -/
  | answered (offered : VersionRange) (peerEphemeral : Key) (version : Version) (s : Session)
      (isAccept : envelope.frame = .accept offered peerEphemeral)
      (place : key = e.sessionKey outer.sender envelope.session) (found : r.filed key = some s)
      (accepted : s.accept e.suite e.secret peerEphemeral version = .ok t)

section Hearing

variable {e : Endpoint} {helps : Exchange → Prop} {r u : StoreView} {outer : Message} {senderKey : Key}
  {envelope : Envelope} {o : Except ProcessError Received}

def Binds (e : Endpoint) (outer : Message) (senderKey : Key) (envelope : Envelope) (r u : StoreView)
    (o : Except ProcessError Received) : Prop :=
  (∀ key t, u.filed key = some t → e.Brings outer senderKey envelope r key t) ∧
    ∀ t ∈ Conduct.pending o, t.peerKey = senderKey

theorem binds_kept (kept : ∀ key t, u.filed key = some t → r.filed key = some t)
    (nothing : Conduct.pending o = []) : e.Binds outer senderKey envelope r u o := by
  refine ⟨fun key t found => .there (kept key t found), ?_⟩
  rw [nothing]
  exact fun _ member => nomatch member

theorem binds_put {t : Session} (bound : t.peerKey = senderKey)
    (kept : ∀ key s, u.filed key = some s → r.filed key = some s)
    (nothing : Conduct.pending o = []) : e.Binds outer senderKey envelope r (u.put t) o := by
  refine ⟨fun key s found => ?_, ?_⟩
  · rcases StoreView.filed_put_cases found with ⟨rfl, _⟩ | there
    · exact .bound bound
    · exact .there (kept key s there)
  · rw [nothing]
    exact fun _ member => nomatch member

/-- Without one session. -/
theorem filed_erase_some {gone key : SessionKey} {t : Session}
    (found : (r.erase gone).filed key = some t) : r.filed key = some t :=
  StoreView.filed_without_some found

theorem binds_answering {id : SessionId} {offered : VersionRange} {peerEphemeral : Key}
    (answering : e.Answering outer.sender senderKey id offered peerEphemeral r u o) :
    e.Binds outer senderKey ⟨id, .init offered peerEphemeral⟩ r u o := by
  have erased : ∀ key s, (r.erasePair e.identity.text outer.sender.text).filed key = some s →
      r.filed key = some s := fun key s found => StoreView.filed_without_some found
  cases answering with
  | failed error => exact binds_kept (fun _ _ found => found) rfl
  | declined none => exact binds_kept (fun _ _ found => found) rfl
  | cleared error => exact binds_kept erased rfl
  | unsent version ephemeral created s key negotiated responded error =>
      exact binds_put (Session.respond_peerKey responded) erased rfl
  | answered version ephemeral created s key negotiated responded =>
      exact binds_put (Session.respond_peerKey responded) erased rfl

theorem binds_completing {id : SessionId} {offered : VersionRange} {peerEphemeral : Key}
    (completing : e.Completing outer.sender id offered peerEphemeral r u o) :
    e.Binds outer senderKey ⟨id, .accept offered peerEphemeral⟩ r u o := by
  cases completing with
  | failed error => exact binds_kept (fun _ _ found => found) rfl
  | unknown gone => exact binds_kept (fun _ _ found => found) rfl
  | ignored s found ready => exact binds_kept (fun _ _ found => found) rfl
  | undone s found waiting error => exact binds_kept (fun _ _ => filed_erase_some) rfl
  | declined s found waiting none => exact binds_kept (fun _ _ left => filed_erase_some left) rfl
  | completed version s t found negotiated accepted =>
      refine ⟨fun key v filed => ?_, fun _ member => nomatch member⟩
      rcases StoreView.filed_put_cases filed with ⟨rfl, own⟩ | there
      · obtain ⟨_, _, out, back, same⟩ := Session.accept_ok accepted
        have place : key = e.sessionKey outer.sender id := by
          rw [← own, same]
          exact r.own _ s found
        exact .answered offered peerEphemeral version s rfl place (place ▸ found) accepted
      · exact .there there

theorem binds_receipt {id : SessionId} {content : Encapsulated}
    (receipt : e.Receipt helps outer senderKey id content r u o) :
    e.Binds outer senderKey ⟨id, .encapsulated content⟩ r u o := by
  have behind : ∀ {s t : Session} {plaintext : Bytes},
      e.Authentic senderKey content s plaintext t → t.peerKey = senderKey := by
    intro s t plaintext authentic
    rw [(Session.decrypt_spends authentic.decrypted).peerKey]
    exact beq_iff_eq.mp authentic.bound
  cases receipt with
  | broken call error admitted => exact binds_kept (fun _ _ found => found) rfl
  | unsent left reason envelope error cause admitted =>
      rcases cause with ⟨_, rfl⟩ | ⟨_, rfl⟩
      · exact binds_kept (fun _ _ found => found) rfl
      · exact binds_kept (fun _ _ => filed_erase_some) rfl
  | unknown gone => exact binds_kept (fun _ _ found => found) rfl
  | refused s refusal found why => exact binds_kept (fun _ _ left => filed_erase_some left) rfl
  | early s found known early => exact binds_kept (fun _ _ found => found) rfl
  | unread s t plaintext fault found authentic unread =>
      exact binds_put (behind authentic) (fun _ _ found => found) rfl
  | opened s t plaintext inner found authentic read =>
      refine ⟨fun key v filed => .there filed, fun v member => ?_⟩
      obtain rfl := List.mem_singleton.mp member
      exact behind authentic

theorem binds_dismissing (dismissing : Dismissing r outer envelope u o) :
    e.Binds outer senderKey envelope r u o := by
  cases dismissing with
  | unsent error => exact binds_kept (fun _ _ found => found) rfl
  | ended => exact binds_kept (fun _ _ found => found) rfl
  | rejected result what =>
      refine binds_kept (fun _ _ found => found) ?_
      rcases what with rfl | rfl <;> rfl

theorem receive_binds : (e.receive outer senderKey envelope).Obeys (StoreView.rules helps) r
    (e.Binds outer senderKey envelope r) := by
  refine receive_hearing.mono ?_
  intro u o hearing
  cases hearing with
  | dismissed disabled dismissing => exact binds_dismissing dismissing
  | answered enabled answering => exact binds_answering answering
  | completed enabled completing => exact binds_completing completing
  | read enabled receipt => exact binds_receipt receipt
  | ended isEnd => exact binds_kept (fun _ _ => filed_erase_some) rfl
  | unended isEnd call error admitted => exact binds_kept (fun _ _ found => found) rfl

end Hearing

/-! ## Opening sessions and making frames

Neither makes a session advance. -/

section Making

variable {e : Endpoint} {helps : Exchange → Prop} {r left : StoreView} {peer : Identity} {peerKey : Key}
  {message : Message} {o : Except ProcessError Envelope} {key : SessionKey} {t : Session}

theorem initiate_not_isAheadOf (goes : StoreView.Goes helps (e.initiate peer peerKey) r o left)
    (filed : left.filed key = some t) : ¬t.IsAheadOf (r.filed key) := by
  cases goes.holds initiate_opening with
  | failed error => exact Session.not_isAheadOf_of_eq filed
  | opened ephemeral id created s ephemeralKey drawn initiated =>
      rcases StoreView.filed_put_cases filed with ⟨rfl, _⟩ | there
      · exact Session.not_isAheadOf_initiate initiated _
      · exact Session.not_isAheadOf_of_eq there

theorem encapsulate_not_isAheadOf (goes : StoreView.Goes helps (e.encapsulate peer message) r o left)
    (filed : left.filed key = some t) : ¬t.IsAheadOf (r.filed key) := by
  cases goes.holds encapsulate_framing with
  | failed error => exact Session.not_isAheadOf_of_eq filed
  | framed s u nonce plaintext sealed group found ofPair encrypted =>
      rcases StoreView.filed_put_cases filed with ⟨rfl, own⟩ | there
      · have keyed : t.fileKey = s.fileKey := by
          rw [(Session.encrypt_ok encrypted).1]
          rfl
        rw [← own, keyed, found]
        exact Session.not_isAheadOf_encrypt encrypted
      · exact Session.not_isAheadOf_of_eq there

end Making

/-! ## Over a run -/

/-- What an endpoint has stored, and the sessions that are still to be stored, each with the key
that the frame before it was heard under. -/
structure Holding where
  view : StoreView
  held : List (Session × Key)

inductive Act where
  | hear (outer : Message) (senderKey : Key) (envelope : Envelope)
  | store (session : Session) (senderKey : Key)
  | initiate (peer : Identity) (peerKey : Key)
  | encapsulate (peer : Identity) (message : Message)

namespace Act

def senderKey? : Act → Option Key
  | .hear _ senderKey _ => some senderKey
  | .store _ senderKey => some senderKey
  | _ => none

def under (other : Key) : Act → Act
  | .hear outer _ envelope => .hear outer other envelope
  | act => act

def isAnswer : Act → Bool
  | .hear _ _ ⟨_, .accept _ _⟩ => true
  | _ => false

/-- Stores and transport may fail at any place of an act. -/
inductive Does (e : Endpoint) : Act → Holding → Holding → Prop where
  | hear {h : Holding} {outer : Message} {senderKey : Key} {envelope : Envelope}
      {o : Except ProcessError Received} {left : StoreView}
      (goes : StoreView.Goes (fun _ => True) (e.receive outer senderKey envelope) h.view o left) :
      Does e (.hear outer senderKey envelope) h
        ⟨left, (Conduct.pending o).map (·, senderKey) ++ h.held⟩
  | store {h : Holding} {session : Session} {senderKey : Key} {o : Except ProcessError Unit}
      {left : StoreView} (held : (session, senderKey) ∈ h.held)
      (goes : StoreView.Goes (fun _ => True) (e.commit session) h.view o left) :
      Does e (.store session senderKey) h ⟨left, h.held⟩
  | initiate {h : Holding} {peer : Identity} {peerKey : Key} {o : Except ProcessError Envelope}
      {left : StoreView} (goes : StoreView.Goes (fun _ => True) (e.initiate peer peerKey) h.view o left) :
      Does e (.initiate peer peerKey) h ⟨left, h.held⟩
  | encapsulate {h : Holding} {peer : Identity} {message : Message}
      {o : Except ProcessError Envelope} {left : StoreView}
      (goes : StoreView.Goes (fun _ => True) (e.encapsulate peer message) h.view o left) :
      Does e (.encapsulate peer message) h ⟨left, h.held⟩

end Act

def Runs (e : Endpoint) : Holding → Holding → Prop :=
  Relation.ReflTransGen fun h k => ∃ act, Act.Does e act h k

def Holding.Bound (h : Holding) : Prop := ∀ t key, (t, key) ∈ h.held → t.peerKey = key

variable {e : Endpoint} {h k : Holding}

theorem Act.Does.bound {act : Act} (does : act.Does e h k) (bound : h.Bound) : k.Bound := by
  cases does with
  | hear goes =>
      intro t key member
      rcases List.mem_append.mp member with new | old
      · obtain ⟨s, pending, same⟩ := List.mem_map.mp new
        obtain ⟨rfl, rfl⟩ := Prod.mk.inj same
        exact (goes.holds receive_binds).2 s pending
      · exact bound t key old
  | store held goes => exact bound
  | initiate goes => exact bound
  | encapsulate goes => exact bound

theorem Runs.bound {r : StoreView} (runs : e.Runs ⟨r, []⟩ h) : h.Bound := by
  induction runs with
  | refl => exact fun _ _ member => nomatch member
  | tail _ step ih =>
      obtain ⟨act, does⟩ := step
      exact does.bound ih

/-- An answer is heard in the same way under any key. -/
theorem Act.Does.under {act : Act} (does : act.Does e h k) (isAnswer : act.isAnswer = true)
    (other : Key) : (act.under other).Does e h k := by
  cases does with
  | @hear _ outer senderKey envelope o left goes =>
      obtain ⟨id, frame⟩ := envelope
      cases frame with
      | accept offered peerEphemeral =>
          have nothing := (goes.holds receive_accept_rests).2
          rw [nothing]
          have same : Act.Does e (.hear outer other ⟨id, .accept offered peerEphemeral⟩) h
              ⟨left, (Conduct.pending o).map (·, other) ++ h.held⟩ := .hear goes
          rw [nothing] at same
          exact same
      | _ => cases isAnswer
  | _ => cases isAnswer

/-- Whatever an endpoint has done, and however the keys of its peers have changed: when an act
leaves a session that has advanced, the envelope that it is about was heard under the key of the
session, or it is an answer; then the session had waited for it, and the act is possible under
every other key as well. -/
theorem advance_bound_or_answered (e : Endpoint) (r : StoreView) (h k : Holding) (act : Act)
    (runs : e.Runs ⟨r, []⟩ h) (does : act.Does e h k) (key : SessionKey) (t : Session)
    (filed : k.view.filed key = some t) (ahead : t.IsAheadOf (h.view.filed key)) :
    act.senderKey? = some t.peerKey ∨
      act.isAnswer = true ∧ (∀ other, (act.under other).Does e h k) ∧
        ∃ s, h.view.filed key = some s ∧ s.role = .initiator ∧ s.state = .l20 ∧ t.state = .l40 ∧
          t.peerKey = s.peerKey := by
  have unchanged : h.view.filed key ≠ some t := fun same => Session.not_isAheadOf_of_eq same ahead
  cases act with
  | hear outer senderKey envelope =>
      have again : (Act.hear outer senderKey envelope).isAnswer = true →
          ∀ other, ((Act.hear outer senderKey envelope).under other).Does e h k := does.under
      cases does with
      | hear goes =>
          cases (goes.holds receive_binds).1 key t filed with
          | there found => exact (unchanged found).elim
          | bound bound => exact .inl (congrArg some bound.symm)
          | answered offered peerEphemeral version s isAccept place found accepted =>
              obtain ⟨id, frame⟩ := envelope
              obtain rfl : frame = .accept offered peerEphemeral := isAccept
              obtain ⟨role, state, out, back, same⟩ := Session.accept_ok accepted
              exact .inr ⟨rfl, again rfl, s, found, role, state, by rw [same], by rw [same]⟩
  | store session senderKey =>
      cases does with
      | store held goes =>
          rcases goes.holds commit_view with ⟨_, rfl⟩ | ⟨_, _, _, _, rfl⟩
          · rcases StoreView.filed_put_cases filed with ⟨rfl, _⟩ | there
            · exact .inl (congrArg some (runs.bound t senderKey held).symm)
            · exact (unchanged there).elim
          · exact (unchanged filed).elim
  | initiate peer peerKey =>
      cases does with
      | initiate goes => exact (initiate_not_isAheadOf goes filed ahead).elim
  | encapsulate peer message =>
      cases does with
      | encapsulate goes => exact (encapsulate_not_isAheadOf goes filed ahead).elim

section Example

/-- The answer to the session that we opened, heard under a key that is not the peer's. -/
def misheard : Act :=
  .hear (Setting.message .contactDeletePhoto) (Block.ofNat 32 99)
    ⟨Block.zero 16, .accept .supported (Block.ofNat 32 4)⟩

def afterMisheard : EndpointState :=
  (EndpointState.plainOutcome (ours.receive (Setting.message .contactDeletePhoto) (Block.ofNat 32 99)
    ⟨Block.zero 16, .accept .supported (Block.ofNat 32 4)⟩) opened).2

/-- It finishes a session that is bound to the peer's key. -/
theorem advance_misheard :
    ∃ left key t, misheard.Does ours ⟨opened.view, []⟩ left ∧ left.view.filed key = some t ∧
      t.IsAheadOf (opened.view.filed key) ∧ misheard.senderKey? ≠ some t.peerKey ∧
      (misheard.under t.peerKey).Does ours ⟨opened.view, []⟩ left := by
  let key := ours.sessionKey Setting.peer (Block.zero 16)
  have moved : (do
      let s ← opened.view.filed key
      let t ← afterMisheard.view.filed key
      return decide (s.state = .l20 ∧ t.state = .l40 ∧ t.peerKey = Setting.peerKey)) = some true := by
    decide +kernel
  obtain ⟨s, found, moved⟩ := Option.bind_eq_some_iff.mp moved
  obtain ⟨t, after, moved⟩ := Option.bind_eq_some_iff.mp moved
  obtain ⟨unfinished, finished, bound⟩ := of_decide_eq_true (Option.some.inj moved)
  have unlike : misheard.senderKey? ≠ some t.peerKey := by
    rw [bound]
    decide
  have ahead : t.IsAheadOf (opened.view.filed key) := .finished s found unfinished finished
  have does : misheard.Does ours ⟨opened.view, []⟩ _ := .hear (EndpointState.plain_goes _ opened)
  have answered := (advance_bound_or_answered ours opened.view ⟨opened.view, []⟩ _ misheard .refl does
    key t after ahead).resolve_left unlike
  exact ⟨_, key, t, does, after, ahead, unlike, answered.2.1 t.peerKey⟩

end Example

end Endpoint

end SecureInbox
