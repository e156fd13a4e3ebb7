import Mathlib.Data.Set.Card
import SecureInbox.Proofs.Intake.Handshake
import SecureInbox.Proofs.Intake.Traffic
import SecureInbox.Proofs.Session.Shape
import SecureInbox.Proofs.Store.Pairs

/-! # Sessions that are out of step

Two endpoints may hold any sessions with each other, of which the other one does not know, or that
the other one knows in another state.  An endpoint that refuses a frame removes the session that
the frame was for and says so, and the one who hears it removes its own
(`Recovers.refused`, `Recovers.heard`).

So each round in which a message is put into a frame, refused and the refusal heard takes one
session from the one who spoke (`Rounds.sessions`), and there are no more rounds than there were
sessions. -/
set_option autoImplicit false

namespace SecureInbox

structure StoreView.Loses (key : SessionKey) (before after : StoreView) : Prop where
  gone : after.filed key = none
  others : ∀ other, other ≠ key → after.filed other = before.filed other

theorem StoreView.loses_erase (r : StoreView) (key : SessionKey) :
    StoreView.Loses key r (r.erase key) := by
  refine ⟨?_, fun other ne => ?_⟩
  · rw [filed_erase, Function.update_self]
  · rw [filed_erase, Function.update_of_ne ne]

theorem StoreView.Loses.post {key : SessionKey} {before after : StoreView}
    (loses : StoreView.Loses key before after)
    (peer : Identity) (envelope : Envelope) : StoreView.Loses key before (after.post peer envelope) :=
  ⟨loses.gone, loses.others⟩

namespace Endpoint

variable {a b e : Endpoint} {helps : Exchange → Prop} {r : StoreView}

/-- The end of a session is heard, or a store fails. -/
theorem receive_end (enabled : e.policy.enabled = true) {outer : Message} {senderKey : Key}
    {id : SessionId} {frame : Frame} (isEnd : frame.isEnd = true) :
    (e.receive outer senderKey ⟨id, frame⟩).Obeys (StoreView.rules helps) r fun u o =>
      u = r.erase (e.sessionKey outer.sender id) ∧ o = .ok (.control (.gone id)) ∨
        ∃ call error, helps ⟨.store call, .error error⟩ ∧ u = r ∧ o = .error (.store error) := by
  refine receive_hearing.mono ?_
  intro u o hearing
  cases hearing with
  | dismissed disabled dismissing =>
      rw [enabled] at disabled
      cases disabled
  | ended _ => exact .inl ⟨rfl, rfl⟩
  | unended _ call error helpful => exact .inr ⟨call, error, helpful, rfl, rfl⟩
  | _ => cases isEnd

/-- A frame that is refused: there is one answer to it, and its session is gone. -/
theorem receive_refused (enabled : b.policy.enabled = true) {outer : Message} {senderKey : Key}
    {id : SessionId} {content : Encapsulated} {reason : String} {left : StoreView}
    (goes : StoreView.Goes helps (b.receive outer senderKey ⟨id, .encapsulated content⟩) r
      (.error (.refused reason)) left) :
    (∃ cause, left.sent = r.sent ++ [(outer.sender, ⟨id, .reject outer.id cause⟩)]) ∧
      StoreView.Loses (b.sessionKey outer.sender id) r left := by
  rw [receive_encapsulated enabled] at goes
  generalize result : Except.error (ProcessError.refused reason) = o at goes
  cases goes.holds receiveEncapsulated_receipt with
  | unknown gone => exact ⟨⟨_, rfl⟩, StoreView.Loses.post ⟨gone, fun _ _ => rfl⟩ _ _⟩
  | refused s refusal found why => exact ⟨⟨_, rfl⟩, (r.loses_erase _).post _ _⟩
  | _ => cases result

/-- A frame of a session that is not there, while neither a store nor the transport fails. -/
theorem receive_unknown (enabled : b.policy.enabled = true) {outer : Message} {senderKey : Key}
    {id : SessionId} {content : Encapsulated} (gone : r.filed (b.sessionKey outer.sender id) = none) :
    (b.receive outer senderKey ⟨id, .encapsulated content⟩).Obeys (StoreView.rules Exchange.works) r
      fun u o => o = .error (.ofRefusal .unknownSession) ∧
        u = r.post outer.sender ⟨id, .reject outer.id .unknownSession⟩ := by
  have absent {s : Session} (found : r.filed (b.sessionKey outer.sender id) = some s) : False := by
    rw [gone] at found
    cases found
  rw [receive_encapsulated enabled]
  refine receiveEncapsulated_receipt.mono fun u o receipt => ?_
  cases receipt with
  | unknown _ => exact ⟨rfl, rfl⟩
  | broken call error impossible => cases impossible
  | unsent left reason envelope error cause impossible => cases impossible
  | refused s refusal found why => exact (absent found).elim
  | early s found known early => exact (absent found).elim
  | unread s t plaintext fault found authentic unread => exact (absent found).elim
  | opened s t plaintext inner found authentic read => exact (absent found).elim

/-! ## Rounds -/

variable (a b)

def sessions (r : StoreView) : Set SessionKey :=
  {key | key.isOfPair a.identity.text b.identity.text = true ∧ (r.filed key).isSome = true}

variable {a b}

theorem mem_sessions {key : SessionKey} : key ∈ a.sessions b r ↔
    key.isOfPair a.identity.text b.identity.text = true ∧ (r.filed key).isSome = true := Iff.rfl

/-- A message is put into a frame of a session that is there, and all sessions remain. -/
theorem sessions_encapsulate {message : Message} {id : SessionId} {frame : Frame} {left : StoreView}
    (goes : StoreView.Goes helps (a.encapsulate b.identity message) r (.ok ⟨id, frame⟩) left) :
    a.sessionKey b.identity id ∈ a.sessions b r ∧ a.sessions b left = a.sessions b r := by
  generalize result : Except.ok (⟨id, frame⟩ : Envelope) = o at goes
  cases goes.holds encapsulate_framing with
  | failed error => cases result
  | framed s t nonce plaintext sealed group found ofPair encrypted =>
      obtain ⟨same, _⟩ := Session.encrypt_ok encrypted
      have key : t.fileKey = s.fileKey := by rw [same]; rfl
      obtain ⟨rfl, _⟩ := Envelope.mk.inj (Except.ok.inj result)
      have named : a.sessionKey b.identity t.id = s.fileKey := by
        obtain ⟨mine, peer⟩ := SessionKey.isOfPair_iff.mp ofPair
        rw [← key] at mine peer ⊢
        exact SessionKey.mk.injEq .. |>.mpr ⟨mine.symm, peer.symm, rfl⟩
      refine ⟨named ▸ mem_sessions.mpr ⟨ofPair, by rw [found]; rfl⟩, Set.ext fun other => ?_⟩
      rw [mem_sessions, mem_sessions, StoreView.filed_put, key]
      by_cases here : other = s.fileKey
      · rw [here, Function.update_self, found]
        rfl
      · rw [Function.update_of_ne here]

theorem sessions_loses {key : SessionKey} {left : StoreView} (loses : StoreView.Loses key r left) :
    a.sessions b left = a.sessions b r \ {key} := by
  ext other
  rw [Set.mem_sdiff, Set.mem_singleton_iff, mem_sessions, mem_sessions]
  by_cases here : other = key
  · rw [here, loses.gone]
    simp
  · rw [loses.others other here]
    simp [here]

variable (a b)

/-- A message is put into a frame, the frame is refused and what was sent then is heard. -/
inductive Round : StoreView × StoreView → StoreView × StoreView → Prop where
  | mk {message outer carrier : Message} {keyA keyB : Key} {id : SessionId} {content : Encapsulated}
      {reason : String} {answer : Envelope} {viewA spoken heard viewB left : StoreView} {o : Received}
      (speaks : StoreView.Goes Exchange.works (a.encapsulate b.identity message) viewA
        (.ok ⟨id, .encapsulated content⟩) spoken)
      (isOuter : outer.sender = a.identity)
      (refuses : StoreView.Goes (fun _ => True) (b.receive outer keyA ⟨id, .encapsulated content⟩) viewB
        (.error (.refused reason)) left)
      (answers : left.sent = viewB.sent ++ [(a.identity, answer)])
      (isCarrier : carrier.sender = b.identity)
      (hears : StoreView.Goes Exchange.works (a.receive carrier keyB answer) spoken (.ok o) heard) :
      Round (viewA, viewB) (heard, left)

inductive Rounds : Nat → StoreView × StoreView → StoreView × StoreView → Prop where
  | zero (t : StoreView × StoreView) : Rounds 0 t t
  | succ {n : Nat} {t u v : StoreView × StoreView} (round : Round a b t u) (later : Rounds n u v) :
      Rounds (n + 1) t v

variable {a b}

/-- A round takes one session. -/
theorem Round.sessions (enabledA : a.policy.enabled = true) (enabledB : b.policy.enabled = true)
    {t u : StoreView × StoreView} (round : Round a b t u) :
    (a.sessions b u.1).encard + 1 = (a.sessions b t.1).encard := by
  cases round with
  | mk speaks isOuter refuses answers isCarrier hears =>
      obtain ⟨⟨cause, sent⟩, _⟩ := receive_refused enabledB refuses
      rw [answers, isOuter] at sent
      obtain ⟨_, rfl⟩ := Prod.mk.inj (List.singleton_inj.mp (List.append_cancel_left sent))
      obtain ⟨spokenOf, same⟩ := sessions_encapsulate speaks
      rcases hears.holds (receive_end enabledA rfl) with ⟨rfl, _⟩ | ⟨_, _, impossible, _⟩
      · rw [isCarrier, sessions_loses (StoreView.loses_erase _ _), same]
        exact Set.encard_sdiff_singleton_add_one spokenOf
      · cases impossible

theorem Rounds.sessions (enabledA : a.policy.enabled = true) (enabledB : b.policy.enabled = true)
    {n : Nat} {t u : StoreView × StoreView} (rounds : Rounds a b n t u) :
    (a.sessions b u.1).encard + n = (a.sessions b t.1).encard := by
  induction rounds with
  | zero t => simp
  | succ round later ih =>
      rw [← round.sessions enabledA enabledB, ← ih, Nat.cast_succ, add_assoc]

structure Recovers (a b : Endpoint) : Prop where
  /-- Who refuses a frame has said so, once, and has no such session any more. -/
  refused : ∀ outer senderKey id content reason before after, outer.sender = a.identity →
    StoreView.Goes (fun _ => True) (b.receive outer senderKey ⟨id, .encapsulated content⟩) before
      (.error (.refused reason)) after →
    (∃ cause, after.sent = before.sent ++ [(a.identity, ⟨id, .reject outer.id cause⟩)]) ∧
      StoreView.Loses (b.sessionKey a.identity id) before after
  /-- Who hears of it has no such session any more either, and says nothing. -/
  heard : ∀ carrier senderKey id rejected cause result before after, carrier.sender = b.identity →
    StoreView.Goes Exchange.works (a.receive carrier senderKey ⟨id, .reject rejected cause⟩) before result
      after →
    result = .ok (.control (.gone id)) ∧ after.sent = before.sent ∧
      StoreView.Loses (a.sessionKey b.identity id) before after
  /-- Each round takes one session from the one who speaks. -/
  rounds : ∀ n t u, Rounds a b n t u → (a.sessions b u.1).encard + n = (a.sessions b t.1).encard

theorem endpoints_recover {a b : Endpoint} (enabledA : a.policy.enabled = true)
    (enabledB : b.policy.enabled = true) : Recovers a b := by
  refine ⟨?_, ?_, fun n t u rounds => rounds.sessions enabledA enabledB⟩
  · intro outer senderKey id content reason before after sender goes
    have refused := receive_refused enabledB goes
    rw [sender] at refused
    exact refused
  · intro carrier senderKey id rejected cause result before after sender goes
    rcases goes.holds (receive_end enabledA rfl) with ⟨rfl, done⟩ | ⟨_, _, impossible, _⟩
    · rw [sender]
      exact ⟨done, rfl, before.loses_erase _⟩
    · cases impossible

section Example

open Traffic (pair)

/-- We open a session of which the peer never hears. -/
def lonely : Except ProcessError Envelope × EndpointState :=
  EndpointState.plainOutcome (pair.initiator.initiate Setting.peer Setting.peerKey) (Talk.state .empty)

def spoken : Except ProcessError Envelope × EndpointState :=
  EndpointState.plainOutcome
    (pair.initiator.encapsulate Setting.peer (Setting.message .contactDeletePhoto)) lonely.2

def protectedIn : Except ProcessError Envelope → Option Encapsulated
  | .ok ⟨id, .encapsulated content⟩ => if id = Block.zero 16 then some content else none
  | _ => none

theorem exists_protectedIn {result : Except ProcessError Envelope}
    (isSome : (protectedIn result).isSome = true) :
    ∃ content, result = .ok ⟨Block.zero 16, .encapsulated content⟩ := by
  unfold protectedIn at isSome
  split at isSome
  · next id content =>
    split at isSome
    · next zero =>
      subst zero
      exact ⟨content, rfl⟩
    · cases isSome
  · cases isSome

/-- The session is lost with the first message that is put into a frame. -/
theorem endpoints_recover_lonely : ∃ heard left,
    Rounds pair.initiator pair.responder 1 (lonely.2.view, .empty) (heard, left) ∧
      (pair.initiator.sessions pair.responder heard).encard + 1 =
        (pair.initiator.sessions pair.responder lonely.2.view).encard := by
  obtain ⟨content, speaks⟩ := exists_protectedIn (by decide +kernel : (protectedIn spoken.1).isSome = true)
  have works {α : Type} (part : Intake α) (d : EndpointState) : StoreView.Goes Exchange.works part d.view
      (EndpointState.plainOutcome part d).1 (EndpointState.plainOutcome part d).2.view :=
    EndpointState.view_goes .plain Setting.peerKey part d fun _ works => works
  have sealed := works (pair.initiator.encapsulate Setting.peer (Setting.message .contactDeletePhoto)) lonely.2
  rw [show (EndpointState.plainOutcome _ lonely.2).1 = _ from speaks] at sealed
  let arrival := pair.responder.receive (Traffic.outer .responder) (Block.ofNat 32 1)
    ⟨Block.zero 16, .encapsulated content⟩
  have refuses := EndpointState.plain_goes arrival (Talk.state .empty)
  have gone : (Talk.state .empty).view.filed (pair.responder.sessionKey (Traffic.outer .responder).sender
      (Block.zero 16)) = none := rfl
  obtain ⟨refused, left⟩ := (works arrival (Talk.state .empty)).holds (receive_unknown rfl gone)
  rw [refused] at refuses
  have sent := congrArg StoreView.sent left
  have hears := works (pair.initiator.receive (Traffic.outer .initiator) Setting.peerKey
    ⟨Block.zero 16, .reject (Traffic.outer .responder).id .unknownSession⟩) spoken.2
  rcases hears.holds (receive_end rfl rfl) with ⟨_, done⟩ | ⟨_, _, impossible, _⟩
  · rw [done] at hears
    have rounds : Rounds pair.initiator pair.responder 1 (lonely.2.view, .empty) (_, _) :=
      .succ (.mk sealed rfl refuses sent rfl hears) (.zero _)
    exact ⟨_, _, rounds, (endpoints_recover rfl rfl).rounds 1 _ _ rounds⟩
  · cases impossible

end Example

end Endpoint

end SecureInbox
