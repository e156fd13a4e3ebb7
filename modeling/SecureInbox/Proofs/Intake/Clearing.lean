import SecureInbox.Proofs.Intake.Requests
import SecureInbox.Proofs.Intake.Setting
import SecureInbox.Proofs.Session.Shape
import SecureInbox.Proofs.Store.Pairs

/-! # Opening frames that fail

An opening frame that is answered removes all sessions with the peer before anything else is done
(`Endpoint.Clears`).  What comes after that can fail: no session may be made of the frame, the
session may not be stored, the answer may not be sent.  None of this brings the sessions back
(`Endpoint.Aftermath`), so that a frame that failed has left the sessions alone exactly if it had
not come to their removal (`failed_opening_loses_iff`). -/
set_option autoImplicit false

namespace SecureInbox

namespace World

variable {σ : Type} {suite : Suite} {host : Host σ} {w : World σ}

theorem answer_store_of_fault {c : StoreCall} {error : StoreError}
    (fault : (host.storeFault c w.host).1 = some error) :
    w.answer suite host (.store c) = (.error error, { w with host := (host.storeFault c w.host).2 }) := by
  rw [answer]
  split
  · next same =>
    rw [same] at fault ⊢
    rw [Option.some.inj fault]
  · next same =>
    rw [same] at fault
    cases fault

theorem answer_store_of_works {c : StoreCall} (works : (host.storeFault c w.host).1 = none) :
    w.answer suite host (.store c) =
      answerStore suite host { w with host := (host.storeFault c w.host).2 } c := by
  rw [answer]
  split
  · next same =>
    rw [same] at works
    cases works
  · next same => rw [same]

theorem answer_put (suite : Suite) (host : Host σ) (w : World σ) (s : Session) :
    (∃ error, (w.answer suite host (.store (.put s))).1 = .error error ∧
        (w.answer suite host (.store (.put s))).2.sessions = w.sessions) ∨
      (w.answer suite host (.store (.put s))).1 = .ok () ∧ ∃ nonce now,
        w.sessions.put suite nonce now s = .ok (w.answer suite host (.store (.put s))).2.sessions := by
  cases fault : (host.storeFault (.put s) w.host).1 with
  | some error =>
      rw [answer_store_of_fault fault]
      exact .inl ⟨error, rfl, rfl⟩
  | none =>
      rw [answer_store_of_works fault, answerStore]
      dsimp only
      split
      · next stored => exact .inr ⟨rfl, _, _, stored⟩
      · next error _ => exact .inl ⟨error, rfl, rfl⟩

variable {α : Type} {post : World σ → Except ProcessError α → Prop}

/-- A part that begins with a request. -/
theorem obeys_request_bind {r : Request} {f : r.Answer → Intake α}
    (rest : (f (w.answer suite host r).1).Obeys (rules suite host) (w.answer suite host r).2 post) :
    (Intake.request r >>= f).Obeys (rules suite host) w post := by
  rw [Intake.obeys_bind, Intake.obeys_request]
  refine ⟨trivial, fun answer admitted => ?_⟩
  obtain rfl : answer = (w.answer suite host r).1 := admitted
  exact rest

/-- A part that begins with a request by which no session changes. -/
theorem obeys_kept_bind {r : Request} {f : r.Answer → Intake α}
    (kept : (w.answer suite host r).2.sessions = w.sessions)
    (rest : ∀ a v, v.sessions = w.sessions → (f a).Obeys (rules suite host) v post) :
    (Intake.request r >>= f).Obeys (rules suite host) w post :=
  obeys_request_bind (rest _ _ kept)

/-- The sessions of a pair are removed, unless the store fails. -/
theorem obeys_erasePair_bind {mine peer : String} {f : Nat → Intake α}
    (erased : (host.storeFault (.erasePair mine peer) w.host).1 = none →
      ∀ n v, v.sessions = (w.sessions.erasePair mine peer).2 → (f n).Obeys (rules suite host) v post)
    (failed : (host.storeFault (.erasePair mine peer) w.host).1 ≠ none →
      ∀ error v, v.sessions = w.sessions → post v (.error (.store error))) :
    (Intake.store (.erasePair mine peer) >>= f).Obeys (rules suite host) w post := by
  unfold Intake.store
  rw [bind_assoc]
  refine obeys_request_bind ?_
  cases fault : (host.storeFault (.erasePair mine peer) w.host).1 with
  | some error =>
      rw [answer_store_of_fault fault]
      refine failed ?_ error _ rfl
      rw [fault]
      exact Option.some_ne_none _
  | none =>
      rw [answer_store_of_works fault]
      exact erased fault _ _ rfl

/-- A session is stored, or the store fails and is as it was. -/
theorem obeys_put_bind {s : Session} {f : Unit → Intake α}
    (stored : ∀ nonce now v, w.sessions.put suite nonce now s = .ok v.sessions →
      (f ()).Obeys (rules suite host) v post)
    (failed : ∀ error v, v.sessions = w.sessions → post v (.error (.store error))) :
    (Intake.store (.put s) >>= f).Obeys (rules suite host) w post := by
  unfold Intake.store
  rw [bind_assoc]
  refine obeys_request_bind ?_
  rcases answer_put suite host w s with ⟨error, broken, same⟩ | ⟨done, nonce, now, put⟩
  · rw [broken]
    exact failed error _ same
  · rw [done]
    exact stored nonce now _ put

end World

namespace Endpoint

variable {σ : Type}

/-- Whether an opening frame comes to the removal of all sessions with the peer: it is to be
answered, and the store does not fail there. -/
structure Clears (e : Endpoint) (host : Host σ) (peer : Identity) (offered : VersionRange)
    (w : World σ) : Prop where
  enabled : e.policy.enabled = true
  negotiates : (e.policy.versions.negotiate offered).isSome = true
  works : (host.storeFault (.erasePair e.identity.text peer.text) w.host).1 = none

inductive Aftermath (e : Endpoint) (suite : Suite) (host : Host σ) (peer : Identity) (id : SessionId)
    (offered : VersionRange) (w : World σ) : ProcessError → SessionStore → Prop where
  | spared (error : ProcessError) (spares : ¬e.Clears host peer offered w) :
      Aftermath e suite host peer id offered w error w.sessions
  | cleared (error : ProcessError) (clears : e.Clears host peer offered w)
      (decided : ∀ reason, error ≠ .notReady reason) :
      Aftermath e suite host peer id offered w error
        (w.sessions.erasePair e.identity.text peer.text).2
  /-- The new session is there, but the peer has not been answered. -/
  | unanswered (reason : String) (clears : e.Clears host peer offered w) (nonce : Nonce) (now : Instant)
      (s : Session) (left : SessionStore) (own : s.fileKey = e.sessionKey peer id)
      (stored : (w.sessions.erasePair e.identity.text peer.text).2.put suite nonce now s = .ok left) :
      Aftermath e suite host peer id offered w (.notReady reason) left

variable {e : Endpoint} {suite : Suite} {host : Host σ} {w : World σ} {peer : Identity} {id : SessionId}

/-- Sending a frame leaves the sessions as they are. -/
theorem send_world {frame : Frame} {session : SessionInfo} :
    (send peer id frame >>= fun _ => (return .control session : Intake Received)).Obeys
      (World.rules suite host) w fun u o =>
        u.sessions = w.sessions ∧ ∀ error, o = .error error → ∃ reason, error = .notReady reason := by
  unfold send
  rw [bind_assoc]
  refine World.obeys_kept_bind rfl fun answer v same => ?_
  cases answer with
  | ok _ => exact ⟨same, fun _ other => nomatch other⟩
  | error error =>
      refine ⟨same, ?_⟩
      rintro _ ⟨⟩
      exact ⟨_, rfl⟩

variable {senderKey peerEphemeral : Key} {offered : VersionRange}

theorem receiveInit_aftermath (enabled : e.policy.enabled = true) :
    (e.receiveInit peer senderKey id offered peerEphemeral).Obeys (World.rules suite host) w
      fun u o => ∀ error, o = .error error →
        e.Aftermath suite host peer id offered w error u.sessions := by
  unfold receiveInit
  cases negotiated : e.policy.versions.negotiate offered with
  | none =>
      refine send_world.mono ?_
      rintro u o ⟨same, _⟩ error _
      rw [same]
      refine .spared error fun clears => ?_
      have negotiates := clears.negotiates
      rw [negotiated] at negotiates
      cases negotiates
  | some version =>
      refine World.obeys_erasePair_bind (fun works _ v erased => ?_) fun fails error v same => ?_
      · have clears : e.Clears host peer offered w := ⟨enabled, by rw [negotiated]; rfl, works⟩
        refine World.obeys_kept_bind (r := .draw .key) rfl fun ephemeral v₁ same₁ => ?_
        refine World.obeys_kept_bind (r := .now) rfl fun created v₂ same₂ => ?_
        have erased₂ := same₂.trans (same₁.trans erased)
        split
        · rintro _ ⟨⟩
          rw [erased₂]
          exact .cleared _ clears fun _ other => nomatch other
        · next s key responded =>
          have own := (Session.respond_ok responded).2.1
          refine World.obeys_put_bind (fun nonce now v₃ stored => ?_) fun error v₃ same => ?_
          · refine send_world.mono ?_
            rintro u o ⟨same, unsent⟩ error failed
            obtain ⟨reason, rfl⟩ := unsent error failed
            rw [erased₂, ← same] at stored
            exact .unanswered reason clears nonce now s _ own stored
          · rintro _ ⟨⟩
            rw [same, erased₂]
            exact .cleared _ clears fun _ other => nomatch other
      · rintro _ ⟨⟩
        rw [same]
        exact .spared _ fun clears => fails clears.works

theorem receive_aftermath (outer : Message) :
    (e.receive outer senderKey ⟨id, .init offered peerEphemeral⟩).Obeys (World.rules suite host) w
      fun u o => ∀ error, o = .error error →
        e.Aftermath suite host outer.sender id offered w error u.sessions := by
  cases enabled : e.policy.enabled with
  | true =>
      unfold receive
      rw [enabled]
      exact receiveInit_aftermath enabled
  | false =>
      unfold receive
      rw [enabled]
      refine send_world.mono ?_
      rintro u o ⟨same, _⟩ error _
      rw [same]
      refine .spared error fun clears => ?_
      rw [clears.enabled] at enabled
      cases enabled

/-- Whatever holds the sessions and however the surroundings fail: when an opening frame ends in a
failure, the sessions are left as `Aftermath` says.  A session that was there is lost exactly if it
was one with the sender and the frame came to their removal, but for the one in whose place the
new session stands when only the answer could not be sent. -/
theorem failed_opening_loses_iff (e : Endpoint) (outer : Message) (senderKey : Key) (id : SessionId)
    (offered : VersionRange) (peerEphemeral : Key) (suite : Suite) (host : Host σ) (w : World σ)
    (error : ProcessError) :
    let ran := (e.receive outer senderKey ⟨id, .init offered peerEphemeral⟩).run.run suite host w
    ran.value = .error error →
      e.Aftermath suite host outer.sender id offered w error ran.world.sessions ∧
      ∀ key, w.sessions.has key = true →
        (ran.world.sessions.has key = false ↔
          key.isOfPair e.identity.text outer.sender.text = true ∧
            e.Clears host outer.sender offered w ∧
              ¬(key.id = id ∧ ∃ reason, error = .notReady reason)) := by
  intro ran failed
  have aftermath : e.Aftermath suite host outer.sender id offered w error ran.world.sessions :=
    (receive_aftermath outer).world error failed
  refine ⟨aftermath, fun key there => ?_⟩
  generalize ran.world.sessions = after at aftermath
  cases aftermath with
  | spared _ spares =>
      rw [there]
      exact ⟨fun other => (nomatch other), fun lost => (spares lost.2.1).elim⟩
  | cleared _ clears decided =>
      rw [SessionStore.has_erasePair, there, Bool.true_and, Bool.not_eq_false']
      refine ⟨fun ofPair => ⟨ofPair, clears, ?_⟩, fun lost => lost.1⟩
      rintro ⟨_, reason, same⟩
      exact decided reason same
  | unanswered reason clears nonce now s _ own stored =>
      rw [SessionStore.has_put stored, SessionStore.has_erasePair, there, Bool.true_and, own,
        Bool.or_eq_false_iff, Bool.not_eq_false', beq_eq_false_iff_ne]
      constructor
      · rintro ⟨ofPair, ne⟩
        obtain ⟨mine, peer⟩ := SessionKey.isOfPair_iff.mp ofPair
        refine ⟨ofPair, clears, fun ⟨same, _⟩ => ne ?_⟩
        rw [sessionKey, ← mine, ← peer, ← same]
      · rintro ⟨ofPair, _, other⟩
        refine ⟨ofPair, ?_⟩
        rintro rfl
        exact other ⟨rfl, reason, rfl⟩

section Example

def earlier : SessionKey := Setting.processor.endpoint.sessionKey Setting.peer (Block.ofNat 16 7)

/-- A table behind a locked vault that has a session with the peer. -/
def lockedWorld : World Unit :=
  { World.plain with
    sessions := .table .locked ⟨[⟨earlier, "L40", "", .ofSeconds 0, .ofSeconds 0⟩]⟩ }

/-- While the vault is locked an opening frame is to come again, but the session is lost. -/
theorem failed_opening_loses_locked :
    let ran := (Setting.processor.endpoint.receive (Setting.message .empty) Setting.peerKey
      ⟨Block.zero 16, .init .supported Setting.peerKey⟩).run.run .plain (.plain Setting.peerKey) lockedWorld
    ran.value = .error (.store .vaultLocked) ∧ lockedWorld.sessions.has earlier = true ∧
      ran.world.sessions.has earlier = false := by
  intro ran
  have failed : ran.value = .error (.store .vaultLocked) := by rfl
  have there : lockedWorld.sessions.has earlier = true := by decide +kernel
  refine ⟨failed, there, ?_⟩
  refine ((failed_opening_loses_iff _ _ _ _ _ _ _ _ _ _ failed).2 earlier there).mpr ?_
  refine ⟨by decide +kernel, ⟨rfl, rfl, rfl⟩, ?_⟩
  rintro ⟨_, _, other⟩
  cases other

end Example

end Endpoint

end SecureInbox
