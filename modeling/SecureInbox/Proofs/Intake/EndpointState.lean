import SecureInbox.Proofs.Intake.Setting
import SecureInbox.Proofs.Script.Rules
import SecureInbox.Proofs.Session.Chains
import SecureInbox.Proofs.Wire.Padding

/-! # An endpoint with its stores in memory

An `EndpointState` holds the sessions and the nonces of an endpoint, and what it has sent so far.
`EndpointState.rules` are surroundings in which stores and transport do not fail and key
agreement works for all keys that are drawn.  What an endpoint does there is said
frame by frame. -/
set_option autoImplicit false

namespace SecureInbox

structure EndpointState where
  book : SessionBook
  register : NonceRegister
  /-- What was sent to whom, the first first. -/
  sent : List (Identity × Envelope)

namespace EndpointState

def answers (secrets : Key → Prop) (d : EndpointState) : Exchange → Prop
  | ⟨.store (.seen hash), answer⟩ => answer = .ok (d.register.contains hash)
  | ⟨.store (.mark hash), answer⟩ => answer = .ok (d.register.insert hash).1
  | ⟨.store (.best mine peer), answer⟩ => answer = .ok (d.book.best mine peer)
  | ⟨.store (.find key), answer⟩ => answer = .ok (d.book.find? key)
  | ⟨.store (.put _), answer⟩ => answer = .ok ()
  | ⟨.store (.erase key), answer⟩ => answer = .ok (d.book.find? key).isSome
  | ⟨.store (.erasePair mine peer), answer⟩ =>
      answer = .ok (d.book.sessions.countP fun s => s.fileKey.isOfPair mine peer)
  | ⟨.host (.send _ _), answer⟩ => answer = .ok ()
  | ⟨.draw .key, answer⟩ => secrets answer
  | _ => True

def after (d : EndpointState) : Exchange → EndpointState
  | ⟨.store (.mark hash), _⟩ => { d with register := (d.register.insert hash).2 }
  | ⟨.store (.put session), _⟩ => { d with book := d.book.put session }
  | ⟨.store (.erase key), _⟩ => { d with book := d.book.erase key }
  | ⟨.store (.erasePair mine peer), _⟩ => { d with book := d.book.erasePair mine peer }
  | ⟨.host (.send peer envelope), _⟩ => { d with sent := d.sent ++ [(peer, envelope)] }
  | _ => d

def rules (secrets : Key → Prop) : Rules EndpointState where
  allows _ _ := True
  admits := answers secrets
  after := after

end EndpointState

/-! ## States of worlds -/

/-- A host that fails neither stores nor the transport, and that draws keys from the secrets. -/
structure Host.Serves {σ : Type} (host : Host σ) (secrets : Key → Prop) : Prop where
  stores : ∀ (c : StoreCall) (s : σ), (host.storeFault c s).1 = none
  sends : ∀ (peer : Identity) (envelope : Envelope) (s : σ),
    (host.call (.send peer envelope) s).1 = .ok ()
  keys : ∀ s, secrets (host.draw .key s).1

namespace EndpointState

variable {σ α : Type} (suite : Suite) {host : Host σ} {secrets : Key → Prop}

def Keeps (w : World σ) (d : EndpointState) : Prop := w.nonces = d.register ∧ w.sessions = .memory d.book

theorem answer_keeps (serves : host.Serves secrets) {w : World σ} {d : EndpointState} (keeps : Keeps w d)
    (r : Request) :
    answers secrets d ⟨r, (w.answer suite host r).1⟩ ∧
      Keeps (w.answer suite host r).2 (d.after ⟨r, (w.answer suite host r).1⟩) := by
  obtain ⟨nonces, sessions⟩ := keeps
  cases r with
  | store c =>
      have calm := serves.stores c w.host
      simp only [World.answer]
      split
      · next failed => rw [failed] at calm; cases calm
      · cases c <;> simp only [World.answerStore, nonces, sessions] <;> exact ⟨rfl, rfl, rfl⟩
  | host c =>
      cases c with
      | send peer envelope => exact ⟨serves.sends peer envelope w.host, nonces, sessions⟩
      | _ => exact ⟨trivial, nonces, sessions⟩
  | record rejection =>
      refine ⟨trivial, ?_⟩
      simp only [World.answer]
      split <;> exact ⟨nonces, sessions⟩
  | draw draw =>
      cases draw with
      | key => exact ⟨serves.keys w.host, nonces, sessions⟩
      | _ => exact ⟨trivial, nonces, sessions⟩
  | _ => exact ⟨trivial, nonces, sessions⟩

/-- What a world does that keeps sessions in memory can happen at an endpoint's state. -/
theorem admits_run (serves : host.Serves secrets) (script : Script α) :
    ∀ {w : World σ} {d : EndpointState}, Keeps w d →
      (rules secrets).AdmitsAll d (script.run suite host w).exchanges ∧
        Keeps (script.run suite host w).world
          ((rules secrets).afterAll d (script.run suite host w).exchanges) := by
  induction script with
  | done value => exact fun keeps => ⟨trivial, keeps⟩
  | ask request next ih =>
      intro w d keeps
      obtain ⟨admitted, keepsNext⟩ := answer_keeps suite serves keeps request
      obtain ⟨rest, keepsLast⟩ := ih _ keepsNext
      exact ⟨⟨admitted, rest⟩, keepsLast⟩

theorem plain_serves {key : Key} (drawn : secrets key) : (Host.plain key).Serves secrets :=
  ⟨fun _ _ => rfl, fun _ _ _ => rfl, fun _ => drawn⟩

end EndpointState

namespace SessionBook

theorem find?_single {s : Session} {key : SessionKey} (filed : s.fileKey = key) :
    SessionBook.find? ⟨[s]⟩ key = some s := by
  have here : (s.fileKey == key) = true := beq_iff_eq.mpr filed
  simp only [find?, List.find?_cons, here]

theorem best_single {s : Session} {mine peer : String} (ofMine : s.mine = mine)
    (ofPeer : s.peer = peer) : SessionBook.best ⟨[s]⟩ mine peer = some s := by
  have here : s.fileKey.isOfPair mine peer = true := by
    simp only [SessionKey.isOfPair, Session.fileKey, ofMine, ofPeer, beq_self_eq_true, Bool.and_true]
  simp only [best, List.find?_cons, here]

theorem put_single {s t : Session} (same : t.fileKey = s.fileKey) :
    SessionBook.put ⟨[s]⟩ t = ⟨[t]⟩ := by
  have gone : (s.fileKey != t.fileKey) = false := by
    rw [same, bne_self_eq_false]
  simp only [put, erase, List.filter_cons, gone, List.filter_nil, Bool.false_eq_true, if_false]

theorem find?_filter (b : SessionBook) (removed : SessionKey → Bool) (key : SessionKey) :
    SessionBook.find? ⟨b.sessions.filter fun s => !removed s.fileKey⟩ key =
      if removed key = true then none else b.find? key := by
  unfold find?
  rw [List.find?_filter]
  cases gone : removed key with
  | true =>
      refine List.find?_eq_none.mpr fun s _ here => ?_
      simp only [Bool.not_eq_true', beq_iff_eq, decide_eq_true_eq] at here
      rw [here.2, gone] at here
      cases here.1
  | false =>
      refine congrArg (fun f => b.sessions.find? f) (funext fun s => ?_)
      by_cases here : s.fileKey = key
      · rw [here]
        simp [gone]
      · simp [here]

theorem find?_erase (b : SessionBook) (erased key : SessionKey) :
    (b.erase erased).find? key = if erased = key then none else b.find? key := by
  have removed := b.find?_filter (· == erased) key
  simp only [beq_iff_eq] at removed
  simp only [eq_comm (a := erased)]
  exact removed

theorem find?_erasePair (b : SessionBook) (mine peer : String) (key : SessionKey) :
    (b.erasePair mine peer).find? key = if key.isOfPair mine peer = true then none else b.find? key :=
  b.find?_filter (fun other => other.isOfPair mine peer) key

theorem find?_put (b : SessionBook) (s : Session) (key : SessionKey) :
    (b.put s).find? key = if s.fileKey = key then some s else b.find? key := by
  by_cases here : s.fileKey = key
  · have same : (s.fileKey == key) = true := beq_iff_eq.mpr here
    rw [if_pos here, put, find?, List.find?_cons, same]
  · have other : (s.fileKey == key) = false := beq_eq_false_iff_ne.mpr here
    have erased := b.find?_erase s.fileKey key
    rw [if_neg here] at erased
    rw [if_neg here, put, find?, List.find?_cons, other]
    exact erased

end SessionBook

namespace EndpointState

def single (s : Session) : EndpointState := ⟨⟨[s]⟩, .empty, []⟩

theorem put_single {s t : Session} (same : t.fileKey = s.fileKey) :
    ({ single s with book := (single s).book.put t } : EndpointState) = single t :=
  congrArg (fun book => (⟨book, .empty, []⟩ : EndpointState)) (SessionBook.put_single same)

end EndpointState

namespace Endpoint

variable (e : Endpoint) {secrets : Key → Prop} {d : EndpointState}

/-- Processes an envelope and stores its session at once. -/
def take (outer : Message) (senderKey : Key) (envelope : Envelope) : Intake Received := do
  let received ← e.receive outer senderKey envelope
  match received.pending with
  | some session => e.commit session
  | none => pure ()
  return received

section Parts

variable {α : Type} {post : EndpointState → Except ProcessError α → Prop}

/-- A part that begins with a question to a store. -/
theorem store_state {c : StoreCall} {f : c.Answer → Intake α} (value : c.Answer)
    (exact : ∀ answer, EndpointState.answers secrets d ⟨.store c, answer⟩ → answer = .ok value)
    (rest : (f value).Obeys (EndpointState.rules secrets) (d.after ⟨.store c, .ok value⟩) post) :
    (Intake.store c >>= f).Obeys (EndpointState.rules secrets) d post :=
  Intake.Obeys.after_store trivial value exact rest

theorem draw_state {draw : Draw} {f : draw.Answer → Intake α}
    (rest : ∀ answer, EndpointState.answers secrets d ⟨.draw draw, answer⟩ →
      (f answer).Obeys (EndpointState.rules secrets) d post) :
    (Intake.draw draw >>= f).Obeys (EndpointState.rules secrets) d post := by
  rw [Intake.obeys_bind, Intake.obeys_draw]
  exact ⟨trivial, fun answer admitted => rest answer admitted⟩

theorem now_state {f : Instant → Intake α}
    (rest : ∀ now, (f now).Obeys (EndpointState.rules secrets) d post) :
    (Intake.request .now >>= f).Obeys (EndpointState.rules secrets) d post := by
  rw [Intake.obeys_bind, Intake.obeys_request]
  exact ⟨trivial, fun now _ => rest now⟩

theorem send_state {peer : Identity} {session : SessionId} {frame : Frame} {f : Unit → Intake α}
    (rest : (f ()).Obeys (EndpointState.rules secrets)
      { d with sent := d.sent ++ [(peer, ⟨session, frame⟩)] } post) :
    (send peer session frame >>= f).Obeys (EndpointState.rules secrets) d post := by
  rw [Intake.obeys_bind]
  refine (Intake.obeys_bind _ _ _ _ _).mpr ((Intake.obeys_request _ _ _ _).mpr ⟨trivial, ?_⟩)
  intro answer admitted
  obtain rfl : answer = .ok () := admitted
  exact rest

theorem put_state {session : Session} :
    (Intake.store (.put session)).Obeys (EndpointState.rules secrets) d
      fun t r => r = .ok () ∧ t = { d with book := d.book.put session } := by
  refine (Intake.obeys_store _ _ _ _).mpr ⟨trivial, fun answer admitted => ?_⟩
  obtain rfl : answer = .ok () := admitted
  exact ⟨rfl, rfl⟩

end Parts

theorem commit_state (session : Session) :
    (e.commit session).Obeys (EndpointState.rules secrets) d
      fun t r => r = .ok () ∧ t = { d with book := d.book.put session } :=
  store_state _ (fun _ admitted => admitted) put_state

/-! ## Opening a session -/

theorem initiate_state (shares : e.suite.Shares secrets) (mine : secrets e.secret) {responder : Key}
    (other : secrets responder) (peer : Identity) :
    (e.initiate peer (e.suite.publicKey responder)).Obeys (EndpointState.rules secrets) d fun t r =>
      ∃ opening id created, secrets opening ∧
        r = .ok ⟨id, .init e.policy.versions (e.suite.publicKey opening)⟩ ∧
        t = { d with
          book := d.book.put (.opened e.suite e.secret responder opening id e.identity.text peer.text
            e.policy.versions.max created) } := by
  unfold initiate
  refine draw_state fun opening drawn => draw_state fun id _ => now_state fun created => ?_
  have drawn : secrets opening := drawn
  rw [Session.initiate_eq (shares _ _ mine other) (shares _ _ drawn other)]
  rw [Intake.obeys_bind]
  refine put_state.mono ?_
  rintro t r ⟨rfl, rfl⟩
  exact ⟨opening, id, created, drawn, rfl, rfl⟩

theorem receiveInit_state (shares : e.suite.Shares secrets) (mine : secrets e.secret)
    {initiator opening : Key} (lasting : secrets initiator) (drawn : secrets opening)
    (peer : Identity) (id : SessionId) {offered : VersionRange} {version : Version}
    (negotiated : e.policy.versions.negotiate offered = some version) :
    (e.receiveInit peer (e.suite.publicKey initiator) id offered (e.suite.publicKey opening)).Obeys
      (EndpointState.rules secrets) d fun t r =>
        ∃ answering created, secrets answering ∧
          r = .ok (.control (.ofSession (.answered e.suite ⟨initiator, e.secret, opening, answering⟩ id
            e.identity.text peer.text version created))) ∧
          t = { d with
            book := (d.book.erasePair e.identity.text peer.text).put
              (.answered e.suite ⟨initiator, e.secret, opening, answering⟩ id e.identity.text
                peer.text version created)
            sent := d.sent ++
              [(peer, ⟨id, .accept e.policy.versions (e.suite.publicKey answering)⟩)] } := by
  unfold receiveInit
  rw [negotiated]
  refine store_state _ (fun _ admitted => admitted) ?_
  refine draw_state fun answering drawnHere => now_state fun created => ?_
  have drawnHere : secrets answering := drawnHere
  have among : Session.Secrets.Among ⟨initiator, e.secret, opening, answering⟩ secrets :=
    ⟨lasting, mine, drawn, drawnHere⟩
  rw [Session.respond_eq (among.meet shares), Intake.obeys_bind]
  refine put_state.mono ?_
  rintro t r ⟨rfl, rfl⟩
  exact send_state ⟨answering, created, drawnHere, rfl, rfl⟩

theorem receiveAccept_state (shares : e.suite.Shares secrets) {k : Session.Secrets}
    (among : k.Among secrets) (mine : k.initiator = e.secret) {peer : Identity} {id : SessionId}
    {s : Session} (found : d.book.find? (e.sessionKey peer id) = some s)
    (role : s.role = .initiator) (state : s.state = .l20)
    (ephemeral : s.ephemeralSecret = some k.opening)
    (peerKey : s.peerKey = e.suite.publicKey k.responder) {offered : VersionRange}
    {version : Version} (negotiated : e.policy.versions.negotiate offered = some version) :
    (e.receiveAccept peer id offered (e.suite.publicKey k.answering)).Obeys
      (EndpointState.rules secrets) d fun t r =>
        r = .ok (.control (.ofSession (s.completed e.suite k version))) ∧
          t = { d with book := d.book.put (s.completed e.suite k version) } := by
  refine store_state (some s) (fun _ admitted => admitted.trans (congrArg _ found)) ?_
  have waiting : ¬(s.role ≠ .initiator ∨ s.state ≠ .l20) := by
    rw [role, state]
    exact fun unlike => unlike.elim (· rfl) (· rfl)
  dsimp only
  rw [if_neg waiting, negotiated]
  dsimp only
  rw [← mine, Session.accept_eq (among.meet shares) role state ephemeral peerKey]
  dsimp only
  rw [Intake.obeys_bind]
  refine put_state.mono ?_
  rintro t r ⟨rfl, rfl⟩
  exact ⟨rfl, rfl⟩

/-! ## Messages in frames -/

theorem encapsulate_state {peer : Identity} {message : Message} {s : Session} {chains : Chains}
    {p : Position} (noEnvelope : message.body.isEnvelope = false)
    (best : d.book.best e.identity.text peer.text = some s)
    (sends : chains.Sends e.suite s p) :
    (e.encapsulate peer message).Obeys (EndpointState.rules secrets) d fun t r =>
      ∃ (padding : Fin 255) (sealed : Session.Protected) (myTwo myFour : Option Ratchet),
        r = .ok ⟨s.id, .encapsulated ⟨sealed, e.policy.versions.max, s.version, message.group?⟩⟩ ∧
        chains.Seals e.suite s.id p (message.body.toPlaintext (padding.val + 1)) sealed ∧
        t = { d with book := d.book.put { s with myTwo := myTwo, myFour := myFour } } ∧
        chains.Sends e.suite { s with myTwo := myTwo, myFour := myFour } p.next := by
  unfold encapsulate
  rw [noEnvelope, if_neg Bool.false_ne_true]
  refine draw_state fun padding _ => ?_
  unfold protect
  refine store_state (some s) (fun _ admitted => admitted.trans (congrArg _ best)) ?_
  refine draw_state fun nonce _ => ?_
  obtain ⟨sealed, myTwo, myFour, encrypted, seals, sendsNext⟩ :=
    Chains.encrypt_sends sends nonce (message.body.toPlaintext (padding.val + 1))
  rw [encrypted]
  dsimp only
  rw [Intake.obeys_bind]
  refine put_state.mono ?_
  rintro t r ⟨rfl, rfl⟩
  exact ⟨padding, sealed, myTwo, myFour, rfl, seals, rfl, sendsNext⟩

theorem encapsulate_envelope {peer : Identity} {message : Message}
    (isEnvelope : message.body.isEnvelope = true) :
    (e.encapsulate peer message).Obeys (EndpointState.rules secrets) d fun t r =>
      r = .error (.ofFault e.identity .envelopeToSend) ∧ t = d := by
  unfold encapsulate
  rw [isEnvelope, if_pos rfl]
  exact ⟨rfl, rfl⟩

theorem receiveEncapsulated_state (outer : Message) {inner : Message} {senderKey : Key}
    {id : SessionId} (content : Encapsulated) {s t : Session} {plaintext : Bytes}
    (found : d.book.find? (e.sessionKey outer.sender id) = some s)
    (bound : s.isBoundTo senderKey = true) (known : e.policy.versions.contains content.applied = true)
    (ready : ¬(content.sealed.agreement = .four ∧ s.role = .initiator ∧ s.state = .l20))
    (decrypted : s.decrypt e.suite content.sealed e.policy.maxSkip = (.ok plaintext, t))
    (opened : innerMessage outer plaintext content.group = .ok inner) :
    (e.receiveEncapsulated outer senderKey id content).Obeys (EndpointState.rules secrets) d fun u r =>
      r = .ok ⟨some inner, .ofSession t, some t⟩ ∧ u = d := by
  refine store_state (some s) (fun _ admitted => admitted.trans (congrArg _ found)) ?_
  dsimp only
  rw [bound, known, if_neg (by decide), if_neg (by decide), if_neg ready, decrypted]
  dsimp only
  rw [opened]
  exact ⟨rfl, rfl⟩

/-- A frame of the four-party chain that comes before the answer can be delivered later. -/
theorem receiveEncapsulated_early (outer : Message) {senderKey : Key} {id : SessionId}
    (content : Encapsulated) {s : Session}
    (found : d.book.find? (e.sessionKey outer.sender id) = some s)
    (bound : s.isBoundTo senderKey = true) (known : e.policy.versions.contains content.applied = true)
    (early : content.sealed.agreement = .four ∧ s.role = .initiator ∧ s.state = .l20) :
    (e.receiveEncapsulated outer senderKey id content).Obeys (EndpointState.rules secrets) d fun u r =>
      r = .error (.notReady "4DH message before accept") ∧ u = d := by
  refine store_state (some s) (fun _ admitted => admitted.trans (congrArg _ found)) ?_
  dsimp only
  rw [bound, known, if_neg (by decide), if_neg (by decide), if_pos early]
  exact ⟨rfl, rfl⟩

/-! ## Frames that are settled at once -/

def settled (d : EndpointState) : Except ProcessError Received → EndpointState
  | .ok ⟨_, _, some session⟩ => { d with book := d.book.put session }
  | _ => d

theorem take_obeys {outer : Message} {senderKey : Key} {envelope : Envelope}
    {post : EndpointState → Except ProcessError Received → Prop}
    (receives : (e.receive outer senderKey envelope).Obeys (EndpointState.rules secrets) d fun t r =>
      post (settled t r) r) :
    (e.take outer senderKey envelope).Obeys (EndpointState.rules secrets) d post := by
  unfold take
  rw [Intake.obeys_bind]
  refine receives.mono ?_
  intro t r holds
  cases r with
  | error error => exact holds
  | ok received =>
      obtain ⟨inner, session, pending⟩ := received
      cases pending with
      | none => exact holds
      | some session =>
          refine (Intake.obeys_bind _ _ _ _ _).mpr ((e.commit_state session).mono ?_)
          rintro u r ⟨rfl, rfl⟩
          exact holds

end Endpoint

end SecureInbox
