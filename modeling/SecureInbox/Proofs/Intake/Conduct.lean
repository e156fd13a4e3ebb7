import SecureInbox.Proofs.Intake.Handshake
import SecureInbox.Proofs.Session.Spending

/-! # What an endpoint keeps to

A `Conduct` says what holds of the sessions of an endpoint, of the frames that it hears and
of those that it tells.  Whether an endpoint keeps to it is a matter of what its sessions can
become (`Conduct.Sound`); that all it does keeps to it then follows once for each thing that
an endpoint does, whatever the stores and the transport answer. -/
set_option autoImplicit false

namespace SecureInbox

structure Conduct where
  session : Session → Prop
  hears : Frame → Prop
  tells : Frame → Prop

namespace Conduct

structure Sound (c : Conduct) (e : Endpoint) : Prop where
  rejects : ∀ rejected cause, c.tells (.reject rejected cause)
  terminates : ∀ cause, c.tells (.terminate cause)
  spends : ∀ s frame t, c.session s → s.Spends frame t → c.session t
  encrypts : ∀ s nonce plaintext sealed t group, c.session s →
    s.encrypt e.suite nonce plaintext = .ok (sealed, t) →
      c.session t ∧ c.tells (.encapsulated ⟨sealed, e.policy.versions.max, t.version, group⟩)
  answers : ∀ offered peerEphemeral version ephemeral id peer peerKey created s key,
    c.hears (.init offered peerEphemeral) → e.policy.versions.negotiate offered = some version →
      Session.respond e.suite e.secret ephemeral id e.identity.text peer peerKey peerEphemeral version
        created = .ok (s, key) → c.session s ∧ c.tells (.accept e.policy.versions key)
  completes : ∀ offered peerEphemeral version s t, c.hears (.accept offered peerEphemeral) →
    e.policy.versions.negotiate offered = some version → c.session s →
      s.accept e.suite e.secret peerEphemeral version = .ok t → c.session t

structure Keeps (c : Conduct) (r : StoreView) : Prop where
  filed : ∀ key s, r.filed key = some s → c.session s
  sent : ∀ x ∈ r.sent, c.tells x.2.frame

namespace Keeps

variable {c : Conduct} {r : StoreView}

theorem empty (c : Conduct) : c.Keeps .empty :=
  ⟨fun _ _ found => (nomatch found), fun _ member => nomatch member⟩

theorem put (keeps : c.Keeps r) {s : Session} (holds : c.session s) : c.Keeps (r.put s) := by
  refine ⟨?_, keeps.sent⟩
  intro key t found
  rcases StoreView.filed_put_cases found with ⟨rfl, _⟩ | before
  · exact holds
  · exact keeps.filed key t before

theorem without (keeps : c.Keeps r) (gone : SessionKey → Bool) : c.Keeps (r.without gone) :=
  ⟨fun key s found => keeps.filed key s (StoreView.filed_without_some found), keeps.sent⟩

theorem post (keeps : c.Keeps r) {peer : Identity} {envelope : Envelope}
    (tells : c.tells envelope.frame) : c.Keeps (r.post peer envelope) := by
  refine ⟨keeps.filed, ?_⟩
  intro x member
  rcases List.mem_append.mp member with before | new
  · exact keeps.sent x before
  · obtain rfl := List.mem_singleton.mp new
    exact tells

end Keeps

/-- Whether nothing that is heard where these sessions are stored leads away from a conduct. -/
structure SoundAt (c : Conduct) (e : Endpoint) (r : StoreView) : Prop where
  rejects : ∀ rejected cause, c.tells (.reject rejected cause)
  terminates : ∀ cause, c.tells (.terminate cause)
  opens : ∀ senderKey content s plaintext t, c.hears (.encapsulated content) →
    r.filed s.fileKey = some s → e.Authentic senderKey content s plaintext t → c.session t
  answers : ∀ offered peerEphemeral version ephemeral id peer peerKey created s key,
    c.hears (.init offered peerEphemeral) → e.policy.versions.negotiate offered = some version →
      Session.respond e.suite e.secret ephemeral id e.identity.text peer peerKey peerEphemeral version
        created = .ok (s, key) → c.session s ∧ c.tells (.accept e.policy.versions key)
  completes : ∀ offered peerEphemeral version s t, c.hears (.accept offered peerEphemeral) →
    e.policy.versions.negotiate offered = some version → r.filed s.fileKey = some s →
      s.accept e.suite e.secret peerEphemeral version = .ok t → c.session t

theorem Sound.at {c : Conduct} {e : Endpoint} {r : StoreView} (sound : c.Sound e) (keeps : c.Keeps r) :
    c.SoundAt e r where
  rejects := sound.rejects
  terminates := sound.terminates
  opens _ _ s _ t _ found authentic :=
    sound.spends s _ t (keeps.filed _ s found) (Session.decrypt_spends authentic.decrypted)
  answers := sound.answers
  completes offered peerEphemeral version s t hears negotiated found :=
    sound.completes offered peerEphemeral version s t hears negotiated (keeps.filed _ s found)

def pending : Except ProcessError Received → List Session
  | .ok ⟨_, _, some session⟩ => [session]
  | _ => []

def Heard (c : Conduct) (r : StoreView) (o : Except ProcessError Received) : Prop :=
  c.Keeps r ∧ ∀ s ∈ pending o, c.session s

theorem heard_error {c : Conduct} {r : StoreView} (keeps : c.Keeps r) (error : ProcessError) :
    c.Heard r (.error error) := ⟨keeps, fun _ member => nomatch member⟩

theorem heard_control {c : Conduct} {r : StoreView} (keeps : c.Keeps r) (session : SessionInfo) :
    c.Heard r (.ok (.control session)) := ⟨keeps, fun _ member => nomatch member⟩

section Calls

variable {c : Conduct} {e : Endpoint} {helps : Exchange → Prop} {r u : StoreView}
  {o : Except ProcessError Received}

theorem heard_answering (sound : c.SoundAt e r) (keeps : c.Keeps r) {peer : Identity} {senderKey : Key}
    {id : SessionId} {offered : VersionRange} {peerEphemeral : Key}
    (hears : c.hears (.init offered peerEphemeral))
    (answering : e.Answering peer senderKey id offered peerEphemeral r u o) : c.Heard u o := by
  have fewer := keeps.without (·.isOfPair e.identity.text peer.text)
  cases answering with
  | failed error => exact heard_error keeps _
  | declined none => exact heard_control (keeps.post (sound.terminates _)) _
  | cleared error => exact heard_error fewer _
  | unsent version ephemeral created s key negotiated responded error =>
      obtain ⟨holds, _⟩ := sound.answers _ _ _ _ _ _ _ _ _ _ hears negotiated responded
      exact heard_error (fewer.put holds) _
  | answered version ephemeral created s key negotiated responded =>
      obtain ⟨holds, tells⟩ := sound.answers _ _ _ _ _ _ _ _ _ _ hears negotiated responded
      exact heard_control ((fewer.put holds).post tells) _

theorem heard_completing (sound : c.SoundAt e r) (keeps : c.Keeps r) {peer : Identity}
    {id : SessionId} {offered : VersionRange} {peerEphemeral : Key}
    (hears : c.hears (.accept offered peerEphemeral))
    (completing : e.Completing peer id offered peerEphemeral r u o) : c.Heard u o := by
  cases completing with
  | failed error => exact heard_error keeps _
  | unknown gone => exact heard_control (keeps.post (sound.terminates _)) _
  | ignored s found ready => exact heard_control keeps _
  | undone s found waiting error => exact heard_error (keeps.without _) _
  | declined s found waiting none =>
      exact heard_control ((keeps.without _).post (sound.terminates _)) _
  | completed version s t found negotiated accepted =>
      have own : r.filed s.fileKey = some s := (r.own _ s found).symm ▸ found
      have holds := sound.completes _ _ _ _ _ hears negotiated own accepted
      exact heard_control (keeps.put holds) _

theorem heard_receipt (sound : c.SoundAt e r) (keeps : c.Keeps r) {outer : Message}
    {senderKey : Key} {id : SessionId} {content : Encapsulated}
    (hears : c.hears (.encapsulated content))
    (receipt : e.Receipt helps outer senderKey id content r u o) : c.Heard u o := by
  cases receipt with
  | broken call error admitted => exact heard_error keeps _
  | unsent left reason envelope error cause admitted =>
      rcases cause with ⟨_, rfl⟩ | ⟨_, rfl⟩
      · exact heard_error keeps _
      · exact heard_error (keeps.without _) _
  | unknown gone => exact heard_error (keeps.post (sound.rejects _ _)) _
  | refused s refusal found why =>
      exact heard_error ((keeps.without _).post (sound.rejects _ _)) _
  | early s found _ early => exact heard_error keeps _
  | unread s t plaintext fault found authentic unread =>
      have own : r.filed s.fileKey = some s := (r.own _ s found).symm ▸ found
      have holds := sound.opens _ _ _ _ _ hears own authentic
      exact heard_error (keeps.put holds) _
  | opened s t plaintext inner found authentic read =>
      have own : r.filed s.fileKey = some s := (r.own _ s found).symm ▸ found
      have holds := sound.opens _ _ _ _ _ hears own authentic
      refine ⟨keeps, ?_⟩
      intro other member
      obtain rfl := List.mem_singleton.mp member
      exact holds

theorem heard_dismissing (sound : c.SoundAt e r) (keeps : c.Keeps r) {outer : Message}
    {envelope : Envelope} (dismissing : Endpoint.Dismissing r outer envelope u o) : c.Heard u o := by
  cases dismissing with
  | unsent error => exact heard_error keeps _
  | ended => exact heard_control keeps _
  | rejected result what =>
      have rejected : c.Keeps
          (r.post outer.sender ⟨envelope.session, .reject outer.id .disabledByLocal⟩) :=
        keeps.post (sound.rejects _ _)
      rcases what with rfl | rfl
      · exact heard_control rejected _
      · exact heard_error rejected _

/-- Whatever frame is heard, the endpoint keeps to its conduct. -/
theorem receive_keeps (sound : c.SoundAt e r) (keeps : c.Keeps r) {outer : Message} {senderKey : Key}
    {envelope : Envelope} (hears : c.hears envelope.frame) :
    (e.receive outer senderKey envelope).Obeys (StoreView.rules helps) r c.Heard := by
  refine Endpoint.receive_hearing.mono ?_
  intro u o hearing
  cases hearing with
  | dismissed disabled dismissing => exact heard_dismissing sound keeps dismissing
  | answered enabled answering => exact heard_answering sound keeps hears answering
  | completed enabled completing => exact heard_completing sound keeps hears completing
  | read enabled receipt => exact heard_receipt sound keeps hears receipt
  | ended isEnd => exact heard_control (keeps.without _) _
  | unended isEnd call error admitted => exact heard_error keeps _

theorem encapsulate_keeps (sound : c.Sound e) (keeps : c.Keeps r) {peer : Identity}
    {message : Message} :
    (e.encapsulate peer message).Obeys (StoreView.rules helps) r fun u o =>
      c.Keeps u ∧ ∀ envelope, o = .ok envelope → c.tells envelope.frame := by
  refine Endpoint.encapsulate_framing.mono ?_
  intro u o framing
  cases framing with
  | failed error => exact ⟨keeps, fun _ other => nomatch other⟩
  | framed s t nonce plaintext sealed group found ofPair encrypted =>
      obtain ⟨holds, tells⟩ := sound.encrypts _ _ _ _ _ group (keeps.filed _ s found) encrypted
      refine ⟨keeps.put holds, ?_⟩
      intro envelope same
      obtain rfl := Except.ok.inj same
      exact tells

theorem commit_keeps (keeps : c.Keeps r) {s : Session} (holds : c.session s) :
    (e.commit s).Obeys (StoreView.rules helps) r fun u _ => c.Keeps u := by
  refine Endpoint.commit_view.mono ?_
  rintro u o (⟨rfl, rfl⟩ | ⟨call, error, _, rfl, rfl⟩)
  · exact keeps.put holds
  · exact keeps

def Opens (c : Conduct) (e : Endpoint) : Prop :=
  ∀ ephemeral id peer peerKey created s key,
    Session.initiate e.suite e.secret ephemeral id e.identity.text peer peerKey e.policy.versions.max
      created = .ok (s, key) → c.session s ∧ c.tells (.init e.policy.versions key)

theorem initiate_keeps (opens : c.Opens e) (keeps : c.Keeps r) {peer : Identity} {peerKey : Key} :
    (e.initiate peer peerKey).Obeys (StoreView.rules helps) r fun u o =>
      c.Keeps u ∧ ∀ envelope, o = .ok envelope → c.tells envelope.frame := by
  refine Endpoint.initiate_opening.mono ?_
  intro u o opening
  cases opening with
  | failed error => exact ⟨keeps, fun _ other => nomatch other⟩
  | opened ephemeral id created s key drawn initiated =>
      obtain ⟨holds, tells⟩ := opens _ _ _ _ _ _ _ initiated
      refine ⟨keeps.put holds, ?_⟩
      intro envelope same
      obtain rfl := Except.ok.inj same
      exact tells

end Calls

end Conduct

end SecureInbox
