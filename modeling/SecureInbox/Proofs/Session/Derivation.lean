import SecureInbox.Proofs.Intake.Setting

/-! # Both ends derive the same chains

The initiator computes the chains from its secrets and the responder's public keys, the
responder from its secrets and the initiator's public keys.  Where key agreement gives both the
same (`Suite.Agrees`) and never the zero point (`Secrets.Contributory`), the chains are the same:
the one of the first frames as soon as the opening is answered, the other two when the answer
arrives, whatever was sent meanwhile (`derives_alike`). -/
set_option autoImplicit false

namespace SecureInbox

theorem Suite.Agrees.meet {suite : Suite} (agrees : suite.Agrees) {a b : Key}
    (contributory : suite.agree? a (suite.publicKey b) ≠ none) : suite.Meet a b := by
  obtain ⟨shared, agreed⟩ := Option.ne_none_iff_exists'.mp contributory
  exact ⟨shared, agreed, (agrees b a).trans agreed⟩

namespace Session

variable {suite : Suite}

/-- Whether no agreement of a secret of the initiator's with one of the responder's gives the
zero point. -/
def Secrets.Contributory (suite : Suite) (k : Secrets) : Prop :=
  ∀ a ∈ [k.initiator, k.opening], ∀ b ∈ [k.responder, k.answering],
    suite.agree? a (suite.publicKey b) ≠ none

theorem Secrets.Contributory.meet {k : Secrets} (contributory : k.Contributory suite)
    (agrees : suite.Agrees) : k.Meet suite := by
  have meet : ∀ a ∈ [k.initiator, k.opening], ∀ b ∈ [k.responder, k.answering], suite.Meet a b :=
    fun a left b right => agrees.meet (contributory a left b right)
  simp only [List.forall_mem_cons] at meet
  obtain ⟨⟨lasting, answering, _⟩, ⟨opening, drawn, _⟩, _⟩ := meet
  exact ⟨lasting, opening, answering, drawn⟩

/-! ## Frames before the answer -/

def encryptAll (suite : Suite) (s : Session) :
    List (Nonce × Bytes) → Except CryptoError (List Protected × Session)
  | [] => return ([], s)
  | (nonce, plaintext) :: rest => do
    let (frame, next) ← s.encrypt suite nonce plaintext
    let (frames, last) ← next.encryptAll suite rest
    return (frame :: frames, last)

/-- Where a session sends on its first chain, all its frames are of that chain, and they change
its sending chains only. -/
theorem encryptAll_two {chains : Chains} (messages : List (Nonce × Bytes)) :
    ∀ {s : Session} {steps : Nat}, chains.Sends suite s ⟨.two, steps⟩ →
      ∃ frames myTwo myFour,
        s.encryptAll suite messages = .ok (frames, { s with myTwo := myTwo, myFour := myFour }) ∧
        frames.length = messages.length ∧ ∀ frame ∈ frames, frame.agreement = .two := by
  induction messages with
  | nil => exact fun {s} _ _ => ⟨[], s.myTwo, s.myFour, rfl, rfl, fun _ member => nomatch member⟩
  | cons message rest ih =>
      intro s steps sends
      obtain ⟨nonce, plaintext⟩ := message
      obtain ⟨frame, myTwo, myFour, encrypted, ⟨_, _, _, sealed⟩, sendsNext⟩ :=
        Chains.encrypt_sends sends nonce plaintext
      obtain ⟨frames, lastTwo, lastFour, others, length, agreements⟩ := ih sendsNext
      refine ⟨frame :: frames, lastTwo, lastFour, ?_, congrArg (· + 1) length, ?_⟩
      · rw [encryptAll, encrypted]
        show (encryptAll suite _ rest >>= _) = _
        rw [others]
        rfl
      · exact List.forall_mem_cons.mpr ⟨congrArg Protected.agreement sealed, agreements⟩

theorem opened_sends (k : Secrets) (id : SessionId) (mine peer : String) (version : Version)
    (created : Instant) :
    (outward suite k).Sends suite
      (opened suite k.initiator k.responder k.opening id mine peer version created) ⟨.two, 0⟩ :=
  ⟨_, rfl, rfl, rfl⟩

/-! ## Both ends -/

/-- An opening that is answered gives both ends the chain of the first frames, and the answer
gives them the chains over all four secrets, one each way, however many frames were made before
it arrived.  All of them start at counter one. -/
theorem derives_alike (agrees : suite.Agrees) {k : Secrets} (contributory : k.Contributory suite)
    (id idThere : SessionId) (mine peer mineThere peerThere : String)
    (version versionThere versionAfter : Version) (created createdThere : Instant)
    (messages : List (Nonce × Bytes)) :
    ∃ opened openingKey answered answeringKey frames waiting completed,
      initiate suite k.initiator k.opening id mine peer (suite.publicKey k.responder) version
        created = .ok (opened, openingKey) ∧
      respond suite k.responder k.answering idThere mineThere peerThere
        (suite.publicKey k.initiator) openingKey versionThere createdThere =
          .ok (answered, answeringKey) ∧
      opened.encryptAll suite messages = .ok (frames, waiting) ∧
      frames.length = messages.length ∧ (∀ frame ∈ frames, frame.agreement = .two) ∧
      waiting.accept suite k.initiator answeringKey versionAfter = .ok completed ∧
      answered.peerTwo = opened.myTwo ∧
      opened.myTwo = some (twoChain suite k.initiator k.responder k.opening) ∧
      (twoChain suite k.initiator k.responder k.opening).counter = 1 ∧
      completed.myFour = answered.peerFour ∧
      answered.peerFour = some (fourChain suite k labelFourOut) ∧
      completed.peerFour = answered.myFour ∧
      answered.myFour = some (fourChain suite k labelFourBack) ∧
      ∀ label, (fourChain suite k label).counter = 1 := by
  have meet := contributory.meet agrees
  have initiated := initiate_eq meet.lasting meet.opening id mine peer version created
  have responded := respond_eq meet idThere mineThere peerThere versionThere createdThere
  obtain ⟨frames, myTwo, myFour, encrypted, length, agreements⟩ :=
    encryptAll_two messages (opened_sends k id mine peer version created)
  -- What was sent meanwhile has moved the first chain only, and the answer does not look at it.
  exact ⟨_, _, _, _, frames, _, _, initiated, responded, encrypted, length, agreements,
    accept_eq meet rfl rfl rfl rfl versionAfter, rfl, rfl, rfl, rfl, rfl, rfl, rfl, fun _ => rfl⟩

section Example

theorem plainSecrets_contributory : plainSecrets.Contributory .plain :=
  fun _ _ _ _ none => nomatch none

theorem derives_alike_after_two_frames :
    Suite.plain.Agrees ∧ plainSecrets.Contributory .plain ∧
      ∃ opened openingKey answered answeringKey frames waiting completed,
        initiate .plain plainSecrets.initiator plainSecrets.opening (Block.zero 16)
          Setting.peer.text Setting.us.text plainSecrets.responder .v1_2 (.ofSeconds 0) =
            .ok (opened, openingKey) ∧
        respond .plain plainSecrets.responder plainSecrets.answering (Block.zero 16)
          Setting.us.text Setting.peer.text plainSecrets.initiator openingKey .v1_2
            (.ofSeconds 0) = .ok (answered, answeringKey) ∧
        opened.encryptAll .plain [(Block.zero 24, [1]), (Block.zero 24, [2])] =
          .ok (frames, waiting) ∧
        frames.length = 2 ∧ (∀ frame ∈ frames, frame.agreement = .two) ∧
        waiting.accept .plain plainSecrets.initiator answeringKey .v1_2 = .ok completed ∧
        answered.peerTwo = opened.myTwo ∧ completed.myFour = answered.peerFour ∧
        completed.peerFour = answered.myFour ∧ completed.myFour ≠ completed.peerFour := by
  refine ⟨Suite.plain_agrees, plainSecrets_contributory, ?_⟩
  obtain ⟨opened, openingKey, answered, answeringKey, frames, waiting, completed, initiated,
    responded, encrypted, length, agreements, accepted, two, _, _, out, outward, back, backward,
    _⟩ :=
      derives_alike Suite.plain_agrees plainSecrets_contributory (Block.zero 16) (Block.zero 16)
        Setting.peer.text Setting.us.text Setting.us.text Setting.peer.text .v1_2 .v1_2 .v1_2
        (.ofSeconds 0) (.ofSeconds 0) [(Block.zero 24, [1]), (Block.zero 24, [2])]
  have apart : fourChain .plain plainSecrets labelFourOut ≠
      fourChain .plain plainSecrets labelFourBack := by decide +kernel
  refine ⟨opened, openingKey, answered, answeringKey, frames, waiting, completed, initiated,
    responded, encrypted, length, agreements, accepted, two, out, back, ?_⟩
  rw [out, back, outward, backward]
  exact fun same => apart (Option.some.inj same)

end Example

end Session

end SecureInbox
