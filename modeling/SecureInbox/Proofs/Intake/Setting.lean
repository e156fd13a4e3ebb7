import SecureInbox.Intake.World
import SecureInbox.Proofs.Intake.Handling
import SecureInbox.Proofs.Session.Chains
import SecureInbox.Proofs.Wire.Padding

/-! # A small setting

Two parties, a suite that hides nothing and whose results are short to compute, and a
host that lets everything succeed.  The laws of the library do not mention them; they
show that what the laws suppose can happen. -/
set_option autoImplicit false

namespace SecureInbox

/-- A suite that hides nothing. -/
def Suite.plain : Suite where
  publicKey secret := secret
  agree? secret peer := some (Block.ofNat 32 (secret.toNat + peer.toNat))
  derive salt material info := Block.ofBytes 32 (info ++ salt ++ material)
  mac key message := Block.ofBytes 32 (message ++ key)
  encrypt _ _ plaintext _ := plaintext ++ List.replicate Aead.tagLength 0
  decrypt? _ _ ciphertext _ := some (ciphertext.take (ciphertext.length - Aead.tagLength))

theorem Suite.plain_agrees : Suite.plain.Agrees := by
  intro a b
  simp only [Suite.plain, Nat.add_comm]

theorem Suite.plain_opens : Suite.plain.Opens := by
  intro key nonce plaintext aad
  simp only [Suite.plain, List.length_append, List.length_replicate, Nat.add_sub_cancel,
    List.take_left']

/-- A host that knows one key and draws it too, blocks nobody, has no groups and never fails. -/
def Host.plain (key : Key) : Host Unit where
  call c _ := (match c with
    | .publicKey _ => .ok (some key)
    | .isBlocked _ => .ok false
    | .isMember _ => .ok false
    | .handleGroup _ _ => .ok .declined
    | .change _ => .ok ()
    | .schedule _ => .ok ()
    | .send _ _ => .ok (), ())
  storeFault _ _ := (none, ())
  draw d _ := (match d with
    | .key => key
    | .sessionId => Block.zero 16
    | .nonce => Block.zero 24
    | .padding => Fin.last 254, ())
  now _ := (.ofSeconds 0, ())

def World.plain : World Unit := ⟨(), .empty, .memory .empty, none⟩

/-- What the host answers does not depend on when it is asked. -/
theorem Host.plain_answers {α : Type} (suite : Suite) (key : Key) (script : Script α) :
    ∀ (w : World Unit) (n : Nat) (c : HostCall) (a : Request.Answer (.host c)),
      (script.run suite (.plain key) w).exchanges[n]? = some ⟨.host c, a⟩ →
        a = ((Host.plain key).call c ()).1 := by
  induction script with
  | done value => intro w n c a found; cases found
  | ask request next ih =>
      intro w n c a found
      cases n with
      | zero =>
          cases found
          rfl
      | succ n => exact ih _ _ n c a found

namespace Setting

def us : Identity := ⟨Block.ofBytes 8 (List.replicate 8 0x41), by decide⟩

def peer : Identity := ⟨Block.ofBytes 8 (List.replicate 8 0x42), by decide⟩

def bystander : Identity := ⟨Block.ofBytes 8 (List.replicate 8 0x4D), by decide⟩

def processor : Processor :=
  ⟨⟨.plain, us, Block.ofNat 32 1, .standard⟩, .standard, 1⟩

def peerKey : Key := Block.ofNat 32 2

def message (body : Body) : Message :=
  ⟨Block.zero 8, peer, us, .ofSeconds 0, ⟨0⟩, none, body⟩

def boxed (body : Body) (nonce : Nat) : Boxed :=
  ⟨peer, us, Block.zero 8, .ofSeconds 0, ⟨0⟩, none, none, Block.ofNat 24 nonce,
    Suite.plain.encrypt peerKey (Block.ofNat 24 nonce) (body.toPlaintext 1) []⟩

theorem boxed_opens (body : Body) (nonce : Nat) :
    Suite.plain.boxOpen processor.endpoint.secret peerKey (boxed body nonce).nonce
      (boxed body nonce).content = .ok (body.toPlaintext 1) := by
  have opens : ∀ key, Suite.plain.decrypt? key (boxed body nonce).nonce (boxed body nonce).content [] =
      some (body.toPlaintext 1) := fun key =>
    Suite.plain_opens key (Block.ofNat 24 nonce) (body.toPlaintext 1) []
  unfold Suite.boxOpen
  simp only [opens]
  rfl

theorem unpadded (body : Body) : Padding.decode (body.toPlaintext 1) = .ok (body.typeByte, body.content) :=
  Padding.decode_encode (by decide) (by decide) _ _

theorem opening_boxed {body : Body} (survives : body.Survives)
    (known : ∀ typeByte content, body ≠ .unknown typeByte content) (nonce : Nat) :
    processor.opening (boxed body nonce) peerKey = .ok (message body) := by
  have opened : (boxed body nonce).message processor.endpoint.suite processor.endpoint.secret peerKey =
      .ok (message body) := by
    refine (Boxed.message_of_unpadded (boxed_opens body nonce) (unpadded body)).trans ?_
    rw [show Body.decode body.typeByte body.content = .ok body from survives]
    rfl
  exact Processor.opening_known rfl opened known

def isCarried (e : Envelope) : Bool :=
  match Body.decode (Body.envelope e).encode.1 (Body.envelope e).encode.2 with
  | .ok (.envelope other) => other == e
  | _ => false

theorem survives_envelope {e : Envelope} (carried : isCarried e = true) :
    (Body.envelope e).Survives := by
  unfold isCarried at carried
  unfold Body.Survives
  split at carried
  · next other decoded => rw [decoded, eq_of_beq carried]
  · cases carried

def deliver (w : World Unit) (b : Boxed) : Ran Unit ProcessResult :=
  (processor.process b).run processor.endpoint.suite (.plain peerKey) w

def isProcessed : ProcessResult → Bool
  | .ok (.processed _) => true
  | _ => false

def isProcessedAs (isKind : Body → Bool) : ProcessResult → Bool
  | .ok (.processed m) => isKind m.body
  | _ => false

def isDropped (reason : DropReason) : ProcessResult → Bool
  | .ok (.dropped other) => other == reason
  | _ => false

def asksRetry : ProcessResult → Bool
  | .error e => e.disposition == .retry
  | .ok _ => false

def isRefused : ProcessResult → Bool
  | .error (.refused _) => true
  | _ => false

theorem exists_refused {r : ProcessResult} (h : isRefused r = true) :
    ∃ reason, r = .error (.refused reason) := by
  cases r with
  | error e => cases e <;> first | exact ⟨_, rfl⟩ | cases h
  | ok outcome => cases h

theorem exists_processed {r : ProcessResult} (h : isProcessed r = true) :
    ∃ m, r = .ok (.processed m) := by
  cases r with
  | error e => cases h
  | ok outcome =>
      cases outcome with
      | processed m => exact ⟨m, rfl⟩
      | dropped reason => cases h

theorem exists_processedAs {isKind : Body → Bool} {r : ProcessResult}
    (h : isProcessedAs isKind r = true) : ∃ m, r = .ok (.processed m) ∧ isKind m.body = true := by
  cases r with
  | error e => cases h
  | ok outcome =>
      cases outcome with
      | processed m => exact ⟨m, rfl, h⟩
      | dropped reason => cases h

theorem exists_retry {r : ProcessResult} (h : asksRetry r = true) :
    ∃ e, r = .error e ∧ e.disposition = .retry := by
  cases r with
  | error e => exact ⟨e, rfl, eq_of_beq h⟩
  | ok outcome => cases h

theorem eq_dropped (reason : DropReason) {r : ProcessResult} (h : isDropped reason r = true) :
    r = .ok (.dropped reason) := by
  cases r with
  | error e => cases h
  | ok outcome =>
      cases outcome with
      | processed m => cases h
      | dropped other => rw [show other = reason from eq_of_beq h]

end Setting

def plainSecrets : Session.Secrets :=
  ⟨Setting.peerKey, Block.ofNat 32 1, Block.ofNat 32 3, Block.ofNat 32 4⟩

def plainSession : Session :=
  .answered .plain plainSecrets (Block.zero 16) Setting.us.text Setting.peer.text .v1_2 (.ofSeconds 0)

end SecureInbox
