import Mathlib.Logic.ExistsUnique
import SecureInbox.Proofs.Session.Spending

/-! # The shapes of a session

Role and state of a session say which of its five secrets are there, and there are no more
than four combinations (`Shape`).  A session has one of them when it is made
(`initiate_ok`, `respond_ok`); after that it moves from `waiting` to `completed` by the
peer's answer (`accept_ok`), from `answering` to `established` by the first frame that shows
that the answer has arrived (`Trial.isOf`), and keeps its shape otherwise.

`Trial` lists what can come of trying to open a frame, and `decrypt_trial` says that there is
nothing else. -/
set_option autoImplicit false

namespace SecureInbox

theorem exists_of_bind_ok {ε α β : Type} {x : Except ε α} {f : α → Except ε β} {b : β}
    (bound : x >>= f = .ok b) : ∃ a, x = .ok a ∧ f a = .ok b := by
  cases x with
  | error error => cases bound
  | ok a => exact ⟨a, rfl, bound⟩

theorem Suite.unwrap_error {suite : Suite} {key : Key} {wrapped aad : Bytes} {e : CryptoError}
    (failed : suite.unwrap key wrapped aad = .error e) : e = .notAuthentic := by
  unfold Suite.unwrap at failed
  split at failed
  · exact (Except.error.inj failed).symm
  · split at failed
    · cases failed
    · exact (Except.error.inj failed).symm

structure Holdings where
  ephemeral : Bool
  myTwo : Bool
  myFour : Bool
  peerTwo : Bool
  peerFour : Bool
deriving DecidableEq

inductive Shape where
  /-- Our opening frame is out, and the answer is not there. -/
  | waiting
  | completed
  /-- The peer's opening frame is answered, and the peer may not know it yet. -/
  | answering
  | established
deriving DecidableEq

namespace Shape

def role : Shape → SessionRole
  | .waiting => .initiator
  | .completed => .initiator
  | .answering => .responder
  | .established => .responder

def state : Shape → SessionState
  | .waiting => .l20
  | .completed => .l40
  | .answering => .l20
  | .established => .l40

def holdings : Shape → Holdings
  | .waiting => ⟨true, true, false, false, false⟩
  | .completed => ⟨false, false, true, false, true⟩
  | .answering => ⟨false, false, true, true, true⟩
  | .established => ⟨false, false, true, false, true⟩

theorem eq_of_standing {a b : Shape} (role : a.role = b.role) (state : a.state = b.state) : a = b := by
  revert role state
  cases a <;> cases b <;> decide

end Shape

namespace Session

def holdings (s : Session) : Holdings :=
  ⟨s.ephemeralSecret.isSome, s.myTwo.isSome, s.myFour.isSome, s.peerTwo.isSome, s.peerFour.isSome⟩

structure IsOf (s : Session) (shape : Shape) : Prop where
  role : s.role = shape.role
  state : s.state = shape.state
  holdings : s.holdings = shape.holdings

namespace IsOf

variable {s : Session}

theorem unique {a b : Shape} (first : s.IsOf a) (second : s.IsOf b) : a = b :=
  Shape.eq_of_standing (first.role.symm.trans second.role) (first.state.symm.trans second.state)

theorem existsUnique {shape : Shape} (is : s.IsOf shape) : ∃! shape, s.IsOf shape :=
  ⟨shape, is, fun _ other => other.unique is⟩

theorem myFour {shape : Shape} (is : s.IsOf shape) : s.myFour.isSome = shape.holdings.myFour :=
  congrArg Holdings.myFour is.holdings

theorem peerTwo {shape : Shape} (is : s.IsOf shape) : s.peerTwo.isSome = shape.holdings.peerTwo :=
  congrArg Holdings.peerTwo is.holdings

theorem peerFour {shape : Shape} (is : s.IsOf shape) : s.peerFour.isSome = shape.holdings.peerFour :=
  congrArg Holdings.peerFour is.holdings

theorem waits {shape : Shape} (is : s.IsOf shape) (role : s.role = .initiator) (state : s.state = .l20) :
    shape = .waiting :=
  Shape.eq_of_standing (is.role.symm.trans role) (is.state.symm.trans state)

/-- Who waits for an answer can open nothing yet. -/
theorem peerRatchet_none (is : s.IsOf .waiting) (agreement : Agreement) :
    s.peerRatchet agreement = none := by
  cases agreement with
  | two => exact Option.isNone_iff_eq_none.mp (Option.isSome_eq_false_iff.mp is.peerTwo)
  | four => exact Option.isNone_iff_eq_none.mp (Option.isSome_eq_false_iff.mp is.peerFour)

end IsOf

variable {suite : Suite} {s t : Session} {version : Version}

/-! ## Making, answering and completing -/

theorem initiate_ok {secret ephemeral : Key} {id : SessionId} {mine peer : String} {peerKey key : Key}
    {created : Instant}
    (opened : initiate suite secret ephemeral id mine peer peerKey version created = .ok (s, key)) :
    s.IsOf .waiting ∧ s.fileKey = ⟨mine, peer, id⟩ ∧ s.version = version := by
  obtain ⟨ss, _, opened⟩ := exists_of_bind_ok opened
  obtain ⟨es, _, opened⟩ := exists_of_bind_ok opened
  cases opened
  exact ⟨⟨rfl, rfl, rfl⟩, rfl, rfl⟩

theorem respond_ok {secret ephemeral : Key} {id : SessionId} {mine peer : String}
    {peerKey peerEphemeral key : Key} {created : Instant}
    (answered : respond suite secret ephemeral id mine peer peerKey peerEphemeral version created =
      .ok (s, key)) :
    s.IsOf .answering ∧ s.fileKey = ⟨mine, peer, id⟩ ∧ s.version = version := by
  obtain ⟨ss, _, answered⟩ := exists_of_bind_ok answered
  obtain ⟨se, _, answered⟩ := exists_of_bind_ok answered
  obtain ⟨es, _, answered⟩ := exists_of_bind_ok answered
  obtain ⟨ee, _, answered⟩ := exists_of_bind_ok answered
  cases answered
  exact ⟨⟨rfl, rfl, rfl⟩, rfl, rfl⟩

/-- Only a session that waits is completed, and it gets chains where it had none. -/
theorem accept_ok {secret peerEphemeral : Key}
    (accepted : s.accept suite secret peerEphemeral version = .ok t) :
    s.role = .initiator ∧ s.state = .l20 ∧ ∃ out back,
      t = { s with
        myFour := some out, peerFour := some back, myTwo := none, ephemeralSecret := none
        version, state := .l40 } := by
  unfold accept at accepted
  by_cases other : s.role ≠ .initiator ∨ s.state ≠ .l20
  · rw [if_pos other] at accepted
    cases accepted
  · rw [if_neg other] at accepted
    cases secret : s.ephemeralSecret with
    | none =>
        rw [secret] at accepted
        cases accepted
    | some ephemeral =>
        rw [secret] at accepted
        obtain ⟨ss, _, accepted⟩ := exists_of_bind_ok accepted
        obtain ⟨se, _, accepted⟩ := exists_of_bind_ok accepted
        obtain ⟨es, _, accepted⟩ := exists_of_bind_ok accepted
        obtain ⟨ee, _, accepted⟩ := exists_of_bind_ok accepted
        obtain ⟨role, state⟩ := not_or.mp other
        cases accepted
        exact ⟨Decidable.not_not.mp role, Decidable.not_not.mp state, _, _, rfl⟩

theorem IsOf.accepts {shape : Shape} (is : s.IsOf shape) {secret peerEphemeral : Key}
    (accepted : s.accept suite secret peerEphemeral version = .ok t) : t.IsOf .completed := by
  obtain ⟨role, state, out, back, rfl⟩ := accept_ok accepted
  obtain rfl := is.waits role state
  have two : s.peerTwo = none := is.peerRatchet_none .two
  refine ⟨role, rfl, ?_⟩
  show Holdings.mk false false true s.peerTwo.isSome true = _
  rw [two]
  rfl

/-! ## Protecting -/

/-- A frame is one of the four-party chain as soon as there is that chain. -/
theorem encrypt_ok {nonce : Nonce} {plaintext : Bytes} {sealed : Protected}
    (encrypted : s.encrypt suite nonce plaintext = .ok (sealed, t)) :
    t = { s with myTwo := t.myTwo, myFour := t.myFour } ∧ t.myTwo.isSome = s.myTwo.isSome ∧
      (s.myFour = none ∧ t.myFour = none ∧ sealed.agreement = .two ∨
        s.myFour.isSome = true ∧ t.myFour.isSome = true ∧ sealed.agreement = .four) := by
  unfold encrypt at encrypted
  cases four : s.myFour with
  | some r =>
      rw [four] at encrypted
      cases encrypted
      exact ⟨rfl, rfl, .inr ⟨rfl, rfl, rfl⟩⟩
  | none =>
      cases two : s.myTwo with
      | some r =>
          rw [four, two] at encrypted
          cases encrypted
          exact ⟨rfl, rfl, .inl ⟨rfl, rfl, rfl⟩⟩
      | none =>
          rw [four, two] at encrypted
          cases encrypted

theorem IsOf.encrypts {shape : Shape} (is : s.IsOf shape) {nonce : Nonce} {plaintext : Bytes}
    {sealed : Protected} (encrypted : s.encrypt suite nonce plaintext = .ok (sealed, t)) :
    t.IsOf shape := by
  obtain ⟨same, two, agreement⟩ := encrypt_ok encrypted
  have four : t.myFour.isSome = s.myFour.isSome := by
    rcases agreement with ⟨before, after, _⟩ | ⟨before, after, _⟩
    · rw [before, after]
    · rw [before, after]
  have holdings : t.holdings = s.holdings := by
    unfold Session.holdings
    rw [two, four, same]
  rw [same] at holdings ⊢
  exact ⟨is.role, is.state, holdings.trans is.holdings⟩

/-! ## Trying to open -/

inductive Trial (suite : Suite) (s : Session) (frame : Protected) (maxSkip : UInt64) :
    Except CryptoError Bytes → Session → Prop where
  | missing (none : s.peerRatchet frame.agreement = none) :
      Trial suite s frame maxSkip (.error (missing frame.agreement)) s
  /-- The counter is behind the chain, or too far ahead. -/
  | refused (r : Ratchet) (e : CryptoError) (found : s.peerRatchet frame.agreement = some r)
      (turned : r.turnUntil suite frame.counter maxSkip = .error e) :
      Trial suite s frame maxSkip (.error e) s
  | forged (r next : Ratchet) (turns : UInt64) (found : s.peerRatchet frame.agreement = some r)
      (turned : r.turnUntil suite frame.counter maxSkip = .ok (turns, next))
      (locked : suite.unwrap (next.key suite) frame.ciphertext s.id.bytes = .error .notAuthentic) :
      Trial suite s frame maxSkip (.error .notAuthentic) (s.setPeerRatchet frame.agreement next)
  | opened (r next : Ratchet) (turns : UInt64) (plaintext : Bytes)
      (found : s.peerRatchet frame.agreement = some r)
      (turned : r.turnUntil suite frame.counter maxSkip = .ok (turns, next))
      (unlocked : suite.unwrap (next.key suite) frame.ciphertext s.id.bytes = .ok plaintext) :
      Trial suite s frame maxSkip (.ok plaintext)
        (confirm frame.agreement (s.setPeerRatchet frame.agreement (next.turn suite)))

variable {frame : Protected} {maxSkip : UInt64} {result : Except CryptoError Bytes}

theorem decrypt_trial (decrypted : s.decrypt suite frame maxSkip = (result, t)) :
    Trial suite s frame maxSkip result t := by
  unfold decrypt at decrypted
  split at decrypted
  · next none =>
    cases decrypted
    exact .missing none
  · next r found =>
    split at decrypted
    · next e turned =>
      cases decrypted
      exact .refused r e found turned
    · next turns next turned =>
      split at decrypted
      · next e locked =>
        obtain rfl := Suite.unwrap_error locked
        cases decrypted
        exact .forged r next turns found turned locked
      · next plaintext unlocked =>
        cases decrypted
        exact .opened r next turns plaintext found turned unlocked

theorem IsOf.setPeerRatchet {shape : Shape} (is : s.IsOf shape) {agreement : Agreement} {r : Ratchet}
    (found : s.peerRatchet agreement = some r) (next : Ratchet) :
    (s.setPeerRatchet agreement next).IsOf shape := by
  have holdings : (s.setPeerRatchet agreement next).holdings = s.holdings := by
    cases agreement with
    | two =>
        have there : s.peerTwo = some r := found
        unfold Session.holdings
        rw [there]
        rfl
    | four =>
        have there : s.peerFour = some r := found
        unfold Session.holdings
        rw [there]
        rfl
  cases agreement <;> exact ⟨is.role, is.state, holdings.trans is.holdings⟩

/-- A frame leaves a session its shape, or shows that our answer has arrived. -/
theorem Trial.isOf {shape : Shape} (is : s.IsOf shape) (trial : Trial suite s frame maxSkip result t) :
    t.IsOf shape ∨ shape = .answering ∧ t.IsOf .established := by
  cases trial with
  | missing none => exact .inl is
  | refused r e found turned => exact .inl is
  | forged r next turns found turned locked => exact .inl (is.setPeerRatchet found next)
  | opened r next turns plaintext found turned unlocked =>
      have moved := is.setPeerRatchet found (next.turn suite)
      unfold confirm
      split
      · next confirms =>
        obtain ⟨_, role, state⟩ := confirms
        obtain rfl : shape = .answering := Shape.eq_of_standing (moved.role.symm.trans role)
          (moved.state.symm.trans state)
        have holdings := moved.holdings
        refine .inr ⟨rfl, moved.role, rfl, ?_⟩
        simp only [Session.holdings, Shape.holdings, Holdings.mk.injEq] at holdings ⊢
        obtain ⟨ephemeral, two, four, _, peerFour⟩ := holdings
        exact ⟨ephemeral, two, four, rfl, peerFour⟩
      · exact .inl moved

end Session

end SecureInbox
