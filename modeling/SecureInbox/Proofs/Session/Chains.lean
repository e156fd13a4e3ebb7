import SecureInbox.Proofs.Session.Spending

/-! # Chains and positions

`Chains` are the fresh chains of one direction of a session, and a `Position` is a number
of steps on one of them.  A sender stands at a position (`Sends`), a receiver at another
(`Receives`), and a frame is made at one (`Seals`).  A frame that is made anywhere from
where its receiver stands, and not too far away, is opened (`decrypt_sealed`).

`initiate_eq`, `respond_eq` and `accept_eq` say that both ends compute the same chains,
when key agreement gives the same to both. -/
set_option autoImplicit false

namespace SecureInbox

structure Position where
  agreement : Agreement
  steps : Nat

namespace Position

def le (p q : Position) : Prop :=
  match p.agreement, q.agreement with
  | .two, .four => True
  | .four, .two => False
  | _, _ => p.steps ≤ q.steps

def next (p : Position) : Position := ⟨p.agreement, p.steps + 1⟩

def Fits (p : Position) : Prop := p.steps + 1 < UInt64.size

theorem fits_start (agreement : Agreement) : Fits ⟨agreement, 0⟩ := by
  show 0 + 1 < UInt64.size
  decide

theorem le_refl (p : Position) : p.le p := by
  obtain ⟨agreement, steps⟩ := p
  cases agreement <;> exact Nat.le_refl _

theorem le_next (p : Position) : p.le p.next := by
  obtain ⟨agreement, steps⟩ := p
  cases agreement <;> exact Nat.le_succ _

theorem le_trans {p q r : Position} (first : p.le q) (second : q.le r) : p.le r := by
  obtain ⟨a, m⟩ := p
  obtain ⟨b, n⟩ := q
  obtain ⟨c, k⟩ := r
  cases a <;> cases b <;> cases c <;>
    first | trivial | exact first.elim | exact second.elim | exact Nat.le_trans first second

theorem next_le_iff {p q : Position} : p.next.le q ↔ p.le q ∧ p ≠ q := by
  obtain ⟨a, m⟩ := p
  obtain ⟨b, n⟩ := q
  have same : ∀ c, (⟨c, m⟩ : Position) ≠ ⟨c, n⟩ ↔ m ≠ n := fun c => by
    rw [ne_eq, Position.mk.injEq, and_iff_right rfl]
  cases a with
  | two =>
      cases b with
      | two =>
          rw [same]
          exact Nat.lt_iff_le_and_ne
      | four => exact ⟨fun _ => ⟨trivial, fun other => nomatch other⟩, fun _ => trivial⟩
  | four =>
      cases b with
      | two => exact ⟨False.elim, fun both => both.1⟩
      | four =>
          rw [same]
          exact Nat.lt_iff_le_and_ne

/-- How many steps lead from where a receiver stands to a position that is not behind. -/
def lead (p q : Position) : Nat := if p.agreement = q.agreement then q.steps - p.steps else q.steps

end Position

structure Chains where
  two : Option Ratchet
  four : Option Ratchet

namespace Chains

def get (chains : Chains) : Agreement → Option Ratchet
  | .two => chains.two
  | .four => chains.four

def Fresh (chains : Chains) : Prop := ∀ a base, chains.get a = some base → base.counter = 1

def le (chains more : Chains) : Prop := ∀ a base, chains.get a = some base → more.get a = some base

theorem le_refl (chains : Chains) : chains.le chains := fun _ _ => id

variable (suite : Suite) (chains : Chains)

def Sends (s : Session) (p : Position) : Prop :=
  ∃ base, chains.get p.agreement = some base ∧
    match p.agreement with
    | .two => s.myFour = none ∧ s.myTwo = some (base.advance suite p.steps)
    | .four => s.myFour = some (base.advance suite p.steps)

def Receives (s : Session) (p : Position) : Prop :=
  match p.agreement with
  | .two => s.role = .responder ∧ s.state = .l20 ∧
      s.peerTwo = chains.two.map (·.advance suite p.steps) ∧ s.peerFour = chains.four
  | .four => s.state = .l40 ∧ s.peerFour = chains.four.map (·.advance suite p.steps)

/-- What is made at a position from a plaintext. -/
def Seals (id : SessionId) (p : Position) (plaintext : Bytes) (sealed : Session.Protected) : Prop :=
  ∃ base nonce, chains.get p.agreement = some base ∧
    sealed = ⟨p.agreement, (base.advance suite p.steps).counter,
      suite.wrap ((base.advance suite p.steps).key suite) nonce plaintext id.bytes⟩

variable {suite chains}

theorem Seals.mono {more : Chains} {id : SessionId} {p : Position} {plaintext : Bytes}
    {sealed : Session.Protected} (seals : chains.Seals suite id p plaintext sealed)
    (le : chains.le more) : more.Seals suite id p plaintext sealed := by
  obtain ⟨base, nonce, found, made⟩ := seals
  exact ⟨base, nonce, le _ _ found, made⟩

theorem Sends.mono {more : Chains} {s : Session} {p : Position} (sends : chains.Sends suite s p)
    (le : chains.le more) : more.Sends suite s p := by
  obtain ⟨base, found, standing⟩ := sends
  exact ⟨base, le _ _ found, standing⟩

/-! ## Sealing -/

/-- A frame is made where the sender stands, and moves it by one step. -/
theorem encrypt_sends {s : Session} {p : Position} (sends : chains.Sends suite s p) (nonce : Nonce)
    (plaintext : Bytes) :
    ∃ sealed myTwo myFour, s.encrypt suite nonce plaintext =
        .ok (sealed, { s with myTwo := myTwo, myFour := myFour }) ∧
      chains.Seals suite s.id p plaintext sealed ∧
      chains.Sends suite { s with myTwo := myTwo, myFour := myFour } p.next := by
  obtain ⟨agreement, steps⟩ := p
  obtain ⟨base, found, standing⟩ := sends
  cases agreement with
  | two =>
      obtain ⟨noFour, two⟩ := standing
      refine ⟨_, some ((base.advance suite steps).turn suite), s.myFour, ?_,
        ⟨base, nonce, found, rfl⟩, base, found, noFour, ?_⟩
      · unfold Session.encrypt
        rw [noFour, two]
      · rw [Ratchet.advance_turn]
        rfl
  | four =>
      refine ⟨_, s.myTwo, some ((base.advance suite steps).turn suite), ?_,
        ⟨base, nonce, found, rfl⟩, base, found, ?_⟩
      · unfold Session.encrypt
        rw [show s.myFour = some _ from standing]
      · rw [Ratchet.advance_turn]
        rfl

/-! ## Opening -/

/-- A frame that is ahead of a receiving ratchet, and not too far. -/
theorem decrypt_ahead (opens : suite.Opens) {s : Session} {base : Ratchet} (fresh : base.counter = 1)
    {agreement : Agreement} {m n : Nat}
    (found : s.peerRatchet agreement = some (base.advance suite m)) (le : m ≤ n)
    (fits : n + 1 < UInt64.size) {maxSkip : UInt64} (near : n - m ≤ maxSkip.toNat) (nonce : Nonce)
    (plaintext : Bytes) :
    s.decrypt suite ⟨agreement, (base.advance suite n).counter,
        suite.wrap ((base.advance suite n).key suite) nonce plaintext s.id.bytes⟩ maxSkip =
      (.ok plaintext,
        Session.confirm agreement
          (s.setPeerRatchet agreement (base.advance suite (n + 1)))) := by
  unfold Session.decrypt
  simp only [found, Ratchet.turnUntil_ahead suite fresh le fits near,
    Suite.unwrap_wrap opens, Ratchet.advance_turn]

/-- How far a frame is ahead of the ratchet that would open it. -/
def Near (s : Session) (sealed : Session.Protected) (maxSkip : UInt64) : Prop :=
  ∀ r, s.peerRatchet sealed.agreement = some r →
    sealed.counter.toNat ≤ r.counter.toNat + maxSkip.toNat

theorem near_iff {s : Session} {base : Ratchet} (fresh : base.counter = 1) {p : Position}
    (fits : p.Fits) {m : Nat} (le : m ≤ p.steps)
    (found : s.peerRatchet p.agreement = some (base.advance suite m)) (ciphertext : Bytes)
    (maxSkip : UInt64) :
    Near s ⟨p.agreement, (base.advance suite p.steps).counter, ciphertext⟩ maxSkip ↔
      p.steps - m ≤ maxSkip.toNat := by
  have fitsLeft : m + 1 < UInt64.size := Nat.lt_of_le_of_lt (Nat.succ_le_succ le) fits
  have counter := Ratchet.toNat_counter suite fresh fits
  have behind := Ratchet.toNat_counter suite fresh fitsLeft
  constructor
  · intro near
    have bound := near _ found
    rw [counter, behind] at bound
    omega
  · intro bound r other
    obtain rfl : base.advance suite m = r := Option.some.inj (found.symm.trans other)
    rw [counter, behind]
    omega

theorem confirm_established {s : Session} (established : s.state = .l40) (agreement : Agreement) :
    s.confirm agreement = s := by
  rw [Session.confirm, established]
  exact if_neg fun unconfirmed => nomatch unconfirmed.2.2

/-- The ratchet that opens a frame from where the receiver stands or from further on. -/
theorem Receives.ratchet {s : Session} {p q : Position} {base : Ratchet}
    (receives : chains.Receives suite s p) (le : p.le q) (chain : chains.get q.agreement = some base) :
    ∃ m, m ≤ q.steps ∧ p.lead q = q.steps - m ∧
      s.peerRatchet q.agreement = some (base.advance suite m) := by
  obtain ⟨a, m⟩ := p
  obtain ⟨b, n⟩ := q
  cases a with
  | two =>
      obtain ⟨_, _, two, four⟩ := receives
      cases b with
      | two =>
          refine ⟨m, le, rfl, ?_⟩
          rw [Session.peerRatchet, two, show chains.two = some base from chain]
          rfl
      | four =>
          refine ⟨0, Nat.zero_le n, rfl, ?_⟩
          rw [Session.peerRatchet, four, show chains.four = some base from chain]
          rfl
  | four =>
      obtain ⟨_, four⟩ := receives
      cases b with
      | two => exact le.elim
      | four =>
          refine ⟨m, le, rfl, ?_⟩
          rw [Session.peerRatchet, four, show chains.four = some base from chain]
          rfl

theorem Receives.near_iff {s : Session} {p q : Position} (receives : chains.Receives suite s p)
    (fresh : chains.Fresh) (le : p.le q) (fits : q.Fits) {id : SessionId} {plaintext : Bytes}
    {sealed : Session.Protected} (seals : chains.Seals suite id q plaintext sealed)
    (maxSkip : UInt64) : Near s sealed maxSkip ↔ p.lead q ≤ maxSkip.toNat := by
  obtain ⟨base, nonce, chain, rfl⟩ := seals
  obtain ⟨m, before, lead, found⟩ := receives.ratchet le chain
  rw [lead]
  exact Chains.near_iff (fresh _ _ chain) fits before found _ maxSkip

/-- What opening a frame of the chain makes of a receiver. -/
theorem Receives.advance {s : Session} {p q : Position} {base : Ratchet}
    (receives : chains.Receives suite s p) (le : p.le q) (chain : chains.get q.agreement = some base) :
    ∃ state peerTwo peerFour,
      Session.confirm q.agreement (s.setPeerRatchet q.agreement (base.advance suite (q.steps + 1))) =
        { s with state := state, peerTwo := peerTwo, peerFour := peerFour } ∧
      chains.Receives suite { s with state := state, peerTwo := peerTwo, peerFour := peerFour }
        q.next ∧
      (q.agreement = .four → (p.agreement = .four → s.peerTwo = none) → peerTwo = none) := by
  obtain ⟨a, m⟩ := p
  obtain ⟨b, n⟩ := q
  cases a with
  | two =>
      obtain ⟨role, state, two, four⟩ := receives
      cases b with
      | two =>
          refine ⟨s.state, some (base.advance suite (n + 1)), s.peerFour, rfl,
            ⟨role, state, ?_, four⟩, fun other => nomatch other⟩
          rw [show chains.two = some base from chain]
          rfl
      | four =>
          refine ⟨.l40, none, some (base.advance suite (n + 1)), ?_, ⟨rfl, ?_⟩, fun _ _ => rfl⟩
          · simp only [Session.confirm, Session.setPeerRatchet, role, state, and_self, if_true]
          · rw [show chains.four = some base from chain]
            rfl
  | four =>
      obtain ⟨state, four⟩ := receives
      cases b with
      | two => exact le.elim
      | four =>
          refine ⟨s.state, s.peerTwo, some (base.advance suite (n + 1)), ?_, ⟨state, ?_⟩,
            fun _ dropped => dropped rfl⟩
          · exact confirm_established (s := s.setPeerRatchet .four _) state _
          · rw [show chains.four = some base from chain]
            rfl

/-- A frame from where the receiver stands, or from further on, is opened and moves the
receiver past it. -/
theorem decrypt_sealed (opens : suite.Opens) (fresh : chains.Fresh) {s : Session} {p q : Position}
    (receives : chains.Receives suite s p) (le : p.le q) (fits : q.Fits) {plaintext : Bytes}
    {sealed : Session.Protected} (seals : chains.Seals suite s.id q plaintext sealed)
    {maxSkip : UInt64} (near : Near s sealed maxSkip) :
    ∃ state peerTwo peerFour, s.decrypt suite sealed maxSkip =
        (.ok plaintext, { s with state := state, peerTwo := peerTwo, peerFour := peerFour }) ∧
      chains.Receives suite { s with state := state, peerTwo := peerTwo, peerFour := peerFour }
        q.next ∧
      (q.agreement = .four → (p.agreement = .four → s.peerTwo = none) → peerTwo = none) := by
  have bound := (receives.near_iff fresh le fits seals maxSkip).mp near
  obtain ⟨base, nonce, chain, rfl⟩ := seals
  obtain ⟨m, before, lead, found⟩ := receives.ratchet le chain
  obtain ⟨state, peerTwo, peerFour, moved, receivesNext⟩ := receives.advance le chain
  refine ⟨state, peerTwo, peerFour, ?_, receivesNext⟩
  rw [lead] at bound
  rw [decrypt_ahead opens (fresh _ _ chain) found before fits bound, moved]

/-- A frame that the receiver has passed, or that is too far away, is not opened. -/
theorem decrypt_lost (fresh : chains.Fresh) {s : Session} {p q : Position}
    (receives : chains.Receives suite s p) (dropped : p.agreement = .four → s.peerTwo = none)
    (fitsHere : p.Fits) (fits : q.Fits) {id : SessionId} {plaintext : Bytes}
    {sealed : Session.Protected} (seals : chains.Seals suite id q plaintext sealed)
    {maxSkip : UInt64} (lost : ¬p.le q ∨ maxSkip.toNat < p.lead q) :
    ∃ e, s.decrypt suite sealed maxSkip = (.error e, s) := by
  obtain ⟨base, nonce, chain, rfl⟩ := seals
  have counter := fresh _ _ chain
  -- The ratchet may be missing, or refuse to turn.
  by_cases le : p.le q
  · obtain ⟨m, before, lead, found⟩ := receives.ratchet le chain
    have far : maxSkip.toNat < q.steps - m := lead ▸ lost.resolve_left (not_not_intro le)
    exact ⟨_, Session.decrypt_refused found (Ratchet.turnUntil_far suite counter fits far)⟩
  · obtain ⟨a, m⟩ := p
    obtain ⟨b, n⟩ := q
    cases a with
    | two =>
        cases b with
        | two =>
            obtain ⟨_, _, two, _⟩ := receives
            have found : s.peerRatchet .two = some (base.advance suite m) := by
              rw [Session.peerRatchet, two, show chains.two = some base from chain]
              rfl
            exact ⟨_, Session.decrypt_refused found
              (Ratchet.turnUntil_behind suite counter maxSkip (Nat.lt_of_not_le le) fitsHere)⟩
        | four => exact (le trivial).elim
    | four =>
        cases b with
        | two =>
            refine ⟨Session.missing .two, ?_⟩
            unfold Session.decrypt
            rw [show s.peerRatchet .two = none from dropped rfl]
        | four =>
            obtain ⟨_, four⟩ := receives
            have found : s.peerRatchet .four = some (base.advance suite m) := by
              rw [Session.peerRatchet, four, show chains.four = some base from chain]
              rfl
            exact ⟨_, Session.decrypt_refused found
              (Ratchet.turnUntil_behind suite counter maxSkip (Nat.lt_of_not_le le) fitsHere)⟩

/-- A receiver does not wait for an answer. -/
theorem Receives.ready {s : Session} {p : Position} (receives : chains.Receives suite s p) :
    ¬(s.role = .initiator ∧ s.state = .l20) := by
  obtain ⟨agreement, steps⟩ := p
  rintro ⟨initiator, waiting⟩
  cases agreement with
  | two =>
      rw [show s.role = .responder from receives.1] at initiator
      cases initiator
  | four =>
      rw [show s.state = .l40 from receives.1] at waiting
      cases waiting

end Chains

/-! ## Agreed chains -/

/-- Key agreement gives the same to both holders of two of the given secrets. -/
def Suite.Shares (suite : Suite) (secrets : Key → Prop) : Prop :=
  ∀ a b, secrets a → secrets b → ∃ shared,
    suite.agree? a (suite.publicKey b) = some shared ∧
      suite.agree? b (suite.publicKey a) = some shared

/-- Whether the holders of two secrets get the same from key agreement, and get something. -/
def Suite.Meet (suite : Suite) (a b : Key) : Prop :=
  ∃ shared, suite.agree? a (suite.publicKey b) = some shared ∧
    suite.agree? b (suite.publicKey a) = some shared

def Suite.shared (suite : Suite) (a b : Key) : Key := (suite.agree? a (suite.publicKey b)).getD default

namespace Session

/-- The four secrets of a session: the lasting ones of initiator and responder, and the
ones that each of them drew. -/
structure Secrets where
  initiator : Key
  responder : Key
  opening : Key
  answering : Key

structure Secrets.Meet (suite : Suite) (k : Secrets) : Prop where
  lasting : suite.Meet k.initiator k.responder
  opening : suite.Meet k.opening k.responder
  answering : suite.Meet k.initiator k.answering
  drawn : suite.Meet k.opening k.answering

variable {suite : Suite}

theorem agree_eq {a b : Key} (meet : suite.Meet a b) (owner : KeyOwner) :
    suite.agree owner a (suite.publicKey b) = .ok (suite.shared a b) := by
  obtain ⟨shared, agreed, _⟩ := meet
  rw [Suite.agree, Suite.shared, agreed]
  rfl

/-- The other one gets the same. -/
theorem agree_eq_other {a b : Key} (meet : suite.Meet a b) (owner : KeyOwner) :
    suite.agree owner b (suite.publicKey a) = .ok (suite.shared a b) := by
  obtain ⟨shared, here, there⟩ := meet
  rw [Suite.agree, Suite.shared, here, there]
  rfl

def twoChain (suite : Suite) (initiator responder opening : Key) : Ratchet :=
  chain suite [suite.shared initiator responder, suite.shared opening responder] labelTwo

def fourChain (suite : Suite) (k : Secrets) (label : Bytes) : Ratchet :=
  chain suite [suite.shared k.initiator k.responder, suite.shared k.initiator k.answering,
    suite.shared k.opening k.responder, suite.shared k.opening k.answering] label

def outward (suite : Suite) (k : Secrets) : Chains :=
  ⟨some (twoChain suite k.initiator k.responder k.opening), some (fourChain suite k labelFourOut)⟩

def backward (suite : Suite) (k : Secrets) : Chains := ⟨none, some (fourChain suite k labelFourBack)⟩

def opened (suite : Suite) (initiator responder opening : Key) (id : SessionId)
    (mine peer : String) (version : Version) (created : Instant) : Session :=
  { id, mine, peer, peerKey := suite.publicKey responder, role := .initiator, state := .l20, version
    ephemeralSecret := some opening, myTwo := some (twoChain suite initiator responder opening)
    myFour := none, peerTwo := none, peerFour := none, created }

def answered (suite : Suite) (k : Secrets) (id : SessionId) (mine peer : String) (version : Version)
    (created : Instant) : Session :=
  { id, mine, peer, peerKey := suite.publicKey k.initiator, role := .responder, state := .l20, version
    ephemeralSecret := none, myTwo := none, myFour := (backward suite k).four
    peerTwo := (outward suite k).two, peerFour := (outward suite k).four, created }

def completed (suite : Suite) (k : Secrets) (version : Version) (s : Session) : Session :=
  { s with
    myFour := (outward suite k).four, peerFour := (backward suite k).four, myTwo := none
    ephemeralSecret := none, version, state := .l40 }

structure Secrets.Among (k : Secrets) (secrets : Key → Prop) : Prop where
  initiator : secrets k.initiator
  responder : secrets k.responder
  opening : secrets k.opening
  answering : secrets k.answering

theorem Secrets.Among.meet {k : Secrets} {secrets : Key → Prop} (among : k.Among secrets)
    (shares : suite.Shares secrets) : k.Meet suite where
  lasting := shares _ _ among.initiator among.responder
  opening := shares _ _ among.opening among.responder
  answering := shares _ _ among.initiator among.answering
  drawn := shares _ _ among.opening among.answering

theorem initiate_eq {a b i : Key} (lasting : suite.Meet a b) (opening : suite.Meet i b)
    (id : SessionId) (mine peer : String) (version : Version) (created : Instant) :
    Session.initiate suite a i id mine peer (suite.publicKey b) version created =
      .ok (opened suite a b i id mine peer version created, suite.publicKey i) := by
  unfold Session.initiate
  rw [agree_eq lasting, agree_eq opening]
  rfl

theorem respond_eq {k : Secrets} (meet : k.Meet suite) (id : SessionId) (mine peer : String)
    (version : Version) (created : Instant) :
    Session.respond suite k.responder k.answering id mine peer (suite.publicKey k.initiator)
        (suite.publicKey k.opening) version created =
      .ok (answered suite k id mine peer version created, suite.publicKey k.answering) := by
  unfold Session.respond
  rw [agree_eq_other meet.lasting, agree_eq_other meet.opening, agree_eq_other meet.answering,
    agree_eq_other meet.drawn]
  rfl

theorem accept_eq {k : Secrets} (meet : k.Meet suite) {s : Session} (role : s.role = .initiator)
    (state : s.state = .l20) (ephemeral : s.ephemeralSecret = some k.opening)
    (peerKey : s.peerKey = suite.publicKey k.responder) (version : Version) :
    s.accept suite k.initiator (suite.publicKey k.answering) version =
      .ok (s.completed suite k version) := by
  have waiting : ¬(s.role ≠ .initiator ∨ s.state ≠ .l20) := by
    rw [role, state]
    exact fun unlike => unlike.elim (· rfl) (· rfl)
  unfold Session.accept completed
  rw [if_neg waiting, ephemeral, peerKey]
  simp only [agree_eq meet.lasting, agree_eq meet.answering, agree_eq meet.opening,
    agree_eq meet.drawn]
  rw [← peerKey]
  rfl

end Session

end SecureInbox
