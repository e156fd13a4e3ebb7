import SecureInbox.Proofs.Intake.Setting
import SecureInbox.Proofs.Session.Chains
import SecureInbox.Proofs.Session.InPlace
import SecureInbox.Proofs.Session.Shape

/-! # The life of a session

A session is made, and from then on it is called to protect messages, to open frames that may
be anyone's, and to take the peer's answer.  A receiving chain only moves forward while it is
there, and one that is gone does not come back (`Guards.after`).  So the counters of the
frames that are opened grow on each chain, and none is opened twice (`opened_once`).

A frame that is not authentic moves its chain, but no further than to its own counter: the
peer's frame of that counter can still be opened (`withstands`). -/
set_option autoImplicit false

namespace SecureInbox.Session

inductive Op where
  | encrypt (nonce : Nonce) (plaintext : Bytes)
  | decrypt (frame : Protected) (maxSkip : UInt64)
  | accept (secret peerEphemeral : Key) (version : Version)

variable (suite : Suite)

/-- The session that a call leaves, made in place. -/
def after (s : Session) : Op → Session
  | .encrypt nonce plaintext => ((encryptInPlace suite nonce plaintext).on s).2
  | .decrypt frame maxSkip => (s.decrypt suite frame maxSkip).2
  | .accept secret peerEphemeral version =>
    ((acceptInPlace suite secret peerEphemeral version).on s).2

def afterAll (s : Session) (ops : List Op) : Session := ops.foldl (after suite) s

def credit (frame : Protected) : Except CryptoError Bytes → List (Agreement × UInt64)
  | .ok _ => [(frame.agreement, frame.counter)]
  | .error _ => []

def unlocks (s : Session) : Op → List (Agreement × UInt64)
  | .decrypt frame maxSkip => credit frame (s.decrypt suite frame maxSkip).1
  | _ => []

def unlocked (s : Session) : List Op → List (Agreement × UInt64)
  | [] => []
  | op :: ops => s.unlocks suite op ++ unlocked (s.after suite op) ops

inductive Made : Session → Prop where
  | initiated {secret ephemeral : Key} {id : SessionId} {mine peer : String} {peerKey key : Key}
      {version : Version} {created : Instant} {s : Session}
      (made : initiate suite secret ephemeral id mine peer peerKey version created = .ok (s, key)) :
      Made s
  | responded {secret ephemeral : Key} {id : SessionId} {mine peer : String}
      {peerKey peerEphemeral key : Key} {version : Version} {created : Instant} {s : Session}
      (made : respond suite secret ephemeral id mine peer peerKey peerEphemeral version created =
        .ok (s, key)) :
      Made s

/-- Whether a frame is earlier on its chain than another one, if they share it. -/
def Below (x y : Agreement × UInt64) : Prop := x.1 = y.1 → x.2 < y.2

/-! ## What a session remembers of the frames that it opened -/

structure Guards (s : Session) (past : List (Agreement × UInt64)) : Prop where
  shaped : ∃ shape, s.IsOf shape
  untouched : s.IsOf .waiting → past = []
  behind : ∀ x ∈ past, ∀ r, s.peerRatchet x.1 = some r → x.2 < r.counter

variable {suite} {s t : Session} {past : List (Agreement × UInt64)}

theorem Made.guards (made : Made suite s) : s.Guards [] := by
  have behind : ∀ x ∈ ([] : List (Agreement × UInt64)), ∀ r, s.peerRatchet x.1 = some r →
      x.2 < r.counter := fun _ member => nomatch member
  cases made with
  | initiated made => exact ⟨⟨_, (initiate_ok made).1⟩, fun _ => rfl, behind⟩
  | responded made => exact ⟨⟨_, (respond_ok made).1⟩, fun _ => rfl, behind⟩

theorem peerRatchet_confirm {agreement other : Agreement} {r : Ratchet}
    (found : (confirm agreement s).peerRatchet other = some r) : s.peerRatchet other = some r := by
  unfold confirm at found
  split at found
  · cases other with
    | two => cases found
    | four => exact found
  · exact found

namespace Guards

/-- A chain that has moved, and perhaps has opened the frame that it moved to. -/
theorem moves (guards : s.Guards past) {agreement : Agreement} {r next : Ratchet}
    (found : s.peerRatchet agreement = some r) {new : List (Agreement × UInt64)}
    (own : ∀ x ∈ new, x.1 = agreement ∧ x.2 < next.counter) (ahead : r.counter ≤ next.counter) :
    ∀ x ∈ past ++ new, ∀ q, (s.setPeerRatchet agreement next).peerRatchet x.1 = some q →
      x.2 < q.counter := by
  intro x member q stands
  by_cases here : x.1 = agreement
  · rw [here, peerRatchet_set] at stands
    obtain rfl := Option.some.inj stands
    rcases List.mem_append.mp member with old | isNew
    · exact UInt64.lt_of_lt_of_le (guards.behind x old r (here ▸ found)) ahead
    · exact (own x isNew).2
  · rw [peerRatchet_set_other _ _ here] at stands
    rcases List.mem_append.mp member with old | isNew
    · exact guards.behind x old q stands
    · exact (here (own x isNew).1).elim

theorem encrypts (guards : s.Guards past) {nonce : Nonce} {plaintext : Bytes} {sealed : Protected}
    (encrypted : s.encrypt suite nonce plaintext = .ok (sealed, t)) : t.Guards past := by
  obtain ⟨shape, is⟩ := guards.shaped
  have after := is.encrypts encrypted
  obtain ⟨same, _⟩ := encrypt_ok encrypted
  refine ⟨⟨shape, after⟩, fun waiting => guards.untouched ?_, ?_⟩
  · rw [waiting.unique after]
    exact is
  · intro x member r found
    refine guards.behind x member r ?_
    rw [same] at found
    obtain ⟨agreement, counter⟩ := x
    cases agreement <;> exact found

/-- What waits for an answer has opened nothing. -/
theorem accepts (guards : s.Guards past) {secret peerEphemeral : Key} {version : Version}
    (accepted : s.accept suite secret peerEphemeral version = .ok t) : t.Guards past := by
  obtain ⟨shape, is⟩ := guards.shaped
  obtain ⟨role, state, _⟩ := accept_ok accepted
  obtain rfl := is.waits role state
  obtain rfl := guards.untouched is
  exact ⟨⟨_, is.accepts accepted⟩, fun _ => rfl, fun _ member => nomatch member⟩

variable {frame : Protected} {maxSkip : UInt64} {result : Except CryptoError Bytes}

theorem tries (guards : s.Guards past) (trial : Trial suite s frame maxSkip result t)
    (fits : ∀ x ∈ credit frame result, x.2.toNat + 1 < UInt64.size) :
    t.Guards (past ++ credit frame result) ∧
      ∀ x ∈ past, ∀ y ∈ credit frame result, Below x y := by
  obtain ⟨shape, is⟩ := guards.shaped
  have shaped : ∃ shape, t.IsOf shape := (trial.isOf is).elim (⟨shape, ·⟩) (⟨_, ·.2⟩)
  -- A session that waits has no chain that could open something.
  have untouched : ∀ {r}, s.peerRatchet frame.agreement = some r → ¬t.IsOf .waiting := by
    intro r found waiting
    rcases trial.isOf is with after | ⟨_, after⟩
    · obtain rfl := after.unique waiting
      rw [is.peerRatchet_none] at found
      cases found
    · cases after.unique waiting
  cases trial with
  | missing none =>
      rw [credit, List.append_nil]
      exact ⟨guards, fun _ _ _ member => nomatch member⟩
  | refused r e found turned =>
      rw [credit, List.append_nil]
      exact ⟨guards, fun _ _ _ member => nomatch member⟩
  | forged r next turns found turned locked =>
      obtain ⟨ahead, _⟩ := Ratchet.turnUntil_ok turned
      rw [← Ratchet.counter_turnUntil turned] at ahead
      exact ⟨⟨shaped, fun waiting => (untouched found waiting).elim,
        guards.moves found (fun _ member => nomatch member) ahead⟩, fun _ _ _ member => nomatch member⟩
  | opened r next turns plaintext found turned unlocked =>
      obtain ⟨ahead, _⟩ := Ratchet.turnUntil_ok turned
      have stands : (next.turn suite).counter = frame.counter + 1 := by
        show next.counter + 1 = _
        rw [Ratchet.counter_turnUntil turned]
      have past : frame.counter < (next.turn suite).counter := by
        rw [stands]
        exact Ratchet.lt_add_one (fits _ (List.mem_singleton_self _))
      have own : ∀ x ∈ [(frame.agreement, frame.counter)],
          x.1 = frame.agreement ∧ x.2 < (next.turn suite).counter :=
        List.forall_mem_singleton.mpr ⟨rfl, past⟩
      have further : r.counter ≤ (next.turn suite).counter :=
        UInt64.le_of_lt (UInt64.lt_of_le_of_lt ahead past)
      have moved := guards.moves found own further
      refine ⟨⟨shaped, fun waiting => (untouched found waiting).elim, ?_⟩, ?_⟩
      · exact fun x member q there => moved x member q (peerRatchet_confirm there)
      · intro x old y member same
        obtain rfl := List.mem_singleton.mp member
        exact UInt64.lt_of_lt_of_le (guards.behind x old r (same ▸ found)) ahead

theorem after (guards : s.Guards past) (op : Op)
    (fits : ∀ x ∈ s.unlocks suite op, x.2.toNat + 1 < UInt64.size) :
    (s.after suite op).Guards (past ++ s.unlocks suite op) ∧
      ∀ x ∈ past, ∀ y ∈ s.unlocks suite op, Below x y := by
  cases op with
  | encrypt nonce plaintext =>
      refine ⟨?_, fun _ _ _ member => nomatch member⟩
      show (s.after suite _).Guards (past ++ [])
      rw [List.append_nil, Session.after, encryptInPlace_on]
      split
      · next sealed t encrypted => exact guards.encrypts encrypted
      · exact guards
  | decrypt frame maxSkip => exact guards.tries (decrypt_trial rfl) fits
  | accept secret peerEphemeral version =>
      refine ⟨?_, fun _ _ _ member => nomatch member⟩
      show (s.after suite _).Guards (past ++ [])
      rw [List.append_nil, Session.after, acceptInPlace_on]
      split
      · next t accepted => exact guards.accepts accepted
      · exact guards

/-- Over all calls, the frames of each chain are opened in the order of the chain. -/
theorem rises (ops : List Op) : ∀ {s : Session} {past : List (Agreement × UInt64)},
    s.Guards past → (∀ x ∈ s.unlocked suite ops, x.2.toNat + 1 < UInt64.size) →
      past.Pairwise Below → (past ++ s.unlocked suite ops).Pairwise Below := by
  -- The past goes along, so that what is opened later is compared with all that was opened before.
  induction ops with
  | nil =>
      intro s past _ _ risen
      rw [unlocked, List.append_nil]
      exact risen
  | cons op ops ih =>
      intro s past guards fits risen
      rw [unlocked] at fits ⊢
      obtain ⟨next, above⟩ := guards.after op fun x member =>
        fits x (List.mem_append_left _ member)
      have single : (s.unlocks suite op).Pairwise Below := by
        unfold unlocks
        split
        · unfold credit
          split
          · exact List.pairwise_singleton _ _
          · exact .nil
        · exact .nil
      rw [← List.append_assoc]
      exact ih next (fun x member => fits x (List.mem_append_right _ member))
        (List.pairwise_append.mpr ⟨risen, single, above⟩)

end Guards

/-! ## Frames that are not opened -/

def ownRatchet (s : Session) : Agreement → Option Ratchet
  | .two => s.myTwo
  | .four => s.myFour

/-- Whether a peer's session sends on the chain that ours receives on. -/
structure SharesChain (suite : Suite) (s peer : Session) (agreement : Agreement) : Prop where
  id : peer.id = s.id
  chain : ∃ (base : Ratchet) (m n : Nat), base.counter = 1 ∧ m + 1 < UInt64.size ∧ n + 1 < UInt64.size ∧
    s.peerRatchet agreement = some (base.advance suite m) ∧
      peer.ownRatchet agreement = some (base.advance suite n)

/-- Whether a frame protects a plaintext on the chain that a session receives on. -/
def IsGenuine (suite : Suite) (s : Session) (frame : Protected) (plaintext : Bytes) : Prop :=
  ∃ peer next nonce, s.SharesChain suite peer frame.agreement ∧
    peer.encrypt suite nonce plaintext = .ok (frame, next)

inductive Withstands (suite : Suite) (s : Session) (frame : Protected) :
    CryptoError → Session → Prop where
  | unmoved (e : CryptoError) (other : e ≠ .notAuthentic) : Withstands suite s frame e s
  | moved (r next : Ratchet) (steps : Nat) (found : s.peerRatchet frame.agreement = some r)
      (ahead : r.counter ≤ frame.counter) (onward : next = r.advance suite steps)
      (stands : next.counter = frame.counter)
      (genuine : ∀ other plaintext maxSkip, other.agreement = frame.agreement →
        other.counter = frame.counter → s.IsGenuine suite other plaintext →
          ∃ t, (s.setPeerRatchet frame.agreement next).decrypt suite other maxSkip =
            (.ok plaintext, t)) :
      Withstands suite s frame .notAuthentic (s.setPeerRatchet frame.agreement next)

theorem encrypt_sealed {nonce : Nonce} {plaintext : Bytes} {sealed : Protected}
    (encrypted : s.encrypt suite nonce plaintext = .ok (sealed, t)) :
    ∃ r, s.ownRatchet sealed.agreement = some r ∧
      sealed = ⟨sealed.agreement, r.counter, suite.wrap (r.key suite) nonce plaintext s.id.bytes⟩ := by
  unfold encrypt at encrypted
  split at encrypted
  · next r found =>
    cases encrypted
    exact ⟨r, found, rfl⟩
  · next r _ found =>
    cases encrypted
    exact ⟨r, found, rfl⟩
  · cases encrypted

theorem id_setPeerRatchet (s : Session) (agreement : Agreement) (r : Ratchet) :
    (s.setPeerRatchet agreement r).id = s.id := by
  cases agreement <;> rfl

/-- A chain that was moved to a counter opens the peer's frame of that counter. -/
theorem decrypt_genuine (opens : suite.Opens) {frame other : Protected} {r next : Ratchet}
    {turns maxSkip limit : UInt64} (found : s.peerRatchet frame.agreement = some r)
    (turned : r.turnUntil suite frame.counter maxSkip = .ok (turns, next))
    (chain : other.agreement = frame.agreement) (counter : other.counter = frame.counter)
    {plaintext : Bytes} (genuine : s.IsGenuine suite other plaintext) :
    ∃ t, (s.setPeerRatchet frame.agreement next).decrypt suite other limit = (.ok plaintext, t) := by
  obtain ⟨peer, after, nonce, ⟨id, base, m, n, fresh, fitsHere, fits, here, there⟩, encrypted⟩ := genuine
  obtain ⟨q, own, sealed⟩ := encrypt_sealed encrypted
  obtain rfl : base.advance suite n = q := Option.some.inj (there.symm.trans own)
  obtain rfl : base.advance suite m = r := Option.some.inj (here.symm.trans (chain ▸ found))
  have target : (base.advance suite n).counter = frame.counter := by
    rw [← counter, sealed]
  obtain ⟨ahead, rfl, rfl⟩ := Ratchet.turnUntil_ok turned
  rw [← target] at ahead ⊢
  have le : m ≤ n := by
    rw [UInt64.le_iff_toNat_le, Ratchet.toNat_counter suite fresh fitsHere,
      Ratchet.toNat_counter suite fresh fits] at ahead
    omega
  rw [Ratchet.toNat_counter_sub suite fresh le fits, ← Ratchet.advance_add, Nat.add_sub_cancel' le,
    sealed, chain, id, ← id_setPeerRatchet s frame.agreement (base.advance suite n)]
  exact ⟨_, Chains.decrypt_ahead opens fresh (peerRatchet_set ..) (Nat.le_refl n) fits
    (by omega) nonce plaintext⟩

theorem withstands (opens : suite.Opens) {frame : Protected} {maxSkip : UInt64} {e : CryptoError}
    (failed : s.decrypt suite frame maxSkip = (.error e, t)) : s.Withstands suite frame e t := by
  cases decrypt_trial failed with
  | missing none =>
      refine .unmoved _ ?_
      cases frame.agreement <;> exact fun other => nomatch other
  | refused r e found turned => exact .unmoved e (Ratchet.turnUntil_error turned)
  | forged r next turns found turned locked =>
      obtain ⟨ahead, _, onward⟩ := Ratchet.turnUntil_ok turned
      exact .moved r next turns.toNat found ahead onward (Ratchet.counter_turnUntil turned)
        fun _ _ _ chain counter genuine => decrypt_genuine opens found turned chain counter genuine

/-! ## Over a whole life -/

/-- The frames that a session opens rise on each chain, so that none is opened twice; a frame
that is not opened costs no other frame, and an answer that is not taken leaves all as it is. -/
theorem opened_once (opens : suite.Opens) (made : Made suite s) (ops : List Op)
    (fits : ∀ x ∈ s.unlocked suite ops, x.2.toNat + 1 < UInt64.size) :
    (s.unlocked suite ops).Pairwise Below ∧ (s.unlocked suite ops).Nodup ∧
      (∀ frame maxSkip e t, (s.afterAll suite ops).decrypt suite frame maxSkip = (.error e, t) →
        (s.afterAll suite ops).Withstands suite frame e t) ∧
      ∀ secret peerEphemeral version e,
        (s.afterAll suite ops).accept suite secret peerEphemeral version = .error e →
          (acceptInPlace suite secret peerEphemeral version).on (s.afterAll suite ops) =
              (.error e, s.afterAll suite ops) ∧
            s.afterAll suite (ops ++ [.accept secret peerEphemeral version]) =
              s.afterAll suite ops := by
  have rises := made.guards.rises ops fits .nil
  refine ⟨rises, rises.imp ?_, fun _ _ _ _ => withstands opens, ?_⟩
  · rintro x y below rfl
    exact UInt64.lt_irrefl _ (below rfl)
  · intro secret peerEphemeral version e failed
    have last : ∀ op, s.afterAll suite (ops ++ [op]) = (s.afterAll suite ops).after suite op :=
      fun op => List.foldl_append ..
    have left : (acceptInPlace suite secret peerEphemeral version).on (s.afterAll suite ops) =
        (.error e, s.afterAll suite ops) := by
      rw [acceptInPlace_on, failed]
    rw [last, Session.after, left]
    exact ⟨rfl, rfl⟩

section Example

/-- The peer's frame of a position, on the chain of the first frames. -/
def plainFrame (steps : Nat) (plaintext : Bytes) : Protected :=
  let r := (twoChain .plain plainSecrets.initiator plainSecrets.responder
    plainSecrets.opening).advance .plain steps
  ⟨.two, r.counter, Suite.plain.wrap (r.key .plain) (Block.zero 24) plaintext plainSession.id.bytes⟩

/-- A frame, a forged one that is two counters ahead, the frame with its counter, a repetition of
the first one, and an answer that nobody waits for. -/
def plainOps : List Op :=
  [.decrypt (plainFrame 0 [1]) 10, .decrypt ⟨.two, 3, []⟩ 10, .decrypt (plainFrame 2 [3]) 10,
    .decrypt (plainFrame 0 [1]) 10, .accept (Block.ofNat 32 1) Setting.peerKey .v1_0]

theorem plainSession_made : Made .plain plainSession := by
  have shares : Suite.plain.Shares fun _ => True := fun a b _ _ =>
    ⟨_, rfl, congrArg (fun n => some (Block.ofNat 32 n)) (Nat.add_comm ..)⟩
  have among : plainSecrets.Among fun _ => True := ⟨trivial, trivial, trivial, trivial⟩
  exact .responded (respond_eq (among.meet shares) ..)

theorem opened_once_after_forgery :
    plainSession.unlocked .plain plainOps = [(.two, 1), (.two, 3)] ∧
      (plainSession.unlocked .plain plainOps).Pairwise Below ∧
      (plainSession.unlocked .plain plainOps).Nodup ∧
      (plainSession.afterAll .plain plainOps).Withstands .plain ⟨.two, 5, []⟩ .notAuthentic
        ((plainSession.afterAll .plain plainOps).decrypt .plain ⟨.two, 5, []⟩ 10).2 := by
  have unlocked : plainSession.unlocked .plain plainOps = [(.two, 1), (.two, 3)] := by
    decide +kernel
  have failed : ((plainSession.afterAll .plain plainOps).decrypt .plain ⟨.two, 5, []⟩ 10).1 =
      .error .notAuthentic := rfl
  obtain ⟨rises, distinct, withstands, _⟩ := opened_once Suite.plain_opens plainSession_made plainOps
    (by rw [unlocked]; decide)
  exact ⟨unlocked, rises, distinct, withstands _ _ _ _ (Prod.ext failed rfl)⟩

end Example

end SecureInbox.Session
