import SecureInbox.Proofs.Intake.EndpointState

/-! # Frames on their way

The frames from one end of a session to the other make a `Stream`: each is made at a
position of its own, and in the order of the positions.  It remains one when the sender
makes a frame where it stands, when the receiver opens the first one, and when any of
them is lost. -/
set_option autoImplicit false

namespace SecureInbox

/-- What is apart for the two ends of a session that use the same suite and versions. -/
structure Party where
  identity : Identity
  secret : Key
  maxSkip : UInt64

structure Ends where
  suite : Suite
  versions : VersionRange
  initiator : Party
  responder : Party

def SessionRole.other : SessionRole → SessionRole
  | .initiator => .responder
  | .responder => .initiator

namespace Ends

def party (ends : Ends) : SessionRole → Party
  | .initiator => ends.initiator
  | .responder => ends.responder

def endpoint (ends : Ends) (side : SessionRole) : Endpoint :=
  ⟨ends.suite, (ends.party side).identity, (ends.party side).secret,
    ⟨true, (ends.party side).maxSkip, ends.versions⟩⟩

def publicKey (ends : Ends) (side : SessionRole) : Key :=
  ends.suite.publicKey (ends.party side).secret

end Ends

/-- An envelope on its way, with the message that was put into it, if any. -/
structure Flight where
  envelope : Envelope
  message : Option Message

/-- The message around an envelope: it has the header of the message inside, and where
there is none any header. -/
def Flight.outer (f : Flight) (carrier : Message) : Message :=
  { f.message.getD carrier with body := .envelope f.envelope }

/-- Flights made at increasing positions, from a first position on and up to a last. -/
def Stream (made : Position → Flight → Prop) : Position → List Flight → Position → Prop
  | p, [], q => p.le q
  | p, f :: rest, q => ∃ position, p.le position ∧ made position f ∧ Stream made position.next rest q

namespace Stream

variable {made : Position → Flight → Prop}

theorem le : ∀ {flights : List Flight} {p q : Position}, Stream made p flights q → p.le q := by
  intro flights
  induction flights with
  | nil => intro p q stream; exact stream
  | cons f rest ih =>
      intro p q stream
      obtain ⟨position, before, _, stream⟩ := stream
      exact Position.le_trans before (Position.le_trans position.le_next (ih stream))

theorem from_earlier {flights : List Flight} {p q r : Position} (stream : Stream made q flights r)
    (earlier : p.le q) : Stream made p flights r := by
  cases flights with
  | nil => exact Position.le_trans earlier stream
  | cons f rest =>
      obtain ⟨position, before, isMade, stream⟩ := stream
      exact ⟨position, Position.le_trans earlier before, isMade, stream⟩

theorem to_later : ∀ {flights : List Flight} {p q r : Position}, Stream made p flights q → q.le r →
    Stream made p flights r := by
  intro flights
  induction flights with
  | nil => intro p q r stream later; exact Position.le_trans stream later
  | cons f rest ih =>
      intro p q r stream later
      obtain ⟨position, before, isMade, stream⟩ := stream
      exact ⟨position, before, isMade, ih stream later⟩

theorem snoc : ∀ {flights : List Flight} {p q : Position} {f : Flight}, Stream made p flights q →
    made q f → Stream made p (flights ++ [f]) q.next := by
  intro flights
  induction flights with
  | nil => intro p q f stream isMade; exact ⟨q, stream, isMade, q.next.le_refl⟩
  | cons g rest ih =>
      intro p q f stream isMade
      obtain ⟨position, before, isMadeFirst, stream⟩ := stream
      exact ⟨position, before, isMadeFirst, ih stream isMade⟩

theorem lose : ∀ {before : List Flight} {after : List Flight} {p q : Position} {f : Flight},
    Stream made p (before ++ f :: after) q → Stream made p (before ++ after) q := by
  intro before
  induction before with
  | nil =>
      intro after p q f stream
      obtain ⟨position, earlier, _, stream⟩ := stream
      exact stream.from_earlier (Position.le_trans earlier position.le_next)
  | cons g rest ih =>
      intro after p q f stream
      obtain ⟨position, earlier, isMade, stream⟩ := stream
      exact ⟨position, earlier, isMade, ih stream⟩

theorem made_of_mem : ∀ {flights : List Flight} {p q : Position}, Stream made p flights q →
    ∀ f ∈ flights, ∃ position, p.le position ∧ made position f := by
  intro flights
  induction flights with
  | nil => intro p q _ f member; cases member
  | cons g rest ih =>
      intro p q stream f member
      obtain ⟨position, before, isMade, stream⟩ := stream
      rcases List.mem_cons.mp member with rfl | member
      · exact ⟨position, before, isMade⟩
      · obtain ⟨later, after, isMade⟩ := ih stream f member
        exact ⟨later, Position.le_trans before (Position.le_trans position.le_next after), isMade⟩

theorem mono {other : Position → Flight → Prop} (imp : ∀ p f, made p f → other p f) :
    ∀ {flights : List Flight} {p q : Position}, Stream made p flights q →
      Stream other p flights q := by
  intro flights
  induction flights with
  | nil => intro p q stream; exact stream
  | cons f rest ih =>
      intro p q stream
      obtain ⟨position, before, isMade, stream⟩ := stream
      exact ⟨position, before, imp _ _ isMade, ih stream⟩

end Stream

/-! ## Genuine frames -/

/-- A message of a party under its chains, at a position that a counter can name. -/
structure Carries (ends : Ends) (side : SessionRole) (chains : Chains) (id : SessionId) (p : Position)
    (f : Flight) : Prop where
  fits : p.Fits
  made : ∃ (m : Message) (padding : Fin 255) (sealed : Session.Protected) (offered : Version),
    f = ⟨⟨id, .encapsulated ⟨sealed, offered, ends.versions.max, m.group?⟩⟩, some m⟩ ∧
    m.sender = (ends.party side).identity ∧ m.body.Survives ∧
    chains.Seals ends.suite id p (m.body.toPlaintext (padding.val + 1)) sealed

structure Belongs (ends : Ends) (side : SessionRole) (id : SessionId) (s : Session) : Prop where
  id : s.id = id
  mine : s.mine = (ends.party side).identity.text
  peer : s.peer = (ends.party side.other).identity.text
  peerKey : s.peerKey = ends.publicKey side.other
  version : s.version = ends.versions.max
  role : s.role = side

theorem Carries.mono {ends : Ends} {side : SessionRole} {chains more : Chains} {id : SessionId}
    (le : chains.le more) (p : Position) (f : Flight) (carries : Carries ends side chains id p f) :
    Carries ends side more id p f := by
  obtain ⟨fits, m, padding, sealed, offered, envelope, sender, survives, seals⟩ := carries
  exact ⟨fits, m, padding, sealed, offered, envelope, sender, survives, seals.mono le⟩

def Session.IsShort (s : Session) : Prop :=
  ∀ r ∈ [s.myTwo, s.myFour, s.peerTwo, s.peerFour],
    r.all (fun ratchet => ratchet.counter.toNat < UInt64.size - 1) = true

instance (s : Session) : Decidable s.IsShort :=
  inferInstanceAs (Decidable (∀ r ∈ _, Option.all _ r = true))

theorem Chains.Sends.next_fits {suite : Suite} {chains : Chains} {s : Session} {p : Position}
    (sends : chains.Sends suite s p) (fresh : chains.Fresh) (fits : p.Fits) (short : s.IsShort) :
    p.next.Fits := by
  obtain ⟨agreement, steps⟩ := p
  obtain ⟨base, found, standing⟩ := sends
  have counter := Ratchet.toNat_counter suite (fresh _ _ found) fits
  have below : (base.advance suite steps).counter.toNat < UInt64.size - 1 := by
    cases agreement with
    | two =>
        have bound := short s.myTwo List.mem_cons_self
        rw [standing.2] at bound
        exact of_decide_eq_true bound
    | four =>
        have bound := short s.myFour (List.mem_cons_of_mem _ List.mem_cons_self)
        rw [show s.myFour = _ from standing] at bound
        exact of_decide_eq_true bound
  have room : steps + 1 < UInt64.size - 1 := counter ▸ below
  show steps + 1 + 1 < UInt64.size
  omega

/-! ## What a party does with the only session it has -/

namespace Belongs

variable {ends : Ends} {side : SessionRole} {id : SessionId} {s : Session}

theorem fileKey (belongs : Belongs ends side id s) {peer : Identity}
    (sender : peer = (ends.party side.other).identity) :
    s.fileKey = (ends.endpoint side).sessionKey peer id := by
  rw [Session.fileKey, Endpoint.sessionKey, belongs.mine, belongs.peer, belongs.id, sender]
  rfl

theorem found (belongs : Belongs ends side id s) {peer : Identity}
    (sender : peer = (ends.party side.other).identity) :
    (EndpointState.single s).book.find? ((ends.endpoint side).sessionKey peer id) = some s :=
  SessionBook.find?_single (belongs.fileKey sender)

theorem said (belongs : Belongs ends side id s) (myTwo myFour : Option Ratchet) :
    Belongs ends side id { s with myTwo := myTwo, myFour := myFour } :=
  ⟨belongs.id, belongs.mine, belongs.peer, belongs.peerKey, belongs.version, belongs.role⟩

theorem took (belongs : Belongs ends side id s) (state : SessionState)
    (peerTwo peerFour : Option Ratchet) :
    Belongs ends side id { s with state := state, peerTwo := peerTwo, peerFour := peerFour } :=
  ⟨belongs.id, belongs.mine, belongs.peer, belongs.peerKey, belongs.version, belongs.role⟩

theorem isBoundTo (belongs : Belongs ends side id s) :
    s.isBoundTo (ends.publicKey side.other) = true :=
  beq_iff_eq.mpr belongs.peerKey

end Belongs

theorem Ends.contains_max {ends : Ends} (proper : ends.versions.min ≤ ends.versions.max) :
    ends.versions.contains ends.versions.max = true := by
  have self : ends.versions.max ≤ ends.versions.max := UInt16.le_refl _
  simp only [VersionRange.contains, proper, self, decide_true, Bool.and_true]

theorem Ends.negotiate_self {ends : Ends} (proper : ends.versions.min ≤ ends.versions.max) :
    ends.versions.negotiate ends.versions = some ends.versions.max := by
  unfold VersionRange.negotiate
  simp only [ite_self, proper, if_true]

section Frames

variable {ends : Ends} {secrets : Key → Prop} {side : SessionRole} {id : SessionId}
variable {chains : Chains} {s : Session} {p : Position}

/-- A party puts a message into a frame, made where its session stands. -/
theorem encapsulate_single (belongs : Belongs ends side id s) (sends : chains.Sends ends.suite s p)
    (fits : p.Fits) {m : Message} (noEnvelope : m.body.isEnvelope = false)
    (sender : m.sender = (ends.party side).identity) (survives : m.body.Survives) :
    ((ends.endpoint side).encapsulate (ends.party side.other).identity m).Obeys
      (EndpointState.rules secrets) (.single s) fun t r =>
        ∃ envelope myTwo myFour, r = .ok envelope ∧
          Carries ends side chains id p ⟨envelope, some m⟩ ∧
          t = .single { s with myTwo := myTwo, myFour := myFour } ∧
          chains.Sends ends.suite { s with myTwo := myTwo, myFour := myFour } p.next := by
  have best : (EndpointState.single s).book.best (ends.endpoint side).identity.text
      (ends.party side.other).identity.text = some s :=
    SessionBook.best_single belongs.mine belongs.peer
  refine ((ends.endpoint side).encapsulate_state noEnvelope best sends).mono ?_
  rintro t r ⟨padding, sealed, myTwo, myFour, rfl, seals, rfl, sendsNext⟩
  refine ⟨_, myTwo, myFour, rfl, ⟨fits, m, padding, sealed, ends.versions.max, ?_, sender, survives,
    belongs.id ▸ seals⟩, EndpointState.put_single rfl, sendsNext⟩
  rw [belongs.id, belongs.version]
  rfl

/-- A party opens a frame that was made where its session stands or further on. -/
theorem take_single (proper : ends.versions.min ≤ ends.versions.max) (opens : ends.suite.Opens)
    (fresh : chains.Fresh) (belongs : Belongs ends side id s)
    (receives : chains.Receives ends.suite s p) {q : Position} (le : p.le q) {f : Flight}
    (carries : Carries ends side.other chains id q f)
    (near : ∀ content, f.envelope.frame = .encapsulated content →
      Chains.Near s content.sealed (ends.party side).maxSkip) (carrier : Message) :
    ((ends.endpoint side).take (f.outer carrier) (ends.publicKey side.other) f.envelope).Obeys
      (EndpointState.rules secrets) (.single s) fun t r =>
        ∃ m state peerTwo peerFour,
          f.message = some m ∧
          r = .ok ⟨some m,
            .ofSession { s with state := state, peerTwo := peerTwo, peerFour := peerFour },
            some { s with state := state, peerTwo := peerTwo, peerFour := peerFour }⟩ ∧
          t = .single { s with state := state, peerTwo := peerTwo, peerFour := peerFour } ∧
          chains.Receives ends.suite
            { s with state := state, peerTwo := peerTwo, peerFour := peerFour } q.next := by
  obtain ⟨fits, m, padding, sealed, offered, rfl, sender, survives, seals⟩ := carries
  obtain ⟨state, peerTwo, peerFour, decrypted, receivesNext, _⟩ :=
    Chains.decrypt_sealed opens fresh receives le fits (belongs.id ▸ seals) (near _ rfl)
  refine Endpoint.take_obeys _ ?_
  let envelope : Envelope := ⟨id, .encapsulated ⟨sealed, offered, ends.versions.max, m.group?⟩⟩
  have opened := innerMessage_toPlaintext m (.envelope envelope) padding survives
  refine ((ends.endpoint side).receiveEncapsulated_state { m with body := .envelope envelope }
    ⟨sealed, offered, ends.versions.max, m.group?⟩ (belongs.found sender) belongs.isBoundTo
    (Ends.contains_max proper) (fun early => receives.ready early.2) decrypted opened).mono ?_
  rintro t r ⟨rfl, rfl⟩
  exact ⟨m, state, peerTwo, peerFour, rfl, rfl, EndpointState.put_single rfl, receivesNext⟩

end Frames

end SecureInbox
