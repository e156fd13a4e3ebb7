import SecureInbox.Proofs.Intake.Talk

/-! # What is sent is received

`Talk.Holds` is the invariant of two parties that talk, by how far the opening has come: in
each direction the frames on their way lie between where the receiver and where the sender
stand on the same chains.  Every step keeps it (`Talk.Holds.step`), and what holds of a whole
talk follows (`Talk.talk_delivers`). -/
set_option autoImplicit false

namespace SecureInbox

/-! ## Courses -/

/-- The frames on their way from a party, whose session stands at `q`, to where the
other party stands. -/
structure Course (ends : Ends) (side : SessionRole) (chains : Chains) (id : SessionId) (s : Session)
    (p : Position) (flights : List Flight) (q : Position) : Prop where
  sends : chains.Sends ends.suite s q
  fits : q.Fits
  stream : Stream (Carries ends side chains id) p flights q

structure Ends.Sound (ends : Ends) (secrets : Key → Prop) : Prop where
  opens : ends.suite.Opens
  shares : ends.suite.Shares secrets
  initiator : secrets ends.initiator.secret
  responder : secrets ends.responder.secret
  /-- Settings refuse any other range. -/
  proper : ends.versions.min ≤ ends.versions.max

namespace Talk

variable {ends : Ends} {secrets : Key → Prop}

theorem Goes.holds {α : Type} {part : Intake α} {d t : EndpointState} {r : Except ProcessError α}
    {post : EndpointState → Except ProcessError α → Prop} (goes : Goes secrets part d r t)
    (obeys : part.Obeys (EndpointState.rules secrets) d post) : post t r := by
  obtain ⟨xs, reaches, admitted, rfl⟩ := goes
  exact Script.Obeys.rest obeys reaches admitted

end Talk

namespace Course

variable {ends : Ends} {secrets : Key → Prop} {side : SessionRole} {chains : Chains}
variable {id : SessionId} {s : Session} {p q : Position} {flights : List Flight}

theorem lose {before after : List Flight} {f : Flight}
    (course : Course ends side chains id s p (before ++ f :: after) q) :
    Course ends side chains id s p (before ++ after) q :=
  ⟨course.sends, course.fits, course.stream.lose⟩

theorem peaceful (course : Course ends side chains id s p flights q) :
    ∀ f ∈ flights, Talk.isPeaceful f.envelope.frame = true := by
  intro f member
  obtain ⟨_, _, _, _, _, _, _, rfl, _⟩ := course.stream.made_of_mem f member
  rfl

theorem say (fresh : chains.Fresh) (belongs : Belongs ends side id s) (short : s.IsShort)
    (course : Course ends side chains id s p flights q) {m : Message} {r : Except ProcessError Envelope}
    {d : EndpointState} (sender : m.sender = (ends.party side).identity) (survives : m.body.Survives)
    (goes : Talk.Goes secrets
      ((ends.endpoint side).encapsulate (ends.party side.other).identity m) (.single s) r d) :
    ∃ myTwo myFour q', q'.agreement = q.agreement ∧
      d = .single { s with myTwo := myTwo, myFour := myFour } ∧
      Course ends side chains id { s with myTwo := myTwo, myFour := myFour } p
        (flights ++ Talk.handed (some m) r) q' ∧
      (m.body.isEnvelope = false → ∃ envelope, r = .ok envelope) := by
  cases kind : m.body.isEnvelope with
  | true =>
      obtain ⟨rfl, rfl⟩ := goes.holds ((ends.endpoint side).encapsulate_envelope kind)
      refine ⟨s.myTwo, s.myFour, q, rfl, rfl, ?_, nofun⟩
      rw [Talk.handed, List.append_nil]
      exact course
  | false =>
      obtain ⟨envelope, myTwo, myFour, rfl, carries, rfl, sends⟩ :=
        goes.holds (encapsulate_single belongs course.sends course.fits kind sender survives)
      refine ⟨myTwo, myFour, q.next, rfl, rfl, ⟨sends, ?_, course.stream.snoc carries⟩, fun _ => ⟨_, rfl⟩⟩
      exact course.sends.next_fits fresh course.fits short

end Course

/-- What is established stays so, where the session goes on to receive. -/
theorem Chains.Receives.established {suite : Suite} {chains : Chains} {s t : Session}
    {p q : Position} (receives : chains.Receives suite s p) (le : p.le q)
    (next : chains.Receives suite t q.next) : s.state = .l40 → t.state = .l40 := by
  obtain ⟨a, m⟩ := p
  obtain ⟨b, n⟩ := q
  intro established
  cases a with
  | two =>
      have waits : s.state = .l20 := receives.2.1
      rw [waits] at established
      cases established
  | four =>
      cases b with
      | two => exact le.elim
      | four => exact next.1

namespace Course

variable {ends : Ends} {secrets : Key → Prop} {side : SessionRole} {chains : Chains}
variable {id : SessionId} {s : Session} {p q : Position}

/-- A party opens the first of the frames that are on their way to it. -/
theorem deliver (sound : ends.Sound secrets) (fresh : chains.Fresh) {u : Session}
    (belongs : Belongs ends side id u) (receives : chains.Receives ends.suite u p) {f : Flight}
    {rest : List Flight} (course : Course ends side.other chains id s p (f :: rest) q)
    (bridges : Talk.Bridges ends side ⟨[u]⟩ f) {carrier : Message}
    {r : Except ProcessError Received} {d : EndpointState}
    (goes : Talk.Goes secrets (Talk.takes ends side f carrier) (.single u) r d) :
    ∃ m state peerTwo peerFour position,
      d = .single { u with state := state, peerTwo := peerTwo, peerFour := peerFour } ∧
      f.message = some m ∧ f.Yields r ∧
      (u.state = .l40 → state = .l40) ∧
      chains.Receives ends.suite
        { u with state := state, peerTwo := peerTwo, peerFour := peerFour } position ∧
      Course ends side.other chains id s position rest q := by
  obtain ⟨position, before, carries, stream⟩ := course.stream
  have near := bridges u List.mem_cons_self
  obtain ⟨m, state, peerTwo, peerFour, holds, rfl, rfl, receivesNext⟩ := goes.holds
    (take_single sound.proper sound.opens fresh belongs receives before carries near carrier)
  refine ⟨m, state, peerTwo, peerFour, position.next, rfl, holds, ?_, receives.established before
    receivesNext, receivesNext, course.sends, course.fits, stream⟩
  unfold Flight.Yields
  rw [holds]
  refine ⟨_, rfl, fun content framed four => ?_⟩
  obtain ⟨_, _, _, sealed, _, rfl, _, _, base, nonce, _, made⟩ := carries
  obtain rfl := Frame.encapsulated.inj framed
  obtain ⟨agreement, steps⟩ := position
  obtain rfl : agreement = .four := by
    rw [← four]
    exact (congrArg Session.Protected.agreement made).symm
  exact receivesNext.1

end Course

namespace Talk

section Invariant

variable (ends : Ends) (secrets : Key → Prop)

/-- The chains to the responder as long as there is no answer. -/
def firstChains (opening : Key) : Chains :=
  ⟨some (Session.twoChain ends.suite ends.initiator.secret ends.responder.secret opening), none⟩

def initFlight (id : SessionId) (opening : Key) : Flight :=
  ⟨⟨id, .init ends.versions (ends.suite.publicKey opening)⟩, none⟩

def acceptFlight (id : SessionId) (answering : Key) : Flight :=
  ⟨⟨id, .accept ends.versions (ends.suite.publicKey answering)⟩, none⟩

def Waits (s : Session) (opening : Key) : Prop := s.state = .l20 ∧ s.ephemeralSecret = some opening

/-- The secrets of the two parties, and two that were drawn. -/
structure Ours (k : Session.Secrets) : Prop where
  initiator : k.initiator = ends.initiator.secret
  responder : k.responder = ends.responder.secret
  among : k.Among secrets

inductive Holds : Talk → Prop where
  | silent : Holds .silent
  | opened (id : SessionId) (opening : Key) (s : Session) (n : Nat) (flights : List Flight)
      (drawn : secrets opening) (belongs : Belongs ends .initiator id s) (waits : Waits s opening)
      (course : Course ends .initiator (firstChains ends opening) id s ⟨.two, 0⟩ flights ⟨.two, n⟩) :
      Holds ⟨.opened, ⟨⟨[s]⟩, .empty⟩, ⟨[], initFlight ends id opening :: flights⟩⟩
  | answered (id : SessionId) (k : Session.Secrets) (s u : Session) (n : Nat) (p q : Position)
      (out back : List Flight) (ours : Ours ends secrets k) (first : Belongs ends .initiator id s)
      (second : Belongs ends .responder id u) (waits : Waits s k.opening)
      (course : Course ends .initiator (Session.outward ends.suite k) id s p out ⟨.two, n⟩)
      (receives : (Session.outward ends.suite k).Receives ends.suite u p)
      (courseBack : Course ends .responder (Session.backward ends.suite k) id u ⟨.four, 0⟩ back q) :
      Holds ⟨.answered, ⟨⟨[s]⟩, ⟨[u]⟩⟩, ⟨acceptFlight ends id k.answering :: back, out⟩⟩
  | completed (id : SessionId) (k : Session.Secrets) (s u : Session) (p q p' q' : Position)
      (out back : List Flight) (first : Belongs ends .initiator id s)
      (second : Belongs ends .responder id u)
      (course : Course ends .initiator (Session.outward ends.suite k) id s p out q)
      (receives : (Session.outward ends.suite k).Receives ends.suite u p)
      (courseBack : Course ends .responder (Session.backward ends.suite k) id u p' back q')
      (receivesBack : (Session.backward ends.suite k).Receives ends.suite s p') :
      Holds ⟨.completed, ⟨⟨[s]⟩, ⟨[u]⟩⟩, ⟨back, out⟩⟩

end Invariant

variable {ends : Ends} {secrets : Key → Prop}

theorem fresh_firstChains (opening : Key) : (firstChains ends opening).Fresh := by
  intro a base found
  cases a with
  | two => cases found; rfl
  | four => cases found

theorem fresh_outward (k : Session.Secrets) : (Session.outward ends.suite k).Fresh := by
  intro a base found
  cases a <;> cases found <;> rfl

theorem fresh_backward (k : Session.Secrets) : (Session.backward ends.suite k).Fresh := by
  intro a base found
  cases a with
  | two => cases found
  | four => cases found; rfl

theorem firstChains_le {k : Session.Secrets} (ours : Ours ends secrets k) :
    (firstChains ends k.opening).le (Session.outward ends.suite k) := by
  intro a base found
  cases a with
  | two =>
      rw [← found, Chains.get, Chains.get, firstChains, Session.outward, ours.initiator,
        ours.responder]
  | four => cases found

/-! ## The steps -/

theorem holds_opens (sound : ends.Sound secrets) {r : Except ProcessError Envelope} {d : EndpointState}
    (goes : Goes secrets ((ends.endpoint .initiator).initiate ends.responder.identity
      (ends.publicKey .responder)) (state .empty) r d) :
    Holds ends secrets ⟨.opened, ⟨d.book, .empty⟩,
      ⟨[], posted ends.responder.identity d ++ handed none r⟩⟩ ∧ ∃ envelope, r = .ok envelope := by
  obtain ⟨opening, id, created, drawn, rfl, rfl⟩ := goes.holds
    ((ends.endpoint .initiator).initiate_state sound.shares sound.initiator sound.responder _)
  refine ⟨?_, _, rfl⟩
  refine .opened id opening _ 0 [] drawn ⟨rfl, rfl, rfl, rfl, rfl, rfl⟩ ⟨rfl, rfl⟩
    ⟨?_, Position.fits_start _, ?_⟩
  · exact ⟨_, rfl, rfl, rfl⟩
  · exact Position.le_refl _

theorem takes_init (sound : ends.Sound secrets) {id : SessionId} {opening : Key}
    (drawn : secrets opening) {carrier : Message}
    (carried : carrier.sender = ends.initiator.identity) :
    (takes ends .responder (initFlight ends id opening) carrier).Obeys (EndpointState.rules secrets)
      (state .empty) fun t r =>
        ∃ k u, Ours ends secrets k ∧ k.opening = opening ∧ Belongs ends .responder id u ∧
          r = .ok (.control (.ofSession u)) ∧
          t = ⟨⟨[u]⟩, .empty,
            [(ends.initiator.identity, (acceptFlight ends id k.answering).envelope)]⟩ ∧
          (Session.outward ends.suite k).Receives ends.suite u ⟨.two, 0⟩ ∧
          (Session.backward ends.suite k).Sends ends.suite u ⟨.four, 0⟩ := by
  refine Endpoint.take_obeys _ ?_
  refine ((ends.endpoint .responder).receiveInit_state sound.shares sound.responder sound.initiator
    drawn carrier.sender id (Ends.negotiate_self sound.proper)).mono ?_
  rintro t r ⟨answering, created, drawnHere, rfl, rfl⟩
  refine ⟨⟨ends.initiator.secret, ends.responder.secret, opening, answering⟩, _,
    ⟨rfl, rfl, sound.initiator, sound.responder, drawn, drawnHere⟩, rfl, ?_, rfl, ?_, ?_, ?_⟩
  · exact ⟨rfl, rfl, congrArg Identity.text carried, rfl, rfl, rfl⟩
  · rw [← carried]
    rfl
  · exact ⟨rfl, rfl, rfl, rfl⟩
  · exact ⟨_, rfl, rfl⟩

/-- The party who opened the session takes the answer. -/
theorem takes_accept (sound : ends.Sound secrets) {id : SessionId} {k : Session.Secrets}
    (ours : Ours ends secrets k) {s : Session} (belongs : Belongs ends .initiator id s)
    (waits : Waits s k.opening) {carrier : Message}
    (carried : carrier.sender = ends.responder.identity) :
    (takes ends .initiator (acceptFlight ends id k.answering) carrier).Obeys (EndpointState.rules secrets)
      (state ⟨[s]⟩) fun t r =>
        r = .ok (.control (.ofSession (s.completed ends.suite k ends.versions.max))) ∧
          t = state ⟨[s.completed ends.suite k ends.versions.max]⟩ := by
  refine Endpoint.take_obeys _ ?_
  have peerKey : s.peerKey = ends.suite.publicKey k.responder := by
    rw [belongs.peerKey, ours.responder]
    rfl
  refine ((ends.endpoint .initiator).receiveAccept_state sound.shares ours.among ours.initiator
    (belongs.found carried) belongs.role waits.1 waits.2 peerKey
    (Ends.negotiate_self sound.proper)).mono ?_
  rintro t r ⟨rfl, rfl⟩
  exact ⟨rfl, EndpointState.put_single rfl⟩

/-- The party who opened the session cannot take a frame before the answer. -/
theorem takes_early (sound : ends.Sound secrets) {id : SessionId} {k : Session.Secrets} {s : Session}
    (belongs : Belongs ends .initiator id s) (waits : Waits s k.opening) {p : Position} {f : Flight}
    (four : p.agreement = .four)
    (carries : Carries ends .responder (Session.backward ends.suite k) id p f) (carrier : Message) :
    (takes ends .initiator f carrier).Obeys (EndpointState.rules secrets) (state ⟨[s]⟩) fun t r =>
      r = .error (.notReady "4DH message before accept") ∧ t = state ⟨[s]⟩ := by
  obtain ⟨_, m, padding, sealed, offered, rfl, sender, _, base, nonce, _, rfl⟩ := carries
  refine Endpoint.take_obeys _ ?_
  let content : Encapsulated := ⟨⟨p.agreement, (base.advance ends.suite p.steps).counter,
    ends.suite.wrap ((base.advance ends.suite p.steps).key ends.suite) nonce
      (m.body.toPlaintext (padding.val + 1)) id.bytes⟩, offered, ends.versions.max, m.group?⟩
  refine ((ends.endpoint .initiator).receiveEncapsulated_early
    { m with body := .envelope ⟨id, .encapsulated content⟩ } content (belongs.found sender)
    belongs.isBoundTo (Ends.contains_max sound.proper) ⟨four, belongs.role, waits.1⟩).mono ?_
  rintro t r ⟨rfl, rfl⟩
  exact ⟨rfl, rfl⟩

@[simp] theorem depart_nil (inbox : Both (List Flight)) (side : SessionRole) :
    depart inbox side [] = inbox := by
  cases side with
  | initiator => exact congrArg (Both.mk · inbox.responder) (List.append_nil _)
  | responder => exact congrArg (Both.mk inbox.initiator) (List.append_nil _)

theorem posted_single (peer : Identity) (book : SessionBook) (register : NonceRegister)
    (envelope : Envelope) : posted peer ⟨book, register, [(peer, envelope)]⟩ = [⟨envelope, none⟩] := by
  simp only [posted, List.filter_cons, decide_true, if_true, List.filter_nil, List.map_cons,
    List.map_nil]

theorem established_one {s t : Session} (kept : s.state = .l40 → t.state = .l40) :
    isEstablished ⟨[s]⟩ → isEstablished ⟨[t]⟩ := by
  intro established
  have before : [s.state] = [.l40] := established
  have state := kept (List.cons.inj before).1
  show [t.state] = [.l40]
  rw [state]

/-- A message that is lost is not the head of an inbox, where that has none. -/
theorem lost_behind {head f : Flight} {flights before after : List Flight}
    (none : head.message = none) (holds : f.message.isSome = true)
    (flying : head :: flights = before ++ f :: after) :
    ∃ rest, before = head :: rest ∧ flights = rest ++ f :: after := by
  cases before with
  | nil =>
      obtain ⟨rfl, _⟩ := List.cons.inj flying
      rw [none] at holds
      cases holds
  | cons g rest =>
      obtain ⟨rfl, tail⟩ := List.cons.inj flying
      exact ⟨rest, rfl, tail⟩

theorem Holds.speaks {t : Talk} (holds : Holds ends secrets t) (short : t.IsShort)
    {side : SessionRole} {m : Message} {r : Except ProcessError Envelope} {d : EndpointState}
    (may : t.stage.maySay side = true) (sender : m.sender = (ends.party side).identity)
    (survives : m.body.Survives)
    (goes : Goes secrets ((ends.endpoint side).encapsulate (ends.party side.other).identity m)
      (state (t.book.get side)) r d) :
    Holds ends secrets ⟨t.stage, t.book.set side d.book,
        depart t.inbox side.other (posted (ends.party side.other).identity d ++ handed (some m) r)⟩ ∧
      (m.body.isEnvelope = false → ∃ envelope, r = .ok envelope) ∧
      (isEstablished (t.book.get side) → isEstablished d.book) := by
  cases holds with
  | silent => cases may
  | opened id opening s n flights drawn belongs waits course =>
      cases side with
      | responder => cases may
      | initiator =>
          obtain ⟨myTwo, myFour, ⟨_, n'⟩, rfl, rfl, courseNext, right⟩ :=
            course.say (fresh_firstChains opening) belongs
              (short .initiator s List.mem_cons_self) sender survives goes
          exact ⟨.opened id opening _ n' _ drawn (belongs.said _ _) waits courseNext, right, fun h => h⟩
  | answered id k s u n p q out back ours first second waits course receives courseBack =>
      cases side with
      | initiator =>
          obtain ⟨myTwo, myFour, ⟨_, n'⟩, rfl, rfl, courseNext, right⟩ :=
            course.say (fresh_outward k) first (short .initiator s List.mem_cons_self) sender
              survives goes
          exact ⟨.answered id k _ u n' p q _ back ours (first.said _ _) second waits courseNext
            receives courseBack, right, fun h => h⟩
      | responder =>
          obtain ⟨myTwo, myFour, q', -, rfl, courseNext, right⟩ :=
            courseBack.say (fresh_backward k) second (short .responder u List.mem_cons_self) sender
              survives goes
          exact ⟨.answered id k s _ n p q' out _ ours first (second.said _ _) waits course
            receives courseNext, right, fun h => h⟩
  | completed id k s u p q p' q' out back first second course receives courseBack receivesBack =>
      cases side with
      | initiator =>
          obtain ⟨myTwo, myFour, later, -, rfl, courseNext, right⟩ :=
            course.say (fresh_outward k) first (short .initiator s List.mem_cons_self) sender
              survives goes
          exact ⟨.completed id k _ u p later p' q' _ back (first.said _ _) second courseNext
            receives courseBack receivesBack, right, fun h => h⟩
      | responder =>
          obtain ⟨myTwo, myFour, later, -, rfl, courseNext, right⟩ :=
            courseBack.say (fresh_backward k) second (short .responder u List.mem_cons_self) sender
              survives goes
          exact ⟨.completed id k s _ p q p' later out _ first (second.said _ _) course receives
            courseNext receivesBack, right, fun h => h⟩

theorem Holds.delivers (sound : ends.Sound secrets) {t : Talk} (holds : Holds ends secrets t)
    {side : SessionRole} {f : Flight} {rest : List Flight} {carrier : Message}
    {r : Except ProcessError Received} {d : EndpointState} (waiting : t.inbox.get side = f :: rest)
    (carried : carrier.sender = (ends.party side.other).identity)
    (bridges : Bridges ends side (t.book.get side) f)
    (goes : Goes secrets (takes ends side f carrier) (state (t.book.get side)) r d) :
    Holds ends secrets ⟨if f.message.isSome then t.stage else t.stage.next, t.book.set side d.book,
        depart (t.inbox.set side rest) side.other (posted (ends.party side.other).identity d)⟩ ∧
      f.Yields r ∧ (isEstablished (t.book.get side) → isEstablished d.book) := by
  cases holds with
  | silent => cases side <;> cases waiting
  | opened id opening s n flights drawn belongs waits course =>
      cases side with
      | initiator => cases waiting
      | responder =>
          cases waiting
          obtain ⟨k, u, ours, rfl, second, rfl, rfl, receives, sends⟩ :=
            goes.holds (takes_init sound drawn carried)
          refine ⟨?_, ⟨_, rfl⟩, fun none => nomatch none⟩
          -- All four secrets are there now: the first chains are some of the outward ones.
          rw [show (ends.party SessionRole.responder.other).identity = ends.initiator.identity from rfl,
            posted_single]
          exact .answered id k s u n _ _ _ [] ours belongs second waits
            ⟨course.sends.mono (firstChains_le ours), course.fits,
              course.stream.mono (Carries.mono (firstChains_le ours))⟩
            receives ⟨sends, Position.fits_start _, Position.le_refl _⟩
  | answered id k s u n p q out back ours first second waits course receives courseBack =>
      cases side with
      | initiator =>
          cases waiting
          obtain ⟨rfl, rfl⟩ := goes.holds (takes_accept sound ours first waits carried)
          refine ⟨?_, ⟨_, rfl⟩, fun _ => rfl⟩
          -- The frames on their way were made for the first chain, and all later ones come behind.
          have completed : Holds ends secrets ⟨.completed,
              ⟨⟨[s.completed ends.suite k ends.versions.max]⟩, ⟨[u]⟩⟩, ⟨rest, out⟩⟩ :=
            .completed id k _ u p ⟨.four, 0⟩ ⟨.four, 0⟩ q out rest
              ⟨first.id, first.mine, first.peer, first.peerKey, rfl, first.role⟩ second
              ⟨⟨_, rfl, rfl⟩, Position.fits_start _, course.stream.to_later trivial⟩ receives courseBack
              ⟨rfl, rfl⟩
          exact (depart_nil ⟨rest, out⟩ .responder).symm ▸ completed
      | responder =>
          obtain rfl : out = f :: rest := waiting
          obtain ⟨m, state, peerTwo, peerFour, position, rfl, holds, yields, kept, receivesNext,
              courseNext⟩ :=
            Course.deliver sound (fresh_outward k) second receives course bridges goes
          refine ⟨?_, yields, established_one kept⟩
          rw [holds]
          exact (depart_nil ⟨_ :: back, rest⟩ .initiator).symm ▸
            .answered id k s _ n position q rest back ours first (second.took _ _ _) waits courseNext
              receivesNext ⟨courseBack.sends, courseBack.fits, courseBack.stream⟩
  | completed id k s u p q p' q' out back first second course receives courseBack receivesBack =>
      cases side with
      | initiator =>
          obtain rfl : back = f :: rest := waiting
          obtain ⟨m, state, peerTwo, peerFour, position, rfl, holds, yields, kept, receivesNext,
              courseNext⟩ :=
            Course.deliver sound (fresh_backward k) first receivesBack courseBack bridges goes
          refine ⟨?_, yields, established_one kept⟩
          rw [holds]
          exact (depart_nil ⟨rest, out⟩ .responder).symm ▸
            .completed id k _ u p q position q' out rest (first.took _ _ _) second
              ⟨course.sends, course.fits, course.stream⟩ receives courseNext receivesNext
      | responder =>
          obtain rfl : out = f :: rest := waiting
          obtain ⟨m, state, peerTwo, peerFour, position, rfl, holds, yields, kept, receivesNext,
              courseNext⟩ :=
            Course.deliver sound (fresh_outward k) second receives course bridges goes
          refine ⟨?_, yields, established_one kept⟩
          rw [holds]
          exact (depart_nil ⟨back, rest⟩ .initiator).symm ▸
            .completed id k s _ position q p' q' rest back first (second.took _ _ _) courseNext
              receivesNext ⟨courseBack.sends, courseBack.fits, courseBack.stream⟩ receivesBack

theorem Holds.attempts (sound : ends.Sound secrets) {t : Talk} (holds : Holds ends secrets t)
    {f : Flight} {carrier : Message} {r : Except ProcessError Received} {d : EndpointState}
    (stage : t.stage = .answered) (waits : f ∈ t.inbox.initiator) (isMessage : f.message.isSome = true)
    (goes : Goes secrets (takes ends .initiator f carrier) (state t.book.initiator) r d) :
    (⟨t.stage, t.book.set .initiator d.book,
        depart t.inbox .responder (posted ends.responder.identity d)⟩ : Talk) = t ∧
      r = .error (.notReady "4DH message before accept") := by
  cases holds with
  | silent => cases stage
  | opened => cases stage
  | completed => cases stage
  | answered id k s u n p q out back ours first second waiting course receives courseBack =>
      -- The answer carries no message, so the attempted frame waits behind it.
      have behind : f ∈ back := by
        rcases List.mem_cons.mp waits with rfl | behind
        · cases isMessage
        · exact behind
      obtain ⟨⟨agreement, steps⟩, later, carries⟩ := courseBack.stream.made_of_mem f behind
      have four : agreement = .four := by
        cases agreement with
        | two => exact later.elim
        | four => rfl
      obtain ⟨rfl, rfl⟩ := goes.holds (takes_early sound first waiting four carries carrier)
      exact ⟨congrArg _ (depart_nil _ _), rfl⟩

theorem Holds.loses {t : Talk} (holds : Holds ends secrets t) {side : SessionRole} {f : Flight}
    {before after : List Flight} (flying : t.inbox.get side = before ++ f :: after)
    (isMessage : f.message.isSome = true) :
    Holds ends secrets ⟨t.stage, t.book, t.inbox.set side (before ++ after)⟩ := by
  cases holds with
  | silent => cases side <;> cases before <;> cases flying
  | opened id opening s n flights drawn belongs waits course =>
      cases side with
      | initiator => cases before <;> cases flying
      | responder =>
          obtain ⟨rest, rfl, rfl⟩ := lost_behind rfl isMessage flying
          exact .opened id opening s n _ drawn belongs waits course.lose
  | answered id k s u n p q out back ours first second waits course receives courseBack =>
      cases side with
      | initiator =>
          obtain ⟨rest, rfl, rfl⟩ := lost_behind rfl isMessage flying
          exact .answered id k s u n p q out _ ours first second waits course receives courseBack.lose
      | responder =>
          obtain rfl : out = before ++ f :: after := flying
          exact .answered id k s u n p q _ back ours first second waits course.lose receives courseBack
  | completed id k s u p q p' q' out back first second course receives courseBack receivesBack =>
      cases side with
      | initiator =>
          obtain rfl : back = before ++ f :: after := flying
          exact .completed id k s u p q p' q' out _ first second course receives courseBack.lose
            receivesBack
      | responder =>
          obtain rfl : out = before ++ f :: after := flying
          exact .completed id k s u p q p' q' _ back first second course.lose receives courseBack
            receivesBack

/-! ## Whole talks -/

/-- What one step does: it keeps the invariant, does what it should, and leaves what is
established so; an attempt changes nothing. -/
structure Follows (ends : Ends) (secrets : Key → Prop) (t : Talk) (event : TalkEvent) (u : Talk) :
    Prop where
  holds : Holds ends secrets u
  right : event.IsRight
  established : ∀ side, isEstablished (t.book.get side) → isEstablished (u.book.get side)
  attempted : ∀ f r, event = .attempted f r → u = t

theorem kept_set {book : Both SessionBook} {side : SessionRole} {next : SessionBook}
    (kept : isEstablished (book.get side) → isEstablished next) (other : SessionRole) :
    isEstablished (book.get other) → isEstablished ((book.set side next).get other) := by
  cases side <;> cases other <;> first | exact kept | exact fun h => h

theorem Holds.step (sound : ends.Sound secrets) {t u : Talk} {event : TalkEvent}
    (holds : Holds ends secrets t) (short : t.IsShort) (step : Step ends secrets t event u) :
    Follows ends secrets t event u := by
  cases step with
  | opens r d stage goes =>
      cases holds with
      | silent =>
          obtain ⟨next, right⟩ := holds_opens sound goes
          refine ⟨next, right, fun side none => ?_, fun _ _ other => nomatch other⟩
          cases side <;> cases none
      | opened => cases stage
      | answered => cases stage
      | completed => cases stage
  | speaks side m r d may sender survives goes =>
      obtain ⟨next, right, kept⟩ := holds.speaks short may sender survives goes
      exact ⟨next, right, kept_set kept, fun _ _ other => nomatch other⟩
  | delivers side f rest carrier r d first carried bridges goes =>
      obtain ⟨next, right, kept⟩ := holds.delivers sound first carried bridges goes
      exact ⟨next, right, kept_set kept, fun _ _ other => nomatch other⟩
  | attempts f carrier r d stage waits isMessage goes =>
      obtain ⟨same, right⟩ := holds.attempts sound stage waits isMessage goes
      rw [same]
      exact ⟨holds, ⟨_, right⟩, fun _ h => h, fun _ _ _ => rfl⟩
  | loses side f before after flying isMessage =>
      exact ⟨holds.loses flying isMessage, trivial, fun _ h => h, fun _ _ other => nomatch other⟩

theorem Reachable.holds (sound : ends.Sound secrets) {t : Talk} (reachable : Reachable ends secrets t) :
    Holds ends secrets t ∧ t.IsShort := by
  induction reachable with
  | silent => exact ⟨.silent, fun side s member => by cases side <;> cases member⟩
  | step reachable step short ih => exact ⟨(ih.1.step sound ih.2 step).holds, short⟩

theorem Holds.stands {t : Talk} (holds : Holds ends secrets t) : t.Stands := by
  cases holds with
  | silent => rfl
  | opened id opening s => exact ⟨s, rfl⟩
  | answered id k s u n p q out back ours first second =>
      exact ⟨s, u, rfl, second.id.trans first.id.symm⟩
  | completed id k s u p q p' q' out back first second course receives courseBack receivesBack =>
      refine ⟨s, u, rfl, second.id.trans first.id.symm, ?_⟩
      show [s.state] = [.l40]
      obtain ⟨agreement, steps⟩ := p'
      cases agreement with
      | two =>
          -- Only a responder receives in the first chain.
          have responder : s.role = .responder := receivesBack.1
          rw [first.role] at responder
          cases responder
      | four => rw [show s.state = .l40 from receivesBack.1]

theorem Holds.peaceful {t : Talk} (holds : Holds ends secrets t) : t.Peaceful := by
  have nothing : ∀ f ∈ ([] : List Flight), isPeaceful f.envelope.frame = true := by
    intro f member
    cases member
  intro side
  cases holds with
  | silent => cases side <;> exact nothing
  | opened id opening s n flights drawn belongs waits course =>
      cases side with
      | initiator => exact nothing
      | responder => exact List.forall_mem_cons.mpr ⟨rfl, course.peaceful⟩
  | answered id k s u n p q out back ours first second waits course receives courseBack =>
      cases side with
      | initiator => exact List.forall_mem_cons.mpr ⟨rfl, courseBack.peaceful⟩
      | responder => exact course.peaceful
  | completed id k s u p q p' q' out back first second course receives courseBack receivesBack =>
      cases side with
      | initiator => exact courseBack.peaceful
      | responder => exact course.peaceful

def outcome {α : Type} (suite : Suite) (key : Key) (part : Intake α) (book : SessionBook) :
    Except ProcessError α × EndpointState :=
  let ran := part.run.run suite (.plain key) ⟨(), .empty, .memory book, none⟩
  (ran.value, (EndpointState.rules fun _ => True).afterAll (state book) ran.exchanges)

theorem goes_outcome {α : Type} (suite : Suite) {key : Key} (drawn : secrets key) (part : Intake α)
    (book : SessionBook) :
    Goes secrets part (state book) (outcome suite key part book).1 (outcome suite key part book).2 := by
  have admitted := EndpointState.admits_run suite (EndpointState.plain_serves drawn) part.run
    (w := ⟨(), .empty, .memory book, none⟩) (d := state book) ⟨rfl, rfl⟩
  exact ⟨_, Script.reaches_run _ _ _ _, admitted.1, rfl⟩

/-- Whatever two parties say, and whenever it is delivered, what is received is what was
said. -/
theorem talk_delivers (ends : Ends) (secrets : Key → Prop) (sound : ends.Sound secrets) :
    ∀ t, Reachable ends secrets t → Delivers ends secrets t := by
  intro t reachable
  obtain ⟨holds, short⟩ := reachable.holds sound
  refine ⟨holds.peaceful, holds.stands, ?_, ?_, ?_⟩
  · intro event u step
    have follows := holds.step sound short step
    exact ⟨follows.right, follows.established⟩
  · intro f r u step
    exact (holds.step sound short step).attempted f r rfl
  · intro side f rest first bridges
    have goes := goes_outcome ends.suite sound.initiator (takes ends side f (carrier ends side))
      (t.book.get side)
    exact ⟨_, _, .delivers t side f rest _ _ _ first rfl bridges goes⟩

/-! ## A talk -/

section Example

/-- Two parties who let frames be skipped as far as counters go. -/
def plainEnds : Ends :=
  ⟨.plain, .supported, ⟨Setting.peer, Block.ofNat 32 2, .ofNat (UInt64.size - 1)⟩,
    ⟨Setting.us, Block.ofNat 32 1, .ofNat (UInt64.size - 1)⟩⟩

theorem plainEnds_sound : plainEnds.Sound fun _ => True where
  opens := Suite.plain_opens
  shares a b _ _ := ⟨_, rfl, (Suite.plain_agrees b a).trans rfl⟩
  initiator := trivial
  responder := trivial
  proper := by decide

def plainOutcome {α : Type} (part : Intake α) (book : SessionBook) :
    Except ProcessError α × EndpointState :=
  outcome .plain Setting.peerKey part book

def begun : Talk :=
  let o := plainOutcome ((plainEnds.endpoint .initiator).initiate plainEnds.responder.identity
    (plainEnds.publicKey .responder)) .empty
  ⟨.opened, ⟨o.2.book, .empty⟩, ⟨[], posted plainEnds.responder.identity o.2 ++ handed none o.1⟩⟩

def saying (t : Talk) (side : SessionRole) (m : Message) : Talk :=
  let o := plainOutcome ((plainEnds.endpoint side).encapsulate (plainEnds.party side.other).identity m)
    (t.book.get side)
  ⟨t.stage, t.book.set side o.2.book, depart t.inbox side.other
    (posted (plainEnds.party side.other).identity o.2 ++ handed (some m) o.1)⟩

def hearing (t : Talk) (side : SessionRole) : Talk :=
  match t.inbox.get side with
  | [] => t
  | f :: rest =>
    let o := plainOutcome (takes plainEnds side f (carrier plainEnds side)) (t.book.get side)
    ⟨if f.message.isSome then t.stage else t.stage.next, t.book.set side o.2.book,
      depart (t.inbox.set side rest) side.other (posted (plainEnds.party side.other).identity o.2)⟩

/-- Nothing can be too far ahead of a ratchet of theirs. -/
theorem plainEnds_bridges (side : SessionRole) (book : SessionBook) (f : Flight) :
    Bridges plainEnds side book f := by
  intro s _ content _ r _
  have below := content.sealed.counter.toNat_lt
  have skips : (plainEnds.party side).maxSkip.toNat = UInt64.size - 1 := by
    cases side <;> decide
  rw [skips]
  have size : UInt64.size = 2 ^ 64 := rfl
  omega

theorem step_hearing (t : Talk) (side : SessionRole) (isMessage : Bool)
    (waits : (t.inbox.get side).head?.map (fun f => f.message.isSome) = some isMessage) :
    ∃ f r, f.message.isSome = isMessage ∧
      Step plainEnds (fun _ => True) t (.delivered side f r) (hearing t side) := by
  cases inbox : t.inbox.get side with
  | nil =>
      rw [inbox] at waits
      cases waits
  | cons f rest =>
      rw [inbox] at waits
      let part := takes plainEnds side f (carrier plainEnds side)
      refine ⟨f, (plainOutcome part (t.book.get side)).1, Option.some.inj waits, ?_⟩
      unfold hearing
      rw [inbox]
      exact .delivers t side f rest _ _ _ inbox rfl (plainEnds_bridges side _ f)
        (goes_outcome _ trivial part _)

/-- A message that is said before the opening of the session has arrived is received. -/
theorem talk_delivers_first :
    ∃ t f r u, Reachable plainEnds (fun _ => True) t ∧ Delivers plainEnds (fun _ => True) t ∧
      Step plainEnds (fun _ => True) t (.delivered .responder f r) u ∧ f.message.isSome = true ∧
      f.Yields r := by
  let m : Message := ⟨Block.zero 8, Setting.peer, Setting.us, .ofSeconds 0, ⟨0⟩, none,
    .contactDeletePhoto⟩
  have opened : Reachable plainEnds (fun _ => True) begun := by
    refine .step .silent (.opens _ _ _ rfl (goes_outcome _ trivial _ _)) ?_
    intro side
    cases side <;> decide +kernel
  have said : Reachable plainEnds (fun _ => True) (saying begun .initiator m) := by
    refine .step opened (.speaks begun .initiator m _ _ rfl rfl rfl (goes_outcome _ trivial _ _)) ?_
    intro side
    cases side <;> decide +kernel
  obtain ⟨_, _, _, first⟩ := step_hearing (saying begun .initiator m) .responder false
    (by decide +kernel)
  have heard : Reachable plainEnds (fun _ => True) (hearing (saying begun .initiator m) .responder) := by
    refine .step said first ?_
    intro side
    cases side <;> decide +kernel
  have delivers := talk_delivers plainEnds _ plainEnds_sound _ heard
  obtain ⟨f, r, isMessage, second⟩ := step_hearing
    (hearing (saying begun .initiator m) .responder) .responder true (by decide +kernel)
  exact ⟨_, f, r, _, heard, delivers, second, isMessage, (delivers.right _ _ second).1⟩

end Example

end Talk

end SecureInbox
