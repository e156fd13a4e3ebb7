import SecureInbox.Proofs.Intake.Flight

/-! # Two parties that talk

A `Talk` is the state of two parties of which one opens a session with the other: the
sessions of each, and what is on its way to each.  In a `Step` the session is opened, a
party puts a message into a frame, the first flight to a party is delivered, an
encapsulated one is lost, or a frame that is ahead of the answer to the opening is
attempted.  Answers of the surroundings are those of an `EndpointState`, and otherwise
free. -/
set_option autoImplicit false

namespace SecureInbox

structure Both (α : Type) where
  initiator : α
  responder : α

namespace Both

variable {α : Type}

def get (both : Both α) : SessionRole → α
  | .initiator => both.initiator
  | .responder => both.responder

def set (both : Both α) : SessionRole → α → Both α
  | .initiator, a => ⟨a, both.responder⟩
  | .responder, a => ⟨both.initiator, a⟩

end Both

inductive Stage where
  | silent
  /-- The opening frame is on its way. -/
  | opened
  /-- The answer is on its way. -/
  | answered
  | completed
deriving DecidableEq

namespace Stage

def next : Stage → Stage
  | .opened => .answered
  | .answered => .completed
  | stage => stage

/-- Whether a party may put messages into frames: the one who opens from then on, the
other one after it has received the opening. -/
def maySay : Stage → SessionRole → Bool
  | .silent, _ => false
  | .opened, .responder => false
  | _, _ => true

end Stage

structure Talk where
  stage : Stage
  book : Both SessionBook
  /-- What is on its way to each party, the oldest first. -/
  inbox : Both (List Flight)

inductive TalkEvent where
  | opened (result : Except ProcessError Envelope)
  | said (side : SessionRole) (message : Message) (result : Except ProcessError Envelope)
  | delivered (side : SessionRole) (flight : Flight) (result : Except ProcessError Received)
  | attempted (flight : Flight) (result : Except ProcessError Received)
  | lost (side : SessionRole) (flight : Flight)

namespace Talk

def silent : Talk := ⟨.silent, ⟨.empty, .empty⟩, ⟨[], []⟩⟩

def state (book : SessionBook) : EndpointState := ⟨book, .empty, []⟩

def Goes {α : Type} (secrets : Key → Prop) (part : Intake α) (before : EndpointState)
    (result : Except ProcessError α) (after : EndpointState) : Prop :=
  ∃ xs, Script.Reaches part.run xs (.done result) ∧ (EndpointState.rules secrets).AdmitsAll before xs ∧
    after = (EndpointState.rules secrets).afterAll before xs

def posted (peer : Identity) (d : EndpointState) : List Flight :=
  (d.sent.filter fun x => x.1 = peer).map fun x => ⟨x.2, none⟩

def handed (message : Option Message) : Except ProcessError Envelope → List Flight
  | .ok envelope => [⟨envelope, message⟩]
  | .error _ => []

def depart (inbox : Both (List Flight)) (side : SessionRole) (flights : List Flight) :
    Both (List Flight) := inbox.set side (inbox.get side ++ flights)

variable (ends : Ends) (secrets : Key → Prop)

def takes (side : SessionRole) (f : Flight) (carrier : Message) : Intake Received :=
  (ends.endpoint side).take (f.outer carrier) (ends.publicKey side.other) f.envelope

def carrier (side : SessionRole) : Message :=
  ⟨Block.zero 8, (ends.party side.other).identity, (ends.party side).identity, .ofSeconds 0, ⟨0⟩,
    none, .empty⟩

/-- No frame is further ahead of its ratchet than the party lets it be. -/
def Bridges (side : SessionRole) (book : SessionBook) (f : Flight) : Prop :=
  ∀ s ∈ book.sessions, ∀ content, f.envelope.frame = .encapsulated content →
    Chains.Near s content.sealed (ends.party side).maxSkip

inductive Step : Talk → TalkEvent → Talk → Prop where
  | opens (t : Talk) (r : Except ProcessError Envelope) (d : EndpointState) (stage : t.stage = .silent)
      (goes : Goes secrets ((ends.endpoint .initiator).initiate ends.responder.identity
        (ends.publicKey .responder)) (state t.book.initiator) r d) :
      Step t (.opened r) ⟨.opened, t.book.set .initiator d.book,
        depart t.inbox .responder (posted ends.responder.identity d ++ handed none r)⟩
  | speaks (t : Talk) (side : SessionRole) (m : Message) (r : Except ProcessError Envelope)
      (d : EndpointState)
      (may : t.stage.maySay side = true) (sender : m.sender = (ends.party side).identity)
      (survives : m.body.Survives)
      (goes : Goes secrets ((ends.endpoint side).encapsulate (ends.party side.other).identity m)
        (state (t.book.get side)) r d) :
      Step t (.said side m r) ⟨t.stage, t.book.set side d.book,
        depart t.inbox side.other (posted (ends.party side.other).identity d ++ handed (some m) r)⟩
  | delivers (t : Talk) (side : SessionRole) (f : Flight) (rest : List Flight) (carrier : Message)
      (r : Except ProcessError Received) (d : EndpointState) (first : t.inbox.get side = f :: rest)
      (carried : carrier.sender = (ends.party side.other).identity)
      (bridges : Bridges ends side (t.book.get side) f)
      (goes : Goes secrets (takes ends side f carrier) (state (t.book.get side)) r d) :
      Step t (.delivered side f r) ⟨if f.message.isSome then t.stage else t.stage.next,
        t.book.set side d.book,
        depart (t.inbox.set side rest) side.other (posted (ends.party side.other).identity d)⟩
  | attempts (t : Talk) (f : Flight) (carrier : Message) (r : Except ProcessError Received)
      (d : EndpointState)
      (stage : t.stage = .answered) (waits : f ∈ t.inbox.initiator) (holds : f.message.isSome = true)
      (goes : Goes secrets (takes ends .initiator f carrier) (state t.book.initiator) r d) :
      Step t (.attempted f r) ⟨t.stage, t.book.set .initiator d.book,
        depart t.inbox .responder (posted ends.responder.identity d)⟩
  | loses (t : Talk) (side : SessionRole) (f : Flight) (before after : List Flight)
      (flying : t.inbox.get side = before ++ f :: after) (holds : f.message.isSome = true) :
      Step t (.lost side f) ⟨t.stage, t.book, t.inbox.set side (before ++ after)⟩

def IsShort (t : Talk) : Prop := ∀ side, ∀ s ∈ (t.book.get side).sessions, s.IsShort

/-- The states of runs whose counters stay small. -/
inductive Reachable : Talk → Prop where
  | silent : Reachable .silent
  | step {t u : Talk} {event : TalkEvent} (reachable : Reachable t) (step : Step ends secrets t event u)
      (short : u.IsShort) : Reachable u

end Talk

/-- What should come of a delivered flight: the message that was put in, by a session
that a four-party frame has established; and without a message nothing but a session. -/
def Flight.Yields (f : Flight) (r : Except ProcessError Received) : Prop :=
  match f.message with
  | some m => ∃ s, r = .ok ⟨some m, .ofSession s, some s⟩ ∧
      ∀ content, f.envelope.frame = .encapsulated content →
        content.sealed.agreement = .four → s.state = .l40
  | none => ∃ session, r = .ok (.control session)

/-- What should happen: the session is opened, a message is put into a frame unless it
is an envelope itself, what is delivered yields what was sent, and a frame that is ahead
of the answer can be delivered later. -/
def TalkEvent.IsRight : TalkEvent → Prop
  | .opened r => ∃ envelope, r = .ok envelope
  | .said _ m r => m.body.isEnvelope = false → ∃ envelope, r = .ok envelope
  | .delivered _ f r => f.Yields r
  | .attempted _ r => ∃ reason, r = .error (.notReady reason)
  | .lost _ _ => True

namespace Talk

def isPeaceful : Frame → Bool
  | .init _ _ | .accept _ _ | .encapsulated _ => true
  | _ => false

def Peaceful (t : Talk) : Prop :=
  ∀ side, ∀ f ∈ t.inbox.get side, isPeaceful f.envelope.frame = true

/-- A party has one session, and knows that the peer has it too. -/
def isEstablished (book : SessionBook) : Prop := book.sessions.map Session.state = [.l40]

/-- The parties have the session that they should have: one each, of the same name, which
the one who opened it knows as established from the answer on. -/
def Stands (t : Talk) : Prop :=
  match t.stage with
  | .silent => t.book = ⟨.empty, .empty⟩
  | .opened => ∃ s, t.book = ⟨⟨[s]⟩, .empty⟩
  | .answered => ∃ s u, t.book = ⟨⟨[s]⟩, ⟨[u]⟩⟩ ∧ u.id = s.id
  | .completed => ∃ s u, t.book = ⟨⟨[s]⟩, ⟨[u]⟩⟩ ∧ u.id = s.id ∧ isEstablished t.book.initiator

structure Delivers (ends : Ends) (secrets : Key → Prop) (t : Talk) : Prop where
  peaceful : t.Peaceful
  stands : t.Stands
  /-- Whatever happens next is right, and what is established stays so. -/
  right : ∀ event u, Step ends secrets t event u → event.IsRight ∧
    ∀ side, isEstablished (t.book.get side) → isEstablished (u.book.get side)
  attempted : ∀ f r u, Step ends secrets t (.attempted f r) u → u = t
  /-- The first flight to a party can be delivered. -/
  onward : ∀ side f rest, t.inbox.get side = f :: rest → Bridges ends side (t.book.get side) f →
    ∃ r u, Step ends secrets t (.delivered side f r) u

end Talk

end SecureInbox
