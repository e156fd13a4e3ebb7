import SecureInbox.Bytes.Hex
import SecureInbox.Instant
import SecureInbox.Session.Ratchet
import SecureInbox.Session.Version
import SecureInbox.Text.Quoted

/-! # Forward-secrecy sessions

A session between two identities holds up to four ratchets.  The initiator's
first frames are protected by two key agreements; once the responder's answer is
there, both sides change to chains over four agreements:

* two: `DH(Is, Rs) ‖ DH(Ie, Rs)`, from initiator to responder;
* four: `DH(Is, Rs) ‖ DH(Is, Re) ‖ DH(Ie, Rs) ‖ DH(Ie, Re)`, one chain each way.

Secrets, identifiers and nonces that are drawn at random are arguments here. -/
set_option autoImplicit false

namespace SecureInbox

abbrev SessionId := Block 16

/-- Which chain protects a frame. -/
inductive Agreement where
  | two
  | four
deriving DecidableEq

inductive SessionState where
  | none
  | l20
  | l40
  | exhausted
deriving DecidableEq

def SessionState.text : SessionState → String
  | .none => "NoSession"
  | .l20 => "L20"
  | .l40 => "L40"
  | .exhausted => "Exhausted"

inductive SessionRole where
  | initiator
  | responder
deriving DecidableEq

def SessionRole.text : SessionRole → String
  | .initiator => "Initiator"
  | .responder => "Responder"

structure Session where
  id : SessionId
  mine : String
  peer : String
  peerKey : Key
  role : SessionRole
  state : SessionState
  version : Version
  ephemeralSecret : Option Key
  myTwo : Option Ratchet
  myFour : Option Ratchet
  peerTwo : Option Ratchet
  peerFour : Option Ratchet
  created : Instant
deriving DecidableEq

namespace Session

def salt : Bytes := Text.utf8 "im-fs-v1"

def labelTwo : Bytes := Text.utf8 "2dh-i2r"

def labelFourOut : Bytes := Text.utf8 "4dh-i2r"

def labelFourBack : Bytes := Text.utf8 "4dh-r2i"

/-- A fresh chain from the agreed secrets. -/
def chain (suite : Suite) (secrets : List Key) (label : Bytes) : Ratchet :=
  ⟨1, suite.derive salt (secrets.flatMap Block.bytes) label⟩

/-- A new session towards a peer, and the public key for its opening frame. -/
def initiate (suite : Suite) (secret ephemeral : Key) (id : SessionId) (mine peer : String)
    (peerKey : Key) (version : Version) (created : Instant) :
    Except CryptoError (Session × Key) := do
  let ss ← suite.agree .peer secret peerKey
  let es ← suite.agree .ephemeral ephemeral peerKey
  let session : Session :=
    { id, mine, peer, peerKey, role := .initiator, state := .l20, version
      ephemeralSecret := some ephemeral
      myTwo := some (chain suite [ss, es] labelTwo)
      myFour := none, peerTwo := none, peerFour := none, created }
  return (session, suite.publicKey ephemeral)

/-- The answer to a peer's opening frame: the session and the public key for the
answering frame. -/
def respond (suite : Suite) (secret ephemeral : Key) (id : SessionId) (mine peer : String)
    (peerKey peerEphemeral : Key) (version : Version) (created : Instant) :
    Except CryptoError (Session × Key) := do
  let ss ← suite.agree .peer secret peerKey
  let se ← suite.agree .peer secret peerEphemeral
  let es ← suite.agree .ephemeral ephemeral peerKey
  let ee ← suite.agree .ephemeral ephemeral peerEphemeral
  let session : Session :=
    { id, mine, peer, peerKey, role := .responder, state := .l20, version
      ephemeralSecret := none, myTwo := none
      myFour := some (chain suite [ss, es, se, ee] labelFourBack)
      peerTwo := some (chain suite [ss, se] labelTwo)
      peerFour := some (chain suite [ss, es, se, ee] labelFourOut), created }
  return (session, suite.publicKey ephemeral)

/-- Role and state, as an error names them. -/
def standing (s : Session) : String := s.role.text ++ "/" ++ s.state.text

/-- Completes a session that we initiated with the peer's answering key. -/
def accept (suite : Suite) (secret peerEphemeral : Key) (version : Version) (s : Session) :
    Except CryptoError Session := do
  if s.role ≠ .initiator ∨ s.state ≠ .l20 then throw (.wrongState s.standing)
  match s.ephemeralSecret with
  | none => throw (.wrongState "ephemeral key already consumed")
  | some ephemeral =>
    let ss ← suite.agree .peer secret s.peerKey
    let se ← suite.agree .peer secret peerEphemeral
    let es ← suite.agree .ephemeral ephemeral s.peerKey
    let ee ← suite.agree .ephemeral ephemeral peerEphemeral
    return { s with
      myFour := some (chain suite [ss, se, es, ee] labelFourOut)
      peerFour := some (chain suite [ss, se, es, ee] labelFourBack)
      myTwo := none, ephemeralSecret := none, version, state := .l40 }

/-- A protected message: the chain and counter of its key, and the ciphertext. -/
structure Protected where
  agreement : Agreement
  counter : UInt64
  ciphertext : Bytes
deriving DecidableEq

/-- Protects a message with the best chain there is and steps that chain. -/
def encrypt (suite : Suite) (nonce : Nonce) (plaintext : Bytes) (s : Session) :
    Except CryptoError (Protected × Session) :=
  let wrap (r : Ratchet) : Bytes := suite.wrap (r.key suite) nonce plaintext s.id.bytes
  match s.myFour, s.myTwo with
  | some r, _ => .ok (⟨.four, r.counter, wrap r⟩, { s with myFour := some (r.turn suite) })
  | none, some r => .ok (⟨.two, r.counter, wrap r⟩, { s with myTwo := some (r.turn suite) })
  | none, none => .error (.missingRatchet .outgoing)

/-- The receiving ratchet of a chain. -/
def peerRatchet (s : Session) : Agreement → Option Ratchet
  | .two => s.peerTwo
  | .four => s.peerFour

def setPeerRatchet (s : Session) (agreement : Agreement) (r : Ratchet) : Session :=
  match agreement with
  | .two => { s with peerTwo := some r }
  | .four => { s with peerFour := some r }

def missing : Agreement → CryptoError
  | .two => .missingRatchet .twoParty
  | .four => .missingRatchet .fourParty

/-- A responder has its answer confirmed by the first frame of the four-party
chain, and drops the two-party one. -/
def confirm (agreement : Agreement) (s : Session) : Session :=
  if agreement = .four ∧ s.role = .responder ∧ s.state = .l20 then
    { s with peerTwo := none, state := .l40 }
  else s

/-- Opens a protected message and steps the receiving chain past it.  A message
that is not authentic still moves the chain up to its counter. -/
def decrypt (suite : Suite) (p : Protected) (maxSkip : UInt64) (s : Session) :
    Except CryptoError Bytes × Session :=
  match s.peerRatchet p.agreement with
  | none => (.error (missing p.agreement), s)
  | some r =>
    match r.turnUntil suite p.counter maxSkip with
    | .error e => (.error e, s)
    | .ok (_, r) =>
      match suite.unwrap (r.key suite) p.ciphertext s.id.bytes with
      | .error e => (.error e, s.setPeerRatchet p.agreement r)
      | .ok plaintext =>
        (.ok plaintext, confirm p.agreement (s.setPeerRatchet p.agreement (r.turn suite)))

def isBoundTo (s : Session) (key : Key) : Bool := s.peerKey == key

/-- The next counter expected on a receiving chain. -/
def peerCounter (s : Session) (agreement : Agreement) : Option UInt64 :=
  (s.peerRatchet agreement).map (·.counter)

/-- The session without its secrets, under a name. -/
def describedAs (name : String) (s : Session) : String :=
  "DhSession \x7b id: " ++ Text.quoted name ++ ", peer: " ++ Text.quoted s.peer ++
    ", role: " ++ s.role.text ++ ", state: " ++ s.state.text ++
    ", version: FsVersion(" ++ toString s.version.code ++ "), .. \x7d"

/-- The session without its secrets. -/
def description (s : Session) : String := s.describedAs s.id.hex

end Session

end SecureInbox
