import SecureInbox.Session.Basic

/-! # Calls that change what they are made on

An `InPlace` call gives a result or an error, and either way leaves the state as it has written
it until then.  `acceptInPlace` and `encryptInPlace` read, check, agree on keys and write one
field after another.  All that can fail comes before the first write, so that an error leaves the
session as it was (`acceptInPlace_on`, `encryptInPlace_on`). -/
set_option autoImplicit false

namespace SecureInbox

abbrev InPlace (σ α : Type) := ExceptT CryptoError (StateM σ) α

namespace InPlace

variable {σ α β : Type}

/-- What a call answers, and the state that it leaves. -/
def on (call : InPlace σ α) (s : σ) : Except CryptoError α × σ := call.run.run s

theorem on_bind (call : InPlace σ α) (next : α → InPlace σ β) (s : σ) :
    (call >>= next).on s =
      match call.on s with
      | (.ok a, left) => (next a).on left
      | (.error e, left) => (.error e, left) := by
  show (ExceptT.bindCont next (call.on s).1).run (call.on s).2 = _
  rcases call.on s with ⟨_ | _, _⟩ <;> rfl

end InPlace

namespace Session

variable (suite : Suite)

def acceptInPlace (secret peerEphemeral : Key) (version : Version) : InPlace Session Unit := do
  let s ← get
  if s.role ≠ .initiator ∨ s.state ≠ .l20 then throw (.wrongState s.standing)
  else
    match s.ephemeralSecret with
    | none => throw (.wrongState "ephemeral key already consumed")
    | some ephemeral =>
      let ss ← suite.agree .peer secret s.peerKey
      let se ← suite.agree .peer secret peerEphemeral
      let es ← suite.agree .ephemeral ephemeral s.peerKey
      let ee ← suite.agree .ephemeral ephemeral peerEphemeral
      modify fun s => { s with myFour := some (chain suite [ss, se, es, ee] labelFourOut) }
      modify fun s => { s with peerFour := some (chain suite [ss, se, es, ee] labelFourBack) }
      modify fun s => { s with myTwo := none }
      modify fun s => { s with ephemeralSecret := none }
      modify fun s => { s with version }
      modify fun s => { s with state := .l40 }

def encryptInPlace (nonce : Nonce) (plaintext : Bytes) : InPlace Session Protected := do
  let s ← get
  let frame (agreement : Agreement) (r : Ratchet) : Protected :=
    ⟨agreement, r.counter, suite.wrap (r.key suite) nonce plaintext s.id.bytes⟩
  match s.myFour, s.myTwo with
  | some r, _ =>
    modify fun s => { s with myFour := some (r.turn suite) }
    return frame .four r
  | none, some r =>
    modify fun s => { s with myTwo := some (r.turn suite) }
    return frame .two r
  | none, none => throw (.missingRatchet .outgoing)

theorem acceptInPlace_on (secret peerEphemeral : Key) (version : Version) (s : Session) :
    (acceptInPlace suite secret peerEphemeral version).on s =
      match s.accept suite secret peerEphemeral version with
      | .ok t => (.ok (), t)
      | .error e => (.error e, s) := by
  rw [acceptInPlace, InPlace.on_bind]
  show InPlace.on (if s.role ≠ .initiator ∨ s.state ≠ .l20 then _ else _) s = _
  rw [accept]
  by_cases wrong : s.role ≠ .initiator ∨ s.state ≠ .l20
  · rw [if_pos wrong, if_pos wrong]
    rfl
  · rw [if_neg wrong, if_neg wrong]
    cases s.ephemeralSecret with
    | none => rfl
    | some ephemeral =>
        dsimp only
        cases suite.agree .peer secret s.peerKey with
        | error e => rfl
        | ok ss =>
            cases suite.agree .peer secret peerEphemeral with
            | error e => rfl
            | ok se =>
                cases suite.agree .ephemeral ephemeral s.peerKey with
                | error e => rfl
                | ok es => cases suite.agree .ephemeral ephemeral peerEphemeral <;> rfl

theorem encryptInPlace_on (nonce : Nonce) (plaintext : Bytes) (s : Session) :
    (encryptInPlace suite nonce plaintext).on s =
      match s.encrypt suite nonce plaintext with
      | .ok (p, t) => (.ok p, t)
      | .error e => (.error e, s) := by
  rw [encryptInPlace, InPlace.on_bind, encrypt]
  obtain ⟨id, mine, peer, peerKey, role, state, version, ephemeralSecret, myTwo, myFour, peerTwo,
    peerFour, created⟩ := s
  cases myFour <;> cases myTwo <;> rfl

end Session

end SecureInbox
