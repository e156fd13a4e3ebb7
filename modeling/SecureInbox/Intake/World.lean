import SecureInbox.Intake.Script
import SecureInbox.Rejection.Log

/-! # Surroundings of a script

A `World` holds what scripts work on: the nonce register, the session store, the
rejection log, and the state of a `Host`, which stands for the application, the
transport, chance and the clock.  A host may also make a store fail.

`Script.run` answers a script and gives its value, the world afterwards and all
requests with their answers, in order. -/
set_option autoImplicit false

namespace SecureInbox

/-- How the surroundings answer.  A store that is made to fail changes nothing. -/
structure Host (σ : Type) where
  call : (c : HostCall) → σ → Except HandlerError c.Answer × σ
  storeFault : StoreCall → σ → Option StoreError × σ
  draw : (d : Draw) → σ → d.Answer × σ
  now : σ → Instant × σ

structure World (σ : Type) where
  host : σ
  nonces : NonceRegister
  sessions : SessionStore
  log : Option RejectionLog

/-- A request with its answer. -/
structure Exchange where
  request : Request
  answer : request.Answer

namespace World

/-- The answer of the stores. -/
def answerStore {σ : Type} (suite : Suite) (host : Host σ) (w : World σ) :
    (c : StoreCall) → Except StoreError c.Answer × World σ
  | .seen hash => (.ok (w.nonces.contains hash), w)
  | .mark hash =>
      let (isNew, nonces) := w.nonces.insert hash
      (.ok isNew, { w with nonces })
  | .best mine peer => (w.sessions.best suite mine peer, w)
  | .find key => (w.sessions.find suite key, w)
  | .put session =>
      let (nonce, state) := host.draw .nonce w.host
      let (now, state) := host.now state
      match w.sessions.put suite nonce now session with
      | .ok sessions => (.ok (), { w with host := state, sessions })
      | .error e => (.error e, { w with host := state })
  | .erase key =>
      let (found, sessions) := w.sessions.erase key
      (.ok found, { w with sessions })
  | .erasePair mine peer =>
      let (count, sessions) := w.sessions.erasePair mine peer
      (.ok count, { w with sessions })

/-- The answer to a request. -/
def answer {σ : Type} (suite : Suite) (host : Host σ) (w : World σ) :
    (r : Request) → r.Answer × World σ
  | .host c =>
      let (answer, state) := host.call c w.host
      (answer, { w with host := state })
  | .store c =>
      match host.storeFault c w.host with
      | (some e, state) => (.error e, { w with host := state })
      | (none, state) => answerStore suite host { w with host := state } c
  | .notice _ => ((), w)
  | .record rejection =>
      match w.log with
      | none => (none, w)
      | some log =>
        let (now, state) := host.now w.host
        let (record, log) := log.append now rejection
        (some record, { w with host := state, log := some log })
  | .draw d =>
      let (answer, state) := host.draw d w.host
      (answer, { w with host := state })
  | .now =>
      let (answer, state) := host.now w.host
      (answer, { w with host := state })
  | .enter _ => ((), w)
  | .leave _ => ((), w)

end World

/-- What came of a script. -/
structure Ran (σ α : Type) where
  value : α
  world : World σ
  exchanges : List Exchange

namespace Script

/-- Answers a script to its end. -/
def run {σ α : Type} (suite : Suite) (host : Host σ) : Script α → World σ → Ran σ α
  | .done value, w => ⟨value, w, []⟩
  | .ask request next, w =>
      let (answer, after) := w.answer suite host request
      let rest := (next answer).run suite host after
      ⟨rest.value, rest.world, ⟨request, answer⟩ :: rest.exchanges⟩

theorem run_andThen {σ α β : Type} (suite : Suite) (host : Host σ) (s : Script α)
    (f : α → Script β) (w : World σ) :
    (s.andThen f).run suite host w =
      let first := s.run suite host w
      let second := (f first.value).run suite host first.world
      ⟨second.value, second.world, first.exchanges ++ second.exchanges⟩ := by
  induction s generalizing w with
  | done value => rfl
  | ask request next ih => simp only [andThen, run, ih, List.cons_append]

end Script

end SecureInbox
