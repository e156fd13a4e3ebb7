import Mathlib.Logic.Function.Basic
import SecureInbox.Proofs.Intake.LogIndependence
import SecureInbox.Proofs.Intake.PeerScope
import SecureInbox.Proofs.Store.Pairs

/-! # A part of the surroundings for each sender

`Host.serving` has a state for each sender, from which it answers all that is asked for that
sender's messages; the state may hold everything that was asked for them before.

The stores and the rejection log are shared.  A world `Mirrors` a world of one sender alone as long
as both have the same in that sender's scope.  What is asked in the scope has the same answer in
both worlds, and they stay alike (`Mirrors.own`); what is asked in another scope does not show
(`Mirrors.other`). -/
set_option autoImplicit false

namespace SecureInbox

/-- A host that answers for a sender from the sender's part of its state. -/
def Host.serving {τ : Type} (hosts : Identity → Host τ) (sender : Identity) : Host (Identity → τ) where
  call c s :=
    let (answer, part) := (hosts sender).call c (s sender)
    (answer, Function.update s sender part)
  storeFault c s :=
    let (fault, part) := (hosts sender).storeFault c (s sender)
    (fault, Function.update s sender part)
  draw d s :=
    let (answer, part) := (hosts sender).draw d (s sender)
    (answer, Function.update s sender part)
  now s :=
    let (time, part) := (hosts sender).now (s sender)
    (time, Function.update s sender part)

theorem Host.serving_storeFault {τ : Type} (hosts : Identity → Host τ) (sender : Identity)
    (c : StoreCall) (s : Identity → τ) :
    (serving hosts sender).storeFault c s = (((hosts sender).storeFault c (s sender)).1,
      Function.update s sender ((hosts sender).storeFault c (s sender)).2) := rfl

/-! ## What an answer does to the stores -/

inductive World.StoresAfter {σ : Type} (suite : Suite) (w : World σ) :
    Request → NonceRegister → SessionStore → Prop where
  | same (r : Request) : StoresAfter suite w r w.nonces w.sessions
  | marked (hash : NonceHash) :
      StoresAfter suite w (.store (.mark hash)) (w.nonces.insert hash).2 w.sessions
  | put {nonce : Nonce} {now : Instant} {s : Session} {sessions : SessionStore}
      (stored : w.sessions.put suite nonce now s = .ok sessions) :
      StoresAfter suite w (.store (.put s)) w.nonces sessions
  | erased (key : SessionKey) :
      StoresAfter suite w (.store (.erase key)) w.nonces (w.sessions.erase key).2
  | pairErased (mine peer : String) :
      StoresAfter suite w (.store (.erasePair mine peer)) w.nonces (w.sessions.erasePair mine peer).2

namespace World

variable {σ : Type} {suite : Suite} {host : Host σ} {w : World σ} {c : PeerScope} {r : Request}
  {nonces : NonceRegister} {sessions : SessionStore}

theorem storesAfter_answer (suite : Suite) (host : Host σ) (w : World σ) (r : Request) :
    w.StoresAfter suite r (w.answer suite host r).2.nonces (w.answer suite host r).2.sessions := by
  cases r with
  | store call =>
      simp only [answer]
      split
      · exact .same _
      · cases call with
        | mark hash => exact .marked hash
        | put s =>
            simp only [answerStore]
            split
            · next stored => exact .put stored
            · exact .same _
        | erase key => exact .erased key
        | erasePair mine peer => exact .pairErased mine peer
        | _ => exact .same _
  | record rejection =>
      simp only [answer]
      split <;> exact .same _
  | _ => exact .same _

theorem logged_answer (suite : Suite) (host : Host σ) (w : World σ) (r : Request) :
    (w.answer suite host r).2.log.isSome = w.log.isSome := by
  cases r with
  | store call =>
      simp only [answer]
      split
      · rfl
      · cases call with
        | put s =>
            simp only [answerStore]
            split <;> rfl
        | _ => rfl
  | record rejection =>
      simp only [answer]
      split
      · rfl
      · next log here => rw [here, Option.isSome_some, Option.isSome_some]
  | _ => rfl

section Serving

variable {τ : Type} {sender other : Identity} {hosts : Identity → Host τ} {w : World (Identity → τ)}

theorem host_answerStore_of_ne (ne : other ≠ sender) (call : StoreCall) :
    (w.answerStore suite (.serving hosts sender) call).2.host other = w.host other := by
  cases call with
  | put s =>
      simp only [answerStore, Host.serving]
      split <;> simp [ne]
  | _ => rfl

/-- What is asked for one sender leaves the parts of all others as they are. -/
theorem host_answer_of_ne (ne : other ≠ sender) (r : Request) :
    (w.answer suite (.serving hosts sender) r).2.host other = w.host other := by
  cases r with
  | store call =>
      simp only [answer, Host.serving_storeFault]
      split
      · next same =>
        rw [← (Prod.mk.inj same).2]
        exact Function.update_of_ne ne _ _
      · next same =>
        rw [host_answerStore_of_ne ne, ← (Prod.mk.inj same).2]
        exact Function.update_of_ne ne _ _
  | record rejection =>
      simp only [answer]
      split
      · rfl
      · exact Function.update_of_ne ne _ _
  | host call => exact Function.update_of_ne ne _ _
  | draw d => exact Function.update_of_ne ne _ _
  | now => exact Function.update_of_ne ne _ _
  | _ => rfl

end Serving

namespace StoresAfter

/-- Only the traces of a scope's own nonces come into the register. -/
theorem contains_of_not (after : w.StoresAfter suite r nonces sessions) (own : c.has r)
    {hash : NonceHash} (foreign : ¬c.traces hash) : nonces.contains hash = w.nonces.contains hash := by
  cases after with
  | marked marked =>
      have ne : hash ≠ marked := fun same => foreign (same ▸ own)
      rw [NonceRegister.contains_insert, beq_eq_false_iff_ne.mpr ne, Bool.false_or]
  | _ => rfl

/-- Only the sessions of a scope's own pair change. -/
theorem ofPair_of_ne (after : w.StoresAfter suite r nonces sessions) (own : c.has r)
    {mine peer : String} (ne : ¬(c.mine = mine ∧ c.peer.text = peer)) :
    sessions.ofPair mine peer = w.sessions.ofPair mine peer := by
  have foreign : ∀ key : SessionKey, c.holds key → key.isOfPair mine peer = false := by
    intro key holds
    apply Bool.eq_false_iff.mpr
    intro ofPair
    obtain ⟨rfl, rfl⟩ := SessionKey.isOfPair_iff.mp ofPair
    obtain ⟨same, same'⟩ := PeerScope.holds_iff.mp holds
    exact ne ⟨same.symm, same'.symm⟩
  cases after with
  | put stored => exact SessionStore.ofPair_put_of_not (foreign _ own) stored
  | erased key => exact SessionStore.ofPair_erase_of_not (foreign _ own)
  | pairErased mine' peer' =>
      obtain ⟨rfl, rfl⟩ := own
      exact SessionStore.ofPair_erasePair_of_ne ne
  | _ => rfl

theorem filed (opens : suite.Opens) (after : w.StoresAfter suite r nonces sessions)
    (filed : w.sessions.Filed suite) : sessions.Filed suite := by
  cases after with
  | put stored => exact filed.put opens stored
  | erased key => exact filed.erase key
  | pairErased mine peer => exact filed.erasePair mine peer
  | _ => exact filed

end StoresAfter

/-- A store in which sessions are found under their own keys gives none of another key. -/
theorem isFiled_answer (filed : w.sessions.Filed suite) (r : Request) :
    Exchange.isFiled ⟨r, (w.answer suite host r).1⟩ := by
  cases r with
  | store call =>
      cases call with
      | find key =>
          intro s found
          simp only [answer] at found
          split at found
          · cases found
          · exact SessionStore.Filed.find filed found
      | _ => trivial
  | _ => trivial

end World

/-! ## Alike in a scope -/

/-- The world of one peer alone: the peer's part of the surroundings, and the sessions with the
peer. -/
def World.aloneIn {τ : Type} (c : PeerScope) (w : World (Identity → τ)) : World τ :=
  ⟨w.host c.peer, w.nonces, w.sessions.ofPair c.mine c.peer.text, w.log⟩

structure Mirrors {τ : Type} (c : PeerScope) (w : World (Identity → τ)) (v : World τ) : Prop where
  host : w.host c.peer = v.host
  nonces : ∀ hash, c.traces hash → w.nonces.contains hash = v.nonces.contains hash
  sessions : w.sessions.ofPair c.mine c.peer.text = v.sessions
  logged : w.log.isSome = v.log.isSome

namespace Mirrors

variable {τ : Type} {suite : Suite} {hosts : Identity → Host τ} {c : PeerScope}
  {w : World (Identity → τ)} {v : World τ} {r : Request}

theorem aloneIn (c : PeerScope) (w : World (Identity → τ)) : Mirrors c w (w.aloneIn c) :=
  ⟨rfl, fun _ _ => rfl, rfl, rfl⟩

theorem setHost (mirrors : Mirrors c w v) (part : τ) :
    Mirrors c { w with host := Function.update w.host c.peer part } { v with host := part } :=
  { mirrors with host := Function.update_self _ _ _ }

theorem mark (mirrors : Mirrors c w v) {hash : NonceHash} (own : c.traces hash) :
    (w.nonces.insert hash).1 = (v.nonces.insert hash).1 ∧
      Mirrors c { w with nonces := (w.nonces.insert hash).2 }
        { v with nonces := (v.nonces.insert hash).2 } := by
  constructor
  · rw [NonceRegister.fst_insert, NonceRegister.fst_insert, mirrors.nonces hash own]
  · refine { mirrors with nonces := ?_ }
    intro other traces
    rw [NonceRegister.contains_insert, NonceRegister.contains_insert, mirrors.nonces other traces]

theorem put (mirrors : Mirrors c w v) {s : Session} (own : c.holds s.fileKey) (nonce : Nonce)
    (now : Instant) :
    v.sessions.put suite nonce now s =
      (w.sessions.put suite nonce now s).map (SessionStore.ofPair c.mine c.peer.text) := by
  rw [← mirrors.sessions]
  exact SessionStore.put_ofPair own

/-- What is asked of the stores in the scope. -/
theorem answerStore (suite : Suite) (hosts : Identity → Host τ) (mirrors : Mirrors c w v)
    {call : StoreCall} (own : c.has (.store call)) :
    (w.answerStore suite (.serving hosts c.peer) call).1 =
        (v.answerStore suite (hosts c.peer) call).1 ∧
      Mirrors c (w.answerStore suite (.serving hosts c.peer) call).2
        (v.answerStore suite (hosts c.peer) call).2 := by
  cases call with
  | seen hash => exact ⟨congrArg Except.ok (mirrors.nonces hash own), mirrors⟩
  | mark hash => exact ⟨congrArg Except.ok (mirrors.mark own).1, (mirrors.mark own).2⟩
  | best mine peer =>
      obtain ⟨rfl, rfl⟩ := own
      refine ⟨?_, mirrors⟩
      simp only [World.answerStore, ← mirrors.sessions, SessionStore.best_ofPair]
  | find key =>
      refine ⟨?_, mirrors⟩
      simp only [World.answerStore, ← mirrors.sessions, SessionStore.find_ofPair own]
  | put s =>
      simp only [World.answerStore, Host.serving, Function.update_self, Function.update_idem,
        mirrors.host, mirrors.put own]
      cases w.sessions.put suite _ _ s with
      | ok sessions => exact ⟨rfl, { mirrors.setHost _ with sessions := rfl }⟩
      | error e => exact ⟨rfl, mirrors.setHost _⟩
  | erase key =>
      have erased : v.sessions.erase key = _ := mirrors.sessions ▸ SessionStore.erase_ofPair own
      simp only [World.answerStore, erased]
      exact ⟨trivial, { mirrors with sessions := rfl }⟩
  | erasePair mine peer =>
      obtain ⟨rfl, rfl⟩ := own
      have erased : v.sessions.erasePair c.mine c.peer.text = _ :=
        mirrors.sessions ▸ SessionStore.erasePair_ofPair
      simp only [World.answerStore, erased]
      exact ⟨trivial, { mirrors with sessions := rfl }⟩

/-- What is asked in the scope; only the rejection log may answer otherwise. -/
theorem own (suite : Suite) (hosts : Identity → Host τ) (mirrors : Mirrors c w v) (own : c.has r) :
    (r.isLogged = false → (w.answer suite (.serving hosts c.peer) r).1 =
        (v.answer suite (hosts c.peer) r).1) ∧
      Mirrors c (w.answer suite (.serving hosts c.peer) r).2 (v.answer suite (hosts c.peer) r).2 := by
  cases r with
  | store call =>
      have same := Host.serving_storeFault hosts c.peer call w.host
      rw [mirrors.host] at same
      cases given : (hosts c.peer).storeFault call v.host with
      | mk fault part =>
          rw [given] at same
          cases fault with
          | some e =>
              simp only [World.answer, given, same]
              exact ⟨fun _ => trivial, mirrors.setHost part⟩
          | none =>
              simp only [World.answer, given, same]
              have answered := (mirrors.setHost part).answerStore suite hosts own
              exact ⟨fun _ => answered.1, answered.2⟩
  | record rejection =>
      refine ⟨fun unlogged => Bool.noConfusion unlogged, ?_⟩
      have logged := mirrors.logged
      simp only [World.answer, Host.serving, mirrors.host]
      cases here : w.log with
      | none =>
          cases there : v.log with
          | none => exact mirrors
          | some log => simp [here, there] at logged
      | some log =>
          cases there : v.log with
          | none => simp [here, there] at logged
          | some log => exact { mirrors.setHost _ with logged := by simp only [Option.isSome_some] }
  | host call =>
      simp only [World.answer, Host.serving, mirrors.host]
      exact ⟨fun _ => trivial, mirrors.setHost _⟩
  | draw d =>
      simp only [World.answer, Host.serving, mirrors.host]
      exact ⟨fun _ => trivial, mirrors.setHost _⟩
  | now =>
      simp only [World.answer, Host.serving, mirrors.host]
      exact ⟨fun _ => trivial, mirrors.setHost _⟩
  | _ => exact ⟨fun _ => rfl, mirrors⟩

/-- What is asked in the scope of another peer. -/
theorem other {d : PeerScope} (suite : Suite) (hosts : Identity → Host τ) (mirrors : Mirrors c w v)
    (own : d.has r) (ne : d.peer ≠ c.peer) (apart : ∀ hash, c.traces hash → ¬d.traces hash) :
    Mirrors c (w.answer suite (.serving hosts d.peer) r).2 v := by
  have after := World.storesAfter_answer suite (.serving hosts d.peer) w r
  constructor
  · rw [World.host_answer_of_ne ne.symm]
    exact mirrors.host
  · intro hash traces
    rw [after.contains_of_not own (apart hash traces)]
    exact mirrors.nonces hash traces
  · rw [after.ofPair_of_ne own fun same => ne (Identity.text_injective same.2)]
    exact mirrors.sessions
  · rw [World.logged_answer]
    exact mirrors.logged

end Mirrors

end SecureInbox
