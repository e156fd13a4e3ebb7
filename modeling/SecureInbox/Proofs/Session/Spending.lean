import SecureInbox.Proofs.Session.Ratchet
import SecureInbox.Store.Sessions

/-! # What a frame spends

A session that has opened a frame differs from the one before in its receiving chains
only: the one of the frame stands behind the frame's counter, and where the frame confirms
the session the two-party chain is gone (`decrypt_spends`).  The same frame is behind the
session from then on (`decrypt_spent`). -/
set_option autoImplicit false

namespace SecureInbox

namespace Ratchet

variable {suite : Suite} {r next : Ratchet} {target maxSkip turns : UInt64}

theorem turnUntil_ok (turned : r.turnUntil suite target maxSkip = .ok (turns, next)) :
    r.counter ≤ target ∧ turns = target - r.counter ∧ next = advance suite turns.toNat r := by
  obtain ⟨ahead, _, counted, onward⟩ := (turnUntil_eq_ok_iff suite).mp turned
  exact ⟨ahead, counted, onward⟩

theorem counter_turnUntil (turned : r.turnUntil suite target maxSkip = .ok (turns, next)) :
    next.counter = target := by
  obtain ⟨_, rfl, rfl⟩ := turnUntil_ok turned
  rw [counter_advance, UInt64.ofNat_toNat, UInt64.add_comm, UInt64.sub_add_cancel]

theorem turnUntil_error {e : CryptoError} (turned : r.turnUntil suite target maxSkip = .error e) :
    e ≠ .notAuthentic := by
  rintro rfl
  unfold turnUntil at turned
  split at turned
  · cases turned
  · dsimp only at turned
    split at turned <;> cases turned

theorem turnUntil_passed (suite : Suite) (maxSkip : UInt64) (behind : target < r.counter) :
    r.turnUntil suite target maxSkip = .error (.ratchetBehind r.counter target) := if_pos behind

theorem lt_add_one {c : UInt64} (fits : c.toNat + 1 < UInt64.size) : c < c + 1 := by
  have one : (1 : UInt64).toNat = 1 := rfl
  rw [UInt64.lt_iff_toNat_lt, UInt64.toNat_add, one, Nat.mod_eq_of_lt fits]
  exact Nat.lt_succ_self _

end Ratchet

namespace Session

/-- Whether a frame of a chain confirms the answer that a session has given. -/
def IsConfirmedBy (s : Session) (agreement : Agreement) : Prop :=
  agreement = .four ∧ s.role = .responder ∧ s.state = .l20

structure Spends (s : Session) (frame : Protected) (t : Session) : Prop where
  counter : t.peerCounter frame.agreement = some (frame.counter + 1)
  confirmed : s.IsConfirmedBy frame.agreement → t.state = .l40 ∧ t.peerTwo = none
  unconfirmed : ¬s.IsConfirmedBy frame.agreement → t.state = s.state ∧
    ∀ other, other ≠ frame.agreement → t.peerRatchet other = s.peerRatchet other
  rest : t = { s with state := t.state, peerTwo := t.peerTwo, peerFour := t.peerFour }

theorem peerRatchet_set (s : Session) (agreement : Agreement) (r : Ratchet) :
    (s.setPeerRatchet agreement r).peerRatchet agreement = some r := by
  cases agreement <;> rfl

theorem peerRatchet_set_other (s : Session) {agreement other : Agreement} (r : Ratchet)
    (unlike : other ≠ agreement) :
    (s.setPeerRatchet agreement r).peerRatchet other = s.peerRatchet other := by
  cases agreement <;> cases other <;> first | rfl | exact (unlike rfl).elim

theorem spends_confirm (s : Session) (frame : Protected) (r : Ratchet)
    (stands : r.counter = frame.counter + 1) :
    s.Spends frame (confirm frame.agreement (s.setPeerRatchet frame.agreement r)) := by
  obtain ⟨agreement, counter, ciphertext⟩ := frame
  have placed := s.peerRatchet_set agreement r
  have header : (s.setPeerRatchet agreement r).role = s.role ∧
      (s.setPeerRatchet agreement r).state = s.state := by
    cases agreement <;> exact ⟨rfl, rfl⟩
  by_cases confirms : s.IsConfirmedBy agreement
  · have same : confirm agreement (s.setPeerRatchet agreement r) =
        { s.setPeerRatchet agreement r with peerTwo := none, state := .l40 } := by
      apply if_pos
      rw [header.1, header.2]
      exact confirms
    rw [same]
    obtain rfl := confirms.1
    refine ⟨?_, fun _ => ⟨rfl, rfl⟩, fun unlike => (unlike confirms).elim, rfl⟩
    exact congrArg some stands
  · have same : confirm agreement (s.setPeerRatchet agreement r) = s.setPeerRatchet agreement r := by
      apply if_neg
      rw [header.1, header.2]
      exact confirms
    rw [same]
    refine ⟨?_, fun isConfirmed => (confirms isConfirmed).elim, fun _ => ⟨header.2, ?_⟩, ?_⟩
    · show ((s.setPeerRatchet agreement r).peerRatchet agreement).map (·.counter) = _
      rw [placed]
      exact congrArg some stands
    · intro other unlike
      exact s.peerRatchet_set_other r unlike
    · cases agreement <;> rfl

variable {suite : Suite} {s t : Session} {frame : Protected} {maxSkip : UInt64}

/-- A ratchet that does not turn leaves the session as it is. -/
theorem decrypt_refused {r : Ratchet} {e : CryptoError}
    (found : s.peerRatchet frame.agreement = some r)
    (turned : r.turnUntil suite frame.counter maxSkip = .error e) :
    s.decrypt suite frame maxSkip = (.error e, s) := by
  unfold decrypt
  rw [found]
  dsimp only
  rw [turned]

theorem decrypt_spends {plaintext : Bytes}
    (decrypted : s.decrypt suite frame maxSkip = (.ok plaintext, t)) : s.Spends frame t := by
  unfold decrypt at decrypted
  split at decrypted
  · cases decrypted
  · next r _ =>
    split at decrypted
    · cases decrypted
    · next turns next turned =>
      split at decrypted
      · cases decrypted
      · have same : t = confirm frame.agreement
            (s.setPeerRatchet frame.agreement (next.turn suite)) :=
          (congrArg Prod.snd decrypted).symm
        have stands : (next.turn suite).counter = frame.counter + 1 := by
          show next.counter + 1 = _
          rw [Ratchet.counter_turnUntil turned]
        rw [same]
        exact s.spends_confirm frame _ stands

namespace Spends

variable (spends : s.Spends frame t)

include spends

theorem fileKey : t.fileKey = s.fileKey := by
  rw [spends.rest]
  rfl

theorem peerKey : t.peerKey = s.peerKey := by
  rw [spends.rest]

theorem role : t.role = s.role := by
  rw [spends.rest]

theorem version : t.version = s.version := by
  rw [spends.rest]

theorem outgoing : t.myTwo = s.myTwo ∧ t.myFour = s.myFour := by
  rw [spends.rest]
  exact ⟨rfl, rfl⟩

/-- A session that was ready for the frame is still ready for it. -/
theorem ready (before : ¬(frame.agreement = .four ∧ s.role = .initiator ∧ s.state = .l20)) :
    ¬(frame.agreement = .four ∧ t.role = .initiator ∧ t.state = .l20) := by
  rintro ⟨four, initiator, waiting⟩
  rw [spends.role] at initiator
  have unlike : ¬s.IsConfirmedBy frame.agreement := by
    rintro ⟨_, responder, _⟩
    rw [initiator] at responder
    cases responder
  rw [(spends.unconfirmed unlike).1] at waiting
  exact before ⟨four, initiator, waiting⟩

/-- A frame cannot be opened twice. -/
theorem decrypt_spent (suite : Suite) (maxSkip : UInt64) (fits : frame.counter.toNat + 1 < UInt64.size) :
    t.decrypt suite frame maxSkip =
      (.error (.ratchetBehind (frame.counter + 1) frame.counter), t) := by
  have counter := spends.counter
  rw [peerCounter, Option.map_eq_some_iff] at counter
  obtain ⟨r, found, stands⟩ := counter
  have behind : frame.counter < r.counter := by
    rw [stands]
    exact Ratchet.lt_add_one fits
  have passed := Ratchet.turnUntil_passed suite maxSkip behind
  rw [stands] at passed
  exact decrypt_refused found passed

end Spends

end Session

end SecureInbox
