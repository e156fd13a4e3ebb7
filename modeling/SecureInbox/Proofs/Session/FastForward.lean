import Mathlib.Logic.Function.Iterate
import SecureInbox.Proofs.Intake.Setting
import SecureInbox.Proofs.Session.InPlace
import SecureInbox.Proofs.Session.Spending

/-! # Forward to a counter, turn by turn

A ratchet that is moved to a counter is turned once for each counter in between
(`turnUntil_turns`), and no counter on the way wraps around (`toNat_counter_turns`).  `moveUntil`
is the same call on a ratchet in its place: it looks at the distance first and then turns, so
that a refusal leaves the ratchet as it was (`moveUntil_on`).  A stop on the way changes nothing
(`turnUntil_stop`).  `forwards_by_turns` puts this together. -/
set_option autoImplicit false

namespace SecureInbox.Ratchet

variable (suite : Suite)

theorem advance_eq_iterate (n : Nat) (r : Ratchet) : advance suite n r = (turn suite)^[n] r := by
  induction n generalizing r with
  | zero => rfl
  | succ n ih => rw [advance, ih, Function.iterate_succ_apply]

/-! ## In place -/

def turnInPlace : InPlace Ratchet Unit := modify (turn suite)

def turnTimes : Nat → InPlace Ratchet Unit
  | 0 => return ()
  | n + 1 => do
    turnInPlace suite
    turnTimes n

/-- Turns until `target` is the current counter, and answers how often. -/
def moveUntil (target maxSkip : UInt64) : InPlace Ratchet UInt64 := do
  let r ← get
  if target < r.counter then throw (.ratchetBehind r.counter target)
  else
    let turns := target - r.counter
    if maxSkip < turns then throw (.skipTooLarge turns maxSkip)
    else
      turnTimes suite turns.toNat
      return turns

theorem turnTimes_on (n : Nat) (r : Ratchet) :
    (turnTimes suite n).on r = (.ok (), (turn suite)^[n] r) := by
  induction n generalizing r with
  | zero => rfl
  | succ n ih =>
      rw [turnTimes, InPlace.on_bind]
      exact ih (r.turn suite)

/-- In place it is the same ratchet that comes out, or the old one with the error. -/
theorem moveUntil_on (r : Ratchet) (target maxSkip : UInt64) :
    (moveUntil suite target maxSkip).on r =
      match r.turnUntil suite target maxSkip with
      | .ok (turns, next) => (.ok turns, next)
      | .error e => (.error e, r) := by
  rw [moveUntil, InPlace.on_bind]
  show InPlace.on (if target < r.counter then _ else _) r = _
  rw [turnUntil]
  by_cases behind : target < r.counter
  · rw [if_pos behind, if_pos behind]
    rfl
  · rw [if_neg behind, if_neg behind]
    dsimp only
    by_cases far : maxSkip < target - r.counter
    · rw [if_pos far, if_pos far]
      rfl
    · rw [if_neg far, if_neg far, InPlace.on_bind, turnTimes_on, advance_eq_iterate]
      rfl

/-! ## The turns on the way -/

variable {suite} {r next : Ratchet} {target maxSkip turns : UInt64}

theorem toNat_distance (ahead : r.counter ≤ target) :
    (target - r.counter).toNat = target.toNat - r.counter.toNat :=
  UInt64.toNat_sub_of_le _ _ ahead

theorem turnUntil_succeeds_iff :
    (∃ turns next, r.turnUntil suite target maxSkip = .ok (turns, next)) ↔
      r.counter.toNat ≤ target.toNat ∧ target.toNat - r.counter.toNat ≤ maxSkip.toNat := by
  constructor
  · rintro ⟨turns, next, turned⟩
    obtain ⟨ahead, near, _⟩ := (turnUntil_eq_ok_iff suite).mp turned
    rw [UInt64.le_iff_toNat_le, toNat_distance ahead] at near
    exact ⟨UInt64.le_iff_toNat_le.mp ahead, near⟩
  · rintro ⟨ahead, near⟩
    have ahead : r.counter ≤ target := UInt64.le_iff_toNat_le.mpr ahead
    rw [← toNat_distance ahead, ← UInt64.le_iff_toNat_le] at near
    exact ⟨_, _, (turnUntil_eq_ok_iff suite).mpr ⟨ahead, near, rfl, rfl⟩⟩

theorem turnUntil_turns (turned : r.turnUntil suite target maxSkip = .ok (turns, next)) :
    turns.toNat = target.toNat - r.counter.toNat ∧
      next = (turn suite)^[target.toNat - r.counter.toNat] r := by
  obtain ⟨ahead, rfl, rfl⟩ := turnUntil_ok turned
  rw [advance_eq_iterate, toNat_distance ahead]
  exact ⟨rfl, rfl⟩

/-- Up to a counter that is ahead, each turn adds one. -/
theorem toNat_counter_turns {n : Nat} (ahead : r.counter.toNat ≤ target.toNat)
    (within : n ≤ target.toNat - r.counter.toNat) :
    ((turn suite)^[n] r).counter.toNat = r.counter.toNat + n := by
  have fits : r.counter.toNat + n < UInt64.size := by
    have := target.toNat_lt_size
    omega
  rw [← advance_eq_iterate, toNat_counter_advance suite fits]

/-- Who stops on the way gets to the same ratchet, in as many turns. -/
theorem turnUntil_stop {further limit skip more all : UInt64} {last alone : Ratchet}
    (first : r.turnUntil suite target maxSkip = .ok (turns, next))
    (second : next.turnUntil suite further limit = .ok (more, last))
    (direct : r.turnUntil suite further skip = .ok (all, alone)) :
    last = alone ∧ turns.toNat + more.toNat = all.toNat := by
  have arrived : next.counter.toNat = target.toNat := congrArg UInt64.toNat (counter_turnUntil first)
  obtain ⟨ahead, _⟩ := turnUntil_succeeds_iff.mp ⟨_, _, first⟩
  obtain ⟨onward, _⟩ := turnUntil_succeeds_iff.mp ⟨_, _, second⟩
  obtain ⟨turns, rfl⟩ := turnUntil_turns first
  obtain ⟨more, rfl⟩ := turnUntil_turns second
  obtain ⟨all, rfl⟩ := turnUntil_turns direct
  rw [arrived] at onward more ⊢
  have sum : further.toNat - r.counter.toNat =
      (further.toNat - target.toNat) + (target.toNat - r.counter.toNat) := by omega
  rw [sum, Function.iterate_add_apply]
  exact ⟨rfl, by omega⟩

/-! ## All of it -/

/-- Moving to a counter succeeds exactly if the counter is not behind and not too far ahead; then
it is as many single turns as the counters differ, none of which wraps around, also in place.  A
refusal leaves the ratchet, and the session that it receives for.  A stop on the way changes
nothing. -/
theorem forwards_by_turns (suite : Suite) (r : Ratchet) (target maxSkip : UInt64) :
    ((∃ turns next, r.turnUntil suite target maxSkip = .ok (turns, next)) ↔
      r.counter.toNat ≤ target.toNat ∧ target.toNat - r.counter.toNat ≤ maxSkip.toNat) ∧
    (∀ turns next, r.turnUntil suite target maxSkip = .ok (turns, next) →
      turns.toNat = target.toNat - r.counter.toNat ∧
      next = (turn suite)^[target.toNat - r.counter.toNat] r ∧
      (∀ n ≤ target.toNat - r.counter.toNat,
        ((turn suite)^[n] r).counter.toNat = r.counter.toNat + n) ∧
      (moveUntil suite target maxSkip).on r = (.ok turns, next)) ∧
    (∀ e, r.turnUntil suite target maxSkip = .error e →
      (moveUntil suite target maxSkip).on r = (.error e, r) ∧
      ∀ (s : Session) (frame : Session.Protected), s.peerRatchet frame.agreement = some r →
        frame.counter = target → s.decrypt suite frame maxSkip = (.error e, s)) ∧
    ∀ further limit skip turns more all next last alone,
      r.turnUntil suite target maxSkip = .ok (turns, next) →
      next.turnUntil suite further limit = .ok (more, last) →
      r.turnUntil suite further skip = .ok (all, alone) →
      last = alone ∧ turns.toNat + more.toNat = all.toNat := by
  have inPlace := moveUntil_on suite r target maxSkip
  refine ⟨turnUntil_succeeds_iff, ?_, ?_, ?_⟩
  · intro turns next turned
    rw [turned] at inPlace
    obtain ⟨counted, onward⟩ := turnUntil_turns turned
    obtain ⟨ahead, _⟩ := turnUntil_succeeds_iff.mp ⟨_, _, turned⟩
    exact ⟨counted, onward, fun n within => toNat_counter_turns ahead within, inPlace⟩
  · intro e refused
    rw [refused] at inPlace
    refine ⟨inPlace, ?_⟩
    rintro s frame found rfl
    exact Session.decrypt_refused found refused
  · intro further limit skip turns more all next last alone first second direct
    exact turnUntil_stop first second direct

section Example

def lastCounter : UInt64 := 0xFFFFFFFFFFFFFFFF

def nearTop : Ratchet := ⟨lastCounter - 2, Block.ofNat 32 7⟩

def nearTopSession : Session := { plainSession with peerTwo := some nearTop }

theorem forwards_to_the_top :
    (moveUntil .plain lastCounter 2).on nearTop = (.ok 2, (turn .plain)^[2] nearTop) ∧
      ((turn .plain)^[2] nearTop).counter.toNat = lastCounter.toNat ∧
      (moveUntil .plain lastCounter 1).on nearTop = (.error (.skipTooLarge 2 1), nearTop) ∧
      nearTopSession.decrypt .plain ⟨.two, lastCounter, []⟩ 1 =
        (.error (.skipTooLarge 2 1), nearTopSession) ∧
      ∀ last, (nearTop.turn .plain).turnUntil .plain lastCounter 1 = .ok (1, last) →
        last = (turn .plain)^[2] nearTop := by
  have turned : nearTop.turnUntil .plain lastCounter 2 = .ok (2, (turn .plain)^[2] nearTop) := rfl
  have halfway : nearTop.turnUntil .plain (lastCounter - 1) 1 = .ok (1, nearTop.turn .plain) := rfl
  have refused : nearTop.turnUntil .plain lastCounter 1 = .error (.skipTooLarge 2 1) := rfl
  obtain ⟨_, counters, inPlace⟩ := ((forwards_by_turns .plain nearTop lastCounter 2).2.1 _ _ turned).2
  obtain ⟨unmoved, unopened⟩ := (forwards_by_turns .plain nearTop lastCounter 1).2.2.1 _ refused
  have stop := (forwards_by_turns .plain nearTop (lastCounter - 1) 1).2.2.2
  exact ⟨inPlace, counters 2 (by decide), unmoved, unopened nearTopSession ⟨.two, lastCounter, []⟩ rfl rfl,
    fun last onward => (stop _ _ _ _ _ _ _ _ _ halfway onward turned).1⟩

end Example

end SecureInbox.Ratchet
