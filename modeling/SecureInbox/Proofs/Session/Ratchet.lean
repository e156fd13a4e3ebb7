import SecureInbox.Session.Ratchet

/-! # Positions on a chain

A fresh chain starts at counter one, and after `n` steps its counter is `n + 1` as long
as that fits the word.  From an earlier position a ratchet gets to every later one that is
not too far away, and to no earlier one. -/
set_option autoImplicit false

namespace SecureInbox.Ratchet

variable (suite : Suite) (base : Ratchet)

theorem advance_turn (n : Nat) : (advance suite n base).turn suite = advance suite (n + 1) base := by
  rw [advance_add]
  rfl

theorem counter_advance (n : Nat) :
    (advance suite n base).counter = base.counter + UInt64.ofNat n := by
  induction n generalizing base with
  | zero => simp [advance]
  | succ n ih =>
      rw [advance, ih]
      have step : (base.turn suite).counter = base.counter + 1 := rfl
      have one : UInt64.ofNat (n + 1) = UInt64.ofNat n + 1 := UInt64.ofNat_add ..
      rw [step, one, UInt64.add_assoc, UInt64.add_comm 1]

variable {base}

/-- A counter that stays below the size of the word is the one from before and the steps. -/
theorem toNat_counter_advance {n : Nat} (fits : base.counter.toNat + n < UInt64.size) :
    (advance suite n base).counter.toNat = base.counter.toNat + n := by
  have small : n < UInt64.size := by omega
  rw [counter_advance, UInt64.toNat_add, UInt64.toNat_ofNat_of_lt' small]
  exact Nat.mod_eq_of_lt fits

theorem toNat_counter (fresh : base.counter = 1) {n : Nat} (fits : n + 1 < UInt64.size) :
    (advance suite n base).counter.toNat = n + 1 := by
  have one : base.counter.toNat = 1 := congrArg UInt64.toNat fresh
  rw [Nat.add_comm] at fits
  rw [toNat_counter_advance suite (one ▸ fits), one, Nat.add_comm]

theorem counter_lt_iff (fresh : base.counter = 1) {m n : Nat} (fitsLeft : m + 1 < UInt64.size)
    (fitsRight : n + 1 < UInt64.size) :
    (advance suite m base).counter < (advance suite n base).counter ↔ m < n := by
  rw [UInt64.lt_iff_toNat_lt, toNat_counter suite fresh fitsLeft, toNat_counter suite fresh fitsRight]
  omega

/-- The number of steps between two positions. -/
theorem toNat_counter_sub (fresh : base.counter = 1) {m n : Nat} (le : m ≤ n)
    (fits : n + 1 < UInt64.size) :
    ((advance suite n base).counter - (advance suite m base).counter).toNat = n - m := by
  have fitsLeft : m + 1 < UInt64.size := by omega
  have order : (advance suite m base).counter ≤ (advance suite n base).counter := by
    rw [UInt64.le_iff_toNat_le, toNat_counter suite fresh fitsLeft, toNat_counter suite fresh fits]
    omega
  rw [UInt64.toNat_sub_of_le _ _ order, toNat_counter suite fresh fits,
    toNat_counter suite fresh fitsLeft]
  omega

theorem turnUntil_eq_ok_iff {r next : Ratchet} {target maxSkip turns : UInt64} :
    r.turnUntil suite target maxSkip = .ok (turns, next) ↔
      r.counter ≤ target ∧ target - r.counter ≤ maxSkip ∧ turns = target - r.counter ∧
        next = advance suite turns.toNat r := by
  unfold turnUntil
  constructor
  · intro turned
    split at turned
    · cases turned
    · next ahead =>
      dsimp only at turned
      split at turned
      · cases turned
      · next near =>
        cases turned
        exact ⟨UInt64.not_lt.mp ahead, UInt64.not_lt.mp near, rfl, rfl⟩
  · rintro ⟨ahead, near, rfl, rfl⟩
    rw [if_neg (UInt64.not_lt.mpr ahead)]
    exact if_neg (UInt64.not_lt.mpr near)

theorem turnUntil_ahead (fresh : base.counter = 1) {m n : Nat} {maxSkip : UInt64} (le : m ≤ n)
    (fits : n + 1 < UInt64.size) (near : n - m ≤ maxSkip.toNat) :
    (advance suite m base).turnUntil suite (advance suite n base).counter maxSkip =
      .ok ((advance suite n base).counter - (advance suite m base).counter,
        advance suite n base) := by
  have fitsLeft : m + 1 < UInt64.size := by omega
  have ahead : ¬(advance suite n base).counter < (advance suite m base).counter := by
    rw [counter_lt_iff suite fresh fits fitsLeft]
    omega
  have steps := toNat_counter_sub suite fresh le fits
  refine (turnUntil_eq_ok_iff suite).mpr ⟨UInt64.not_lt.mp ahead, ?_, rfl, ?_⟩
  · rw [UInt64.le_iff_toNat_le, steps]
    exact near
  · rw [steps, ← advance_add, Nat.add_sub_cancel' le]

theorem turnUntil_behind (fresh : base.counter = 1) {m n : Nat} (maxSkip : UInt64) (lt : n < m)
    (fits : m + 1 < UInt64.size) :
    (advance suite m base).turnUntil suite (advance suite n base).counter maxSkip =
      .error (.ratchetBehind (advance suite m base).counter (advance suite n base).counter) := by
  have fitsRight : n + 1 < UInt64.size := by omega
  have behind := (counter_lt_iff suite fresh fitsRight fits).mpr lt
  exact if_pos behind

theorem turnUntil_far (fresh : base.counter = 1) {m n : Nat} {maxSkip : UInt64}
    (fits : n + 1 < UInt64.size) (far : maxSkip.toNat < n - m) :
    (advance suite m base).turnUntil suite (advance suite n base).counter maxSkip =
      .error (.skipTooLarge ((advance suite n base).counter - (advance suite m base).counter)
        maxSkip) := by
  have le : m ≤ n := by omega
  have fitsLeft : m + 1 < UInt64.size := by omega
  have ahead : ¬(advance suite n base).counter < (advance suite m base).counter := by
    rw [counter_lt_iff suite fresh fits fitsLeft]
    omega
  have tooFar : maxSkip < (advance suite n base).counter - (advance suite m base).counter := by
    rw [UInt64.lt_iff_toNat_lt, toNat_counter_sub suite fresh le fits]
    exact far
  rw [turnUntil, if_neg ahead]
  exact if_pos tooFar

end SecureInbox.Ratchet
