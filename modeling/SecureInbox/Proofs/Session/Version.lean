import SecureInbox.Session.Version

/-! # The version that two ranges share

`VersionRange.negotiate` finds a version exactly where two ranges overlap, and then it is the
highest one that both of them contain (`exists_negotiated`, `isHighest_of_negotiate`). -/
set_option autoImplicit false

namespace SecureInbox

namespace Version

theorem le_iff (a b : Version) : a ≤ b ↔ a.code.toNat ≤ b.code.toNat := UInt16.le_iff_toNat_le

theorem eq_of_le {a b : Version} (ab : a ≤ b) (ba : b ≤ a) : a = b := by
  obtain ⟨a⟩ := a
  obtain ⟨b⟩ := b
  exact congrArg Version.mk (UInt16.le_antisymm ab ba)

end Version

namespace VersionRange

structure IsHighest (a b : VersionRange) (v : Version) : Prop where
  left : a.contains v = true
  right : b.contains v = true
  highest : ∀ w, a.contains w = true → b.contains w = true → w ≤ v

variable {a b : VersionRange} {v : Version}

theorem contains_iff (range : VersionRange) (v : Version) :
    range.contains v = true ↔ range.min ≤ v ∧ v ≤ range.max := by
  simp [contains]

theorem IsHighest.symm (highest : IsHighest a b v) : IsHighest b a v :=
  ⟨highest.right, highest.left, fun w inB inA => highest.highest w inA inB⟩

theorem isHighest_of_negotiate (negotiated : a.negotiate b = some v) : IsHighest a b v := by
  simp only [negotiate, Version.le_iff, Option.ite_none_right_eq_some, Option.some.injEq] at negotiated
  obtain ⟨meet, rfl⟩ := negotiated
  refine ⟨?_, ?_, ?_⟩
  · rw [contains_iff]
    simp only [Version.le_iff]
    split at meet <;> split at meet <;> split <;> omega
  · rw [contains_iff]
    simp only [Version.le_iff]
    split at meet <;> split at meet <;> split <;> omega
  · intro w wA wB
    rw [contains_iff] at wA wB
    simp only [Version.le_iff] at wA wB ⊢
    split <;> omega

theorem exists_negotiated (overlap : ∃ v, a.contains v = true ∧ b.contains v = true) :
    ∃ v, a.negotiate b = some v ∧ IsHighest a b v := by
  obtain ⟨v, inA, inB⟩ := overlap
  rw [contains_iff] at inA inB
  simp only [Version.le_iff] at inA inB
  have meet : (if a.min.code.toNat ≤ b.min.code.toNat then b.min else a.min).code.toNat ≤
      (if a.max.code.toNat ≤ b.max.code.toNat then a.max else b.max).code.toNat := by
    split <;> split <;> omega
  have negotiated : a.negotiate b = some (if a.max ≤ b.max then a.max else b.max) := by
    simp only [negotiate, Version.le_iff]
    exact if_pos meet
  exact ⟨_, negotiated, isHighest_of_negotiate negotiated⟩

theorem IsHighest.negotiated (highest : IsHighest a b v) : a.negotiate b = some v := by
  obtain ⟨w, negotiated, other⟩ := exists_negotiated ⟨v, highest.left, highest.right⟩
  have same : w = v := Version.eq_of_le (highest.highest w other.left other.right)
    (other.highest v highest.left highest.right)
  rw [negotiated, same]

theorem negotiate_comm (a b : VersionRange) : a.negotiate b = b.negotiate a :=
  Option.ext fun _ => ⟨fun negotiated => (isHighest_of_negotiate negotiated).symm.negotiated,
    fun negotiated => (isHighest_of_negotiate negotiated).symm.negotiated⟩

/-- The top of one range is in the other one exactly if it is not above the other top. -/
theorem IsHighest.contains_max (highest : IsHighest a b v) : b.contains a.max = true ↔ a.max ≤ b.max := by
  have inA := (contains_iff a v).mp highest.left
  have inB := (contains_iff b v).mp highest.right
  rw [contains_iff]
  simp only [Version.le_iff] at inA inB ⊢
  omega

end VersionRange

end SecureInbox
