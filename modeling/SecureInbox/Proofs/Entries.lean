import Mathlib.Data.List.Nodup

/-! # Entries under keys

A list of entries is read by `List.lookup`.  Where no two entries have the same key, each of them is
found, whatever is removed or written elsewhere. -/
set_option autoImplicit false

namespace SecureInbox.Entries

variable {κ β γ : Type} {entries : List (κ × β)} {key : κ} {value : β}

/-- Writing over an entry leaves the keys as they are. -/
theorem keys_set {place : Nat} (here : entries[place]? = some (key, value)) (new : β) :
    (entries.set place (key, new)).map Prod.fst = entries.map Prod.fst := by
  have kept : (entries.map Prod.fst)[place]? = some key := by simp [here]
  obtain ⟨inside, same⟩ := List.getElem?_eq_some_iff.mp kept
  rw [List.map_set, ← same]
  exact List.set_getElem_self inside

variable [DecidableEq κ]

theorem mem_of_lookup (found : entries.lookup key = some value) : (key, value) ∈ entries := by
  obtain ⟨before, after, rfl, -⟩ := List.lookup_eq_some_iff.mp found
  exact List.mem_append_right before List.mem_cons_self

theorem exists_of_mem (member : (key, value) ∈ entries) : ∃ other, entries.lookup key = some other := by
  cases found : entries.lookup key with
  | some other => exact ⟨other, rfl⟩
  | none => simpa using List.lookup_eq_none_iff.mp found _ member

theorem lookup_map (f : β → γ) (entries : List (κ × β)) (key : κ) :
    (entries.map fun entry => (entry.1, f entry.2)).lookup key = (entries.lookup key).map f := by
  induction entries with
  | nil => rfl
  | cons entry rest ih =>
      rw [List.map_cons, List.lookup_cons, List.lookup_cons, ih]
      split <;> rfl

section Distinct

variable (distinct : (entries.map Prod.fst).Nodup)
include distinct

theorem lookup_of_mem (member : (key, value) ∈ entries) : entries.lookup key = some value := by
  induction entries with
  | nil => simp at member
  | cons entry rest ih =>
      obtain ⟨fresh, distinct⟩ := List.nodup_cons.mp distinct
      rcases List.mem_cons.mp member with rfl | later
      · simp
      · have other : key ≠ entry.1 := by
          rintro rfl
          exact fresh (List.mem_map.mpr ⟨_, later, rfl⟩)
        rw [List.lookup_cons, beq_eq_false_iff_ne.mpr other]
        exact ih distinct later

/-- Removing other entries leaves what is found. -/
theorem lookup_filter {keep : κ × β → Bool} (found : entries.lookup key = some value)
    (kept : keep (key, value) = true) : (entries.filter keep).lookup key = some value := by
  apply lookup_of_mem
  · exact distinct.sublist (List.filter_sublist.map _)
  · exact List.mem_filter.mpr ⟨mem_of_lookup found, kept⟩

/-- Writing over an entry changes what is found under its key alone. -/
theorem lookup_set {place : Nat} (here : entries[place]? = some (key, value)) (new : β) (other : κ) :
    (entries.set place (key, new)).lookup other =
      if other = key then some new else entries.lookup other := by
  induction entries generalizing place with
  | nil => simp at here
  | cons entry rest ih =>
      obtain ⟨fresh, distinct⟩ := List.nodup_cons.mp distinct
      cases place with
      | zero =>
          obtain rfl : entry = (key, value) := by simpa using here
          rw [List.set_cons_zero, List.lookup_cons, List.lookup_cons]
          by_cases same : other = key
          · simp [same]
          · rw [beq_eq_false_iff_ne.mpr same, if_neg same]
      | succ place =>
          have later : rest[place]? = some (key, value) := by simpa using here
          have ne : entry.1 ≠ key := by
            rintro rfl
            exact fresh (List.mem_map.mpr ⟨_, List.mem_of_getElem? later, rfl⟩)
          rw [List.set_cons_succ, List.lookup_cons, List.lookup_cons, ih distinct later]
          by_cases same : other = key
          · subst same
            rw [beq_eq_false_iff_ne.mpr ne.symm, if_pos rfl]
          · rw [if_neg same, if_neg same]

end Distinct

end SecureInbox.Entries
