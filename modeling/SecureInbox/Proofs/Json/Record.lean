import SecureInbox.Json.Node

/-! # Records read from their members

An object whose names are all different is read as a record by looking its fields up
(`Node.slots?_object`).  A field is then read as what was written for it, and one that was
left out is read as nothing (`Node.lenient_slot`). -/
set_option autoImplicit false

namespace SecureInbox.Json.Node

variable {α β : Type}

theorem mapM_eq_map {f : α → Option β} {g : α → β} {xs : List α}
    (all : ∀ x ∈ xs, f x = some (g x)) : xs.mapM f = some (xs.map g) := by
  induction xs with
  | nil => rfl
  | cons x rest ih =>
    have first := all x List.mem_cons_self
    have others := ih fun y mem => all y (List.mem_cons_of_mem x mem)
    simp [List.mapM_cons, first, others]

/-! ## Fields by name -/

def slot : Option Json → Slot
  | some value => .given (ofValue value)
  | none => .absent

theorem ofMemberValues_eq_map (members : List (String × Json)) :
    ofMemberValues members = members.map fun m => (some m.1, ofValue m.2) := by
  induction members with
  | nil => rfl
  | cons m rest ih =>
    rw [ofMemberValues, ih]
    rfl

theorem lookup_eq_none {members : List (String × Json)} {name : String}
    (other : name ∉ members.map Prod.fst) : members.lookup name = none := by
  rw [List.lookup_eq_none_iff]
  intro m mem
  have ne : name ≠ m.1 := fun same => other (same ▸ List.mem_map_of_mem mem)
  exact bne_iff_ne.2 ne

/-- The only member of a name is the one that is found. -/
theorem filter_name {members : List (String × Json)} (distinct : (members.map Prod.fst).Nodup)
    (name : String) : (members.filter fun m => m.1 = name) =
      ((members.lookup name).map fun value => (name, value)).toList := by
  induction members with
  | nil => rfl
  | cons m rest ih =>
    obtain ⟨other, value⟩ := m
    obtain ⟨fresh, distinct⟩ := List.nodup_cons.1 distinct
    by_cases same : other = name
    · subst same
      have none := ih distinct
      rw [lookup_eq_none fresh] at none
      simp [none]
    · have ne : (name == other) = false := beq_eq_false_iff_ne.2 (Ne.symm same)
      simp [List.lookup_cons, ne, same, ih distinct]

theorem slots?_object {members : List (String × Json)} (distinct : (members.map Prod.fst).Nodup)
    (names : List String) : (ofValue (.object members)).slots? names =
      some (names.map fun name => slot (members.lookup name)) := by
  have named : (ofMemberValues members).mapM (fun m => m.1.map fun name => (name, m.2)) =
      some (members.map fun m => (m.1, ofValue m.2)) := by
    rw [ofMemberValues_eq_map, List.mapM_map]
    exact mapM_eq_map fun _ _ => rfl
  rw [ofValue, slots?, named, Option.bind_eq_bind, Option.bind_some]
  refine mapM_eq_map fun name _ => ?_
  have found : (members.map fun m => (m.1, ofValue m.2)).filter (fun m => m.1 = name) =
      ((members.lookup name).map fun value => (name, ofValue value)).toList := by
    rw [List.filter_map]
    show ((members.filter fun m => m.1 = name).map fun m => (m.1, ofValue m.2)) = _
    rw [filter_name distinct]
    cases members.lookup name <;> rfl
  rw [found]
  cases members.lookup name <;> rfl

/-! ## Fields by value -/

theorem required_slot {read : Node → Option α} {write : α → Json}
    (same : ∀ a, read (ofValue (write a)) = some a) (a : α) :
    (slot (some (write a))).required read = some a := same a

/-- A value that is written as anything but `null` is not taken for a missing one. -/
theorem lenient_slot {read : Node → Option α} {write : α → Json}
    (same : ∀ a, read (ofValue (write a)) = some a) (absent : read .null = none)
    (value : Option α) : (slot (value.map write)).lenient read = some value := by
  cases value with
  | none => rfl
  | some a =>
    have held := same a
    show (Slot.given (ofValue (write a))).optional read = some (some a)
    generalize ofValue (write a) = node at held
    cases node with
    | null =>
      rw [absent] at held
      cases held
    | _ => exact congrArg (Option.map some) held

theorem natural?_ofValue {bound n : Nat} (small : n < bound) :
    natural? bound (ofValue (ofNat n)) = some n := by
  have within : 0 ≤ (n : Int) ∧ (n : Int) < bound := by omega
  exact if_pos within

theorem byte?_ofValue (b : UInt8) : byte? (ofValue (ofNat b.toNat)) = some b := by
  rw [byte?, natural?_ofValue b.toNat_lt, Option.map_some, UInt8.ofNat_toNat]

theorem word32?_ofValue (w : UInt32) : word32? (ofValue (ofNat w.toNat)) = some w := by
  rw [word32?, natural?_ofValue w.toNat_lt, Option.map_some, UInt32.ofNat_toNat]

theorem word16?_ofValue (w : UInt16) : word16? (ofValue (ofNat w.toNat)) = some w := by
  rw [word16?, natural?_ofValue w.toNat_lt, Option.map_some, UInt16.ofNat_toNat]

theorem word64?_ofValue (w : UInt64) : word64? (ofValue (ofNat w.toNat)) = some w := by
  rw [word64?, natural?_ofValue w.toNat_lt, Option.map_some, UInt64.ofNat_toNat]

theorem ofValues_eq_map (items : List Json) : ofValues items = items.map ofValue := by
  induction items with
  | nil => rfl
  | cons item rest ih =>
    rw [ofValues, ih]
    rfl

theorem list?_ofValue {read : Node → Option α} {write : α → Json}
    (same : ∀ a, read (ofValue (write a)) = some a) (values : List α) :
    list? read (ofValue (.array (values.map write))) = some values := by
  have all : values.mapM ((read ∘ ofValue) ∘ write) = some (values.map id) :=
    mapM_eq_map fun a _ => same a
  rw [ofValue, list?, ofValues_eq_map, List.mapM_map, List.mapM_map, all, List.map_id]

end SecureInbox.Json.Node
