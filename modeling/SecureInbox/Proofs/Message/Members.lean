import SecureInbox.Message.Json
import SecureInbox.Proofs.Json.Order

/-! # Members read in any order

`Json.ReadAs` says that a reader takes a value for a given thing however the members of its
objects were rearranged.  Members with different names are found by their names wherever they
stand (`Json.Rearranged.record`), and a tag is told from the members beside it
(`Json.Rearranged.tagged?`). -/
set_option autoImplicit false

namespace SecureInbox

open Json (Node)
open Json.Node (Slot slot)

/-! ## Members that may be left out -/

/-- The members that are written for some entries: none for an entry without a value. -/
def membersOf (entries : List (String × Option Json)) : List (String × Json) :=
  entries.flatMap fun e => optionalMember e.1 e.2

theorem names_membersOf (entries : List (String × Option Json)) :
    ((membersOf entries).map Prod.fst).Sublist (entries.map Prod.fst) := by
  induction entries with
  | nil => exact List.Sublist.refl []
  | cons e rest ih =>
    obtain ⟨name, _ | value⟩ := e
    · exact ih.cons name
    · exact ih.cons_cons name

theorem lookup_membersOf {entries : List (String × Option Json)}
    (distinct : (entries.map Prod.fst).Nodup) {e : String × Option Json} (mem : e ∈ entries) :
    (membersOf entries).lookup e.1 = e.2 := by
  induction entries with
  | nil => cases mem
  | cons first rest ih =>
    obtain ⟨fresh, others⟩ := List.nodup_cons.1 distinct
    obtain ⟨name, value⟩ := first
    rcases List.mem_cons.1 mem with rfl | later
    · cases value with
      | some value => exact List.lookup_cons_self
      | none => exact Json.Node.lookup_eq_none fun mem => fresh ((names_membersOf rest).subset mem)
    · have other : e.1 ≠ name := by
        rintro rfl
        exact fresh (List.mem_map.2 ⟨e, later, rfl⟩)
      cases value with
      | none => exact ih others later
      | some value =>
        show ((name, value) :: membersOf rest).lookup e.1 = e.2
        rw [List.lookup_cons, beq_eq_false_iff_ne.2 other]
        exact ih others later

theorem slots?_membersOf {entries : List (String × Option Json)}
    (distinct : (entries.map Prod.fst).Nodup) :
    (Node.ofValue (.object (membersOf entries))).slots? (entries.map Prod.fst) =
      some (entries.map fun e => slot e.2) := by
  have names : ((membersOf entries).map Prod.fst).Nodup :=
    distinct.sublist (names_membersOf entries)
  rw [Json.Node.slots?_object names, List.map_map]
  refine congrArg some (List.map_congr_left fun e mem => ?_)
  exact congrArg slot (lookup_membersOf distinct mem)

namespace Json

/-! ## Values -/

/-- Whether a reader takes a value for `a`, however it is rearranged. -/
def ReadAs {α : Type} (v : Json) (read : Node → Option α) (a : α) : Prop :=
  ∀ w, v.Rearranged w → read (Node.ofValue w) = some a

section Values

variable {α : Type} {read : Node → Option α} {a : α} {v w : Json}

theorem ReadAs.of_leaf (leaf : v.IsLeaf) (same : read (Node.ofValue v) = some a) :
    v.ReadAs read a := by
  intro w again
  obtain rfl := again.leaf leaf
  exact same

theorem ReadAs.map {β : Type} (back : v.ReadAs read a) (f : α → β) :
    v.ReadAs (fun node => (read node).map f) (f a) :=
  fun w again => congrArg (Option.map f) (back w again)

theorem readAs_text (s : String) : (Json.string s).ReadAs Node.text? s := .of_leaf trivial rfl

theorem readAs_flag (b : Bool) : (Json.bool b).ReadAs Node.flag? b := .of_leaf trivial rfl

theorem readAs_byte (b : UInt8) : (Json.ofNat b.toNat).ReadAs Node.byte? b :=
  .of_leaf trivial (Node.byte?_ofValue b)

theorem readAs_word16 (n : UInt16) : (Json.ofNat n.toNat).ReadAs Node.word16? n :=
  .of_leaf trivial (Node.word16?_ofValue n)

theorem readAs_word32 (n : UInt32) : (Json.ofNat n.toNat).ReadAs Node.word32? n :=
  .of_leaf trivial (Node.word32?_ofValue n)

theorem readAs_word64 (n : UInt64) : (Json.ofNat n.toNat).ReadAs Node.word64? n :=
  .of_leaf trivial (Node.word64?_ofValue n)

/-- Only a finite double has a number to be written with. -/
theorem readAs_real {x : Binary64} (finite : x.isFinite = true) : (ofFloat x).ReadAs Node.real? x := by
  rw [ofFloat, if_pos finite]
  exact .of_leaf trivial rfl

theorem readAs_hexText {n : Nat} (b : Block n) : (hexText b).ReadAs (Node.hexBlock? n) b :=
  .of_leaf trivial (Block.ofHex?_hex b)

theorem readAs_choice {named? : String → Option α} {s : String} (emptyAllowed : Bool)
    (named : named? s = some a) : (Json.string s).ReadAs (Node.choice? emptyAllowed named?) a :=
  .of_leaf trivial named

theorem mapM_of_forall₂ {β : Type} {f : β → Option α} {ys : List β} {xs : List α}
    (read : List.Forall₂ (fun y x => f y = some x) ys xs) : ys.mapM f = some xs := by
  induction read with
  | nil => rfl
  | cons first _ ih => simp [List.mapM_cons, first, ih]

theorem readAs_list {write : α → Json} {xs : List α} (each : ∀ x ∈ xs, (write x).ReadAs read x) :
    (Json.array (xs.map write)).ReadAs (Node.list? read) xs := by
  intro w again
  obtain ⟨ws, rfl, held⟩ := again.items
  rw [Node.ofValue, Node.list?, Node.ofValues_eq_map]
  refine mapM_of_forall₂ (List.forall₂_map_left_iff.2 (List.Forall₂.flip ?_))
  rw [List.forall₂_map_left_iff, List.forall₂_iff_zip] at held
  refine List.forall₂_iff_zip.2 ⟨held.1, fun {x w} mem => ?_⟩
  exact each x (List.of_mem_zip mem).1 w (held.2 mem)

theorem readAs_bytes (bytes : Bytes) : (byteList bytes).ReadAs Node.bytes? bytes :=
  readAs_list fun b _ => readAs_byte b

theorem readAs_block {n : Nat} (b : Block n) : (byteList b.bytes).ReadAs (Node.byteBlock? n) b := by
  intro w again
  rw [Node.byteBlock?, readAs_list (fun b _ => readAs_byte b) w again, Option.bind_eq_bind,
    Option.bind_some, Block.ofBytes?_bytes]

@[simp] theorem each_ofNat {P : List (String × Json) → Prop} (n : Nat) : (Json.ofNat n).Each P :=
  trivial

@[simp] theorem each_hexText {P : List (String × Json) → Prop} {n : Nat} (b : Block n) :
    (hexText b).Each P := trivial

@[simp] theorem each_ofIdentity {P : List (String × Json) → Prop} (i : Identity) :
    (Json.ofIdentity i).Each P := trivial

@[simp] theorem each_ofFloat {P : List (String × Json) → Prop} (x : Binary64) : (ofFloat x).Each P := by
  rw [ofFloat]
  split <;> trivial

@[simp] theorem each_byteList {P : List (String × Json) → Prop} (bytes : Bytes) :
    (byteList bytes).Each P := by simp [byteList]

theorem readAs_any (ascending : v.Each Ascending) : v.ReadAs Node.anyValue? v :=
  fun _ again => Node.anyValue?_rearranged ascending again

/-! ## Members -/

/-- Whether the members of an object are found by name, as the fields of a record. -/
structure IsRecord (w : Json) : Prop where
  slots? (names : List String) :
    (Node.ofValue w).slots? names = some (names.map fun name => slot (w.member? name))

def Holds (w : Json) : List (String × Option Json) → Prop
  | [] => True
  | (name, value) :: rest => Option.Rel Rearranged value (w.member? name) ∧ w.Holds rest

theorem holds_iff {entries : List (String × Option Json)} :
    w.Holds entries ↔ ∀ e ∈ entries, Option.Rel Rearranged e.2 (w.member? e.1) := by
  induction entries with
  | nil => simp [Holds]
  | cons e rest ih => simp [Holds, ih]

theorem lookup_forall₂ {ms ns : List (String × Json)} (held : List.Forall₂ MemberRearranged ms ns)
    (name : String) : Option.Rel Rearranged (ms.lookup name) (ns.lookup name) := by
  induction held with
  | nil => exact .none
  | @cons m n _ _ first _ ih =>
    obtain ⟨other, value⟩ := m
    obtain ⟨_, moved⟩ := n
    obtain ⟨rfl, again⟩ := first
    rw [List.lookup_cons, List.lookup_cons]
    cases name == other with
    | true => exact .some again
    | false => exact ih

/-- Members of different names are found in any order. -/
theorem lookup_perm {ms ns : List (String × Json)} (distinct : Distinct ms) (perm : ms.Perm ns)
    (name : String) : ms.lookup name = ns.lookup name := by
  have found := perm.filter fun m => m.1 = name
  rw [Node.filter_name distinct, Node.filter_name ((perm.map Prod.fst).nodup_iff.1 distinct),
    List.perm_option_toList] at found
  exact Option.map_injective (fun _ _ same => (Prod.mk.inj same).2) found

theorem Rearranged.record (entries : List (String × Option Json))
    (again : (Json.object (membersOf entries)).Rearranged w)
    (distinct : (entries.map Prod.fst).Nodup) : w.IsRecord ∧ w.Holds entries := by
  obtain ⟨same, ns, rfl, held, perm⟩ := again.members
  have names : Distinct same := by
    rw [Distinct, ← names_of_forall₂ held]
    exact distinct.sublist (names_membersOf entries)
  refine ⟨⟨Node.slots?_object ((perm.map Prod.fst).nodup_iff.1 names)⟩, holds_iff.2 fun e mem => ?_⟩
  rw [member?, ← lookup_perm names perm, ← lookup_membersOf distinct mem]
  exact lookup_forall₂ held e.1

/-- A member before others of other names is the only one of its name in any order. -/
theorem filter_perm {m : String × Json} {others ns : List (String × Json)}
    (fresh : m.1 ∉ others.map Prod.fst) (perm : (m :: others).Perm ns) :
    ns.filter (fun n => n.1 = m.1) = [m] ∧ others.Perm (ns.filter fun n => n.1 ≠ m.1) := by
  have apart : ∀ n ∈ others, n.1 ≠ m.1 := fun n mem same =>
    fresh (same ▸ List.mem_map_of_mem mem)
  have none : others.filter (fun n => n.1 = m.1) = [] :=
    List.filter_eq_nil_iff.2 fun n mem same => apart n mem (of_decide_eq_true same)
  have all : others.filter (fun n => n.1 ≠ m.1) = others :=
    List.filter_eq_self.2 fun n mem => decide_eq_true (apart n mem)
  have equal := perm.filter fun n => n.1 = m.1
  have unequal := perm.filter fun n => n.1 ≠ m.1
  rw [List.filter_cons_of_pos (by simp), none] at equal
  rw [List.filter_cons_of_neg (by simp), all] at unequal
  exact ⟨equal.symm.eq_singleton, unequal⟩

theorem filter_ofMemberValues (keep : Option String → Bool) (ns : List (String × Json)) :
    (Node.ofMemberValues ns).filter (fun m => keep m.1) =
      Node.ofMemberValues (ns.filter fun n => keep (some n.1)) := by
  rw [Node.ofMemberValues_eq_map, Node.ofMemberValues_eq_map, List.filter_map]
  rfl

/-- The tag of a record, and the record without it. -/
theorem Rearranged.tagged? {tag text : String} {fields : List (String × Json)}
    (again : (Json.object ((tag, .string text) :: fields)).Rearranged w)
    (fresh : tag ∉ fields.map Prod.fst) : ∃ rest, (Json.object fields).Rearranged rest ∧
      (Node.ofValue w).tagged? tag = some (.string (some text), Node.ofValue rest) := by
  obtain ⟨same, ns, rfl, held, perm⟩ := again.members
  obtain ⟨⟨_, value⟩, others, ⟨rfl, first⟩, later, rfl⟩ := List.forall₂_cons_left_iff.1 held
  obtain rfl : value = .string text := first.leaf trivial
  rw [names_of_forall₂ later] at fresh
  obtain ⟨tags, rest⟩ := filter_perm fresh perm
  refine ⟨.object (ns.filter fun m => m.1 ≠ tag), ⟨others, membersRearranged_iff.2 later, rest⟩, ?_⟩
  have tagNodes := filter_ofMemberValues (fun name => name = some tag) ns
  have otherNodes := filter_ofMemberValues (fun name => name ≠ some tag) ns
  simp only [Option.some.injEq, ne_eq] at tagNodes otherNodes
  rw [tags] at tagNodes
  rw [Node.ofValue, Node.tagged?, tagNodes]
  simp only [ne_eq, otherNodes]
  rfl

/-! ## Fields -/

theorem required_of_rel {field : Option Json} (held : Option.Rel Rearranged (some v) field)
    (back : v.ReadAs read a) : (slot field).required read = some a := by
  cases held with
  | some again => exact back _ again

theorem optional_given {node : Node} (absent : read .null = none) (given : read node = some a) :
    (Slot.given node).optional read = some (some a) := by
  cases node with
  | null =>
    rw [absent] at given
    cases given
  | _ => exact congrArg (Option.map some) given

theorem orElse_of_rel (fallback : α) {field : Option Json}
    (held : Option.Rel Rearranged (some v) field) (back : v.ReadAs read a) :
    (slot field).orElse read fallback = some a := by
  cases held with
  | some again => exact back _ again

/-- A member that is left out is read as nothing. -/
theorem optional_of_rel {write : α → Json} {value : Option α} {field : Option Json}
    (held : Option.Rel Rearranged (value.map write) field)
    (back : ∀ a ∈ value, (write a).ReadAs read a) (absent : read .null = none) :
    (slot field).optional read = some value := by
  cases value with
  | none =>
    cases held
    rfl
  | some a =>
    cases held with
    | some again => exact optional_given absent (back a rfl _ again)

theorem lenient_of_rel {write : α → Json} {value : Option α} {field : Option Json}
    (held : Option.Rel Rearranged (value.map write) field)
    (back : ∀ a ∈ value, (write a).ReadAs read a) (absent : read .null = none) :
    (slot field).lenient read = some value := by
  rw [← optional_of_rel held back absent]
  cases field <;> rfl

/-- A member that holds `null` is read as nothing. -/
theorem optional_of_rel_orNull {write : α → Json} {value : Option α} {field : Option Json}
    (held : Option.Rel Rearranged (some (orNull write value)) field)
    (back : ∀ a ∈ value, (write a).ReadAs read a) (absent : read .null = none) :
    (slot field).optional read = some value := by
  cases held with
  | some again =>
    cases value with
    | none =>
      obtain rfl := Rearranged.leaf (v := .null) trivial again
      rfl
    | some a => exact optional_given absent (back a rfl _ again)

end Values

end Json

end SecureInbox
