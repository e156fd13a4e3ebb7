import Mathlib.Data.List.Perm.Basic
import SecureInbox.Proofs.Json.Record

/-! # Values up to the order of members

The members of an object may be written in one order and read in another.
`Json.Rearranged` relates the values that differ in nothing but such orders, and the sorted form
of a value without repeated names is one of them (`rearranged_sorted`).  A value of free form has
its members in ascending order, and it is read as itself however they were rearranged
(`anyValue?_rearranged`). -/
set_option autoImplicit false

namespace SecureInbox.Json

mutual
/-- The same value but for the order of the members of its objects. -/
def Rearranged : Json → Json → Prop
  | .array items, .array others => ItemsRearranged items others
  | .object members, .object others => ∃ same, MembersRearranged members same ∧ same.Perm others
  | v, w => v = w

def ItemsRearranged : List Json → List Json → Prop
  | [], [] => True
  | v :: vs, w :: ws => v.Rearranged w ∧ ItemsRearranged vs ws
  | _, _ => False

def MembersRearranged : List (String × Json) → List (String × Json) → Prop
  | [], [] => True
  | (name, v) :: ms, (other, w) :: ns => name = other ∧ v.Rearranged w ∧ MembersRearranged ms ns
  | _, _ => False
end

mutual
def Each (P : List (String × Json) → Prop) : Json → Prop
  | .array items => EachItem P items
  | .object members => P members ∧ EachMember P members
  | _ => True

def EachItem (P : List (String × Json) → Prop) : List Json → Prop
  | [] => True
  | item :: rest => item.Each P ∧ EachItem P rest

def EachMember (P : List (String × Json) → Prop) : List (String × Json) → Prop
  | [] => True
  | (_, value) :: rest => value.Each P ∧ EachMember P rest
end

def IsLeaf : Json → Prop
  | .array _ => False
  | .object _ => False
  | _ => True

def Distinct (members : List (String × Json)) : Prop := (members.map Prod.fst).Nodup

def Ascending (members : List (String × Json)) : Prop := members.Pairwise fun m n => m.1 < n.1

instance (members : List (String × Json)) : Decidable (Ascending members) :=
  inferInstanceAs (Decidable (members.Pairwise fun m n => m.1 < n.1))

def MemberRearranged (m n : String × Json) : Prop := m.1 = n.1 ∧ m.2.Rearranged n.2

/-! ## Items and members as lists -/

/-- Induction in which the items of an array and the members of an object are lists. -/
@[elab_as_elim] theorem parts_induction {motive : Json → Prop}
    (leaf : ∀ v : Json, v.IsLeaf → motive v)
    (array : ∀ items : List Json, (∀ v ∈ items, motive v) → motive (.array items))
    (object : ∀ members : List (String × Json), (∀ m ∈ members, motive m.2) →
      motive (.object members)) (v : Json) : motive v := by
  refine @Json.rec motive (fun items => ∀ v ∈ items, motive v)
    (fun members => ∀ m ∈ members, motive m.2) (fun m => motive m.2) ?_ ?_ ?_ ?_ array object
    nofun ?_ nofun ?_ (fun _ _ held => held) v
  · exact leaf _ trivial
  · exact fun _ => leaf _ trivial
  · exact fun _ => leaf _ trivial
  · exact fun _ => leaf _ trivial
  · exact fun _ _ first later => List.forall_mem_cons.2 ⟨first, later⟩
  · exact fun _ _ first later => List.forall_mem_cons.2 ⟨first, later⟩

theorem itemsRearranged_iff {vs ws : List Json} :
    ItemsRearranged vs ws ↔ List.Forall₂ Rearranged vs ws := by
  induction vs generalizing ws with
  | nil => cases ws <;> simp [ItemsRearranged]
  | cons v vs ih => cases ws <;> simp [ItemsRearranged, ih]

theorem membersRearranged_iff {ms ns : List (String × Json)} :
    MembersRearranged ms ns ↔ List.Forall₂ MemberRearranged ms ns := by
  induction ms generalizing ns with
  | nil => cases ns <;> simp [MembersRearranged]
  | cons m ms ih => cases ns <;> simp [MembersRearranged, MemberRearranged, ih, and_assoc]

variable {P Q : List (String × Json) → Prop}

theorem eachItem_iff {items : List Json} : EachItem P items ↔ ∀ v ∈ items, v.Each P := by
  induction items with
  | nil => simp [EachItem]
  | cons item rest ih => simp [EachItem, ih]

theorem eachMember_iff {members : List (String × Json)} :
    EachMember P members ↔ ∀ m ∈ members, m.2.Each P := by
  induction members with
  | nil => simp [EachMember]
  | cons m rest ih => simp [EachMember, ih]

@[simp] theorem each_null : Json.null.Each P := trivial

@[simp] theorem each_bool (b : Bool) : (Json.bool b).Each P := trivial

@[simp] theorem each_number (n : Number) : (Json.number n).Each P := trivial

@[simp] theorem each_string (s : String) : (Json.string s).Each P := trivial

@[simp] theorem each_array (items : List Json) :
    (Json.array items).Each P ↔ ∀ v ∈ items, v.Each P := eachItem_iff

@[simp] theorem each_object (members : List (String × Json)) :
    (Json.object members).Each P ↔ P members ∧ ∀ m ∈ members, m.2.Each P := by
  rw [Each, eachMember_iff]

theorem Each.mono (weaker : ∀ members, P members → Q members) {v : Json} (each : v.Each P) :
    v.Each Q := by
  induction v using parts_induction with
  | leaf v leaf => cases v <;> first | exact leaf.elim | trivial
  | array items ih =>
    rw [each_array] at each ⊢
    exact fun v mem => ih v mem (each v mem)
  | object members ih =>
    rw [each_object] at each ⊢
    exact ⟨weaker members each.1, fun m mem => ih m mem (each.2 m mem)⟩

@[simp] theorem distinct_nil : Distinct [] := List.nodup_nil

@[simp] theorem distinct_cons (m : String × Json) (members : List (String × Json)) :
    Distinct (m :: members) ↔ m.1 ∉ members.map Prod.fst ∧ Distinct members := List.nodup_cons

theorem Ascending.distinct {members : List (String × Json)} (ascending : Ascending members) :
    Distinct members :=
  List.pairwise_map.2 (ascending.imp fun less => Std.ne_of_lt less)

/-! ## Rearranged values -/

theorem Rearranged.leaf {v w : Json} (leaf : v.IsLeaf) (again : v.Rearranged w) : w = v := by
  cases v with
  | array items => exact leaf.elim
  | object members => exact leaf.elim
  | _ => cases w <;> exact again.symm

theorem rearranged_refl (v : Json) : v.Rearranged v := by
  induction v using parts_induction with
  | leaf v leaf => cases v <;> first | exact leaf.elim | exact rfl
  | array items ih => exact itemsRearranged_iff.2 (List.forall₂_same.2 ih)
  | object members ih =>
    have held : List.Forall₂ MemberRearranged members members :=
      List.forall₂_same.2 fun m mem => ⟨rfl, ih m mem⟩
    exact ⟨members, membersRearranged_iff.2 held, List.Perm.refl members⟩

theorem Rearranged.items {vs : List Json} {w : Json} (again : (Json.array vs).Rearranged w) :
    ∃ ws, w = .array ws ∧ List.Forall₂ Rearranged vs ws := by
  cases w with
  | array ws => exact ⟨ws, rfl, itemsRearranged_iff.1 again⟩
  | _ => cases again

theorem Rearranged.members {ms : List (String × Json)} {w : Json}
    (again : (Json.object ms).Rearranged w) :
    ∃ same ns, w = .object ns ∧ List.Forall₂ MemberRearranged ms same ∧ same.Perm ns := by
  cases w with
  | object ns =>
    obtain ⟨same, held, perm⟩ := again
    exact ⟨same, ns, rfl, membersRearranged_iff.1 held, perm⟩
  | _ => cases again

theorem names_of_forall₂ {ms ns : List (String × Json)} (held : List.Forall₂ MemberRearranged ms ns) :
    ms.map Prod.fst = ns.map Prod.fst := by
  induction held with
  | nil => rfl
  | cons first _ ih => rw [List.map_cons, List.map_cons, first.1, ih]

/-! ## Sorting -/

theorem mem_insertMember {name : String} {value : Json} {members : List (String × Json)}
    {m : String × Json} (mem : m ∈ insertMember name value members) :
    m = (name, value) ∨ m ∈ members := by
  induction members with
  | nil => exact .inl (List.mem_singleton.1 mem)
  | cons first rest ih =>
    obtain ⟨other, held⟩ := first
    rw [insertMember] at mem
    split at mem
    · exact (List.mem_cons.1 mem).imp_right (List.mem_cons_of_mem _)
    · split at mem
      · exact List.mem_cons.1 mem
      · rcases List.mem_cons.1 mem with rfl | mem
        · exact .inr List.mem_cons_self
        · exact (ih mem).imp_right (List.mem_cons_of_mem _)

theorem ascending_insertMember (name : String) (value : Json) {members : List (String × Json)}
    (ascending : Ascending members) : Ascending (insertMember name value members) := by
  induction members with
  | nil => exact List.pairwise_singleton _ _
  | cons first rest ih =>
    obtain ⟨other, held⟩ := first
    obtain ⟨above, later⟩ := List.pairwise_cons.1 ascending
    rw [insertMember]
    split
    · next same =>
      subst same
      exact List.pairwise_cons.2 ⟨above, later⟩
    · next differ =>
      split
      · next less =>
        refine List.pairwise_cons.2 ⟨List.forall_mem_cons.2 ⟨less, fun m mem => ?_⟩, ascending⟩
        exact String.lt_trans less (above m mem)
      · next notLess =>
        refine List.pairwise_cons.2 ⟨fun m mem => ?_, ih later⟩
        rcases mem_insertMember mem with rfl | mem
        · exact Std.lt_of_le_of_ne (String.not_lt.1 notLess) (Ne.symm differ)
        · exact above m mem

theorem insertMember_perm {name : String} (value : Json) {members : List (String × Json)}
    (fresh : name ∉ members.map Prod.fst) :
    (insertMember name value members).Perm ((name, value) :: members) := by
  induction members with
  | nil => exact List.Perm.refl _
  | cons first rest ih =>
    obtain ⟨other, held⟩ := first
    obtain ⟨differ, fresh⟩ := List.ne_and_not_mem_of_not_mem_cons fresh
    rw [insertMember, if_neg differ]
    split
    · exact List.Perm.refl _
    · exact ((ih fresh).cons _).trans (List.Perm.swap _ _ _)

def placeAll (members sorted : List (String × Json)) : List (String × Json) :=
  members.foldl (fun sorted m => insertMember m.1 m.2 sorted) sorted

theorem ascending_placeAll (members : List (String × Json)) {sorted : List (String × Json)}
    (ascending : Ascending sorted) : Ascending (placeAll members sorted) := by
  induction members generalizing sorted with
  | nil => exact ascending
  | cons m rest ih => exact ih (ascending_insertMember m.1 m.2 ascending)

theorem mem_placeAll {members sorted : List (String × Json)} {m : String × Json}
    (mem : m ∈ placeAll members sorted) : m ∈ members ∨ m ∈ sorted := by
  induction members generalizing sorted with
  | nil => exact .inr mem
  | cons first rest ih =>
    rcases ih mem with mem | mem
    · exact .inl (List.mem_cons_of_mem first mem)
    · rcases mem_insertMember mem with rfl | mem
      · exact .inl List.mem_cons_self
      · exact .inr mem

/-- Members of different names are moved and kept. -/
theorem placeAll_perm {members sorted : List (String × Json)} (distinct : Distinct (members ++ sorted)) :
    (members ++ sorted).Perm (placeAll members sorted) := by
  induction members generalizing sorted with
  | nil => exact List.Perm.refl _
  | cons m rest ih =>
    have fresh : m.1 ∉ sorted.map Prod.fst := fun mem =>
      (List.nodup_cons.1 distinct).1 (List.map_subset _ (List.subset_append_right _ _) mem)
    have moved : (m :: (rest ++ sorted)).Perm (rest ++ insertMember m.1 m.2 sorted) :=
      List.perm_middle.symm.trans ((insertMember_perm m.2 fresh).symm.append_left rest)
    exact moved.trans (ih ((moved.map Prod.fst).nodup_iff.1 distinct))

theorem ofMembers_perm {members : List (String × Json)} (distinct : Distinct members) :
    ∃ sorted, ofMembers members = .object sorted ∧ members.Perm sorted := by
  have moved := placeAll_perm (by rwa [List.append_nil] : Distinct (members ++ []))
  rw [List.append_nil] at moved
  exact ⟨_, rfl, moved⟩

/-- Members that ascend are what sorting makes of them in any order. -/
theorem ofMembers_of_perm {members others : List (String × Json)} (ascending : Ascending members)
    (perm : others.Perm members) : ofMembers others = .object members := by
  have distinct : Distinct others := ((perm.map Prod.fst).nodup_iff).2 ascending.distinct
  have moved := placeAll_perm (by rwa [List.append_nil] : Distinct (others ++ []))
  rw [List.append_nil] at moved
  have ordered := ascending_placeAll others List.Pairwise.nil
  refine congrArg Json.object (List.Perm.eq_of_pairwise ?_ ordered ascending (moved.symm.trans perm))
  intro m n _ _ less greater
  exact absurd greater (String.lt_asymm less)

theorem sortedItems_eq_map (items : List Json) : sortedItems items = items.map sorted := by
  induction items with
  | nil => rfl
  | cons item rest ih => rw [sortedItems, ih, List.map_cons]

theorem sortedMembers_eq_map (members : List (String × Json)) :
    sortedMembers members = members.map fun m => (m.1, m.2.sorted) := by
  induction members with
  | nil => rfl
  | cons m rest ih => rw [sortedMembers, ih, List.map_cons]

/-- The sorted form is a rearrangement. -/
theorem rearranged_sorted {v : Json} (distinct : v.Each Distinct) : v.Rearranged v.sorted := by
  induction v using parts_induction with
  | leaf v leaf => cases v <;> first | exact leaf.elim | exact rfl
  | array items ih =>
    rw [sorted, sortedItems_eq_map]
    refine itemsRearranged_iff.2 (List.forall₂_map_right_iff.2 (List.forall₂_same.2 ?_))
    exact fun v mem => ih v mem (eachItem_iff.1 distinct v mem)
  | object members ih =>
    have held : List.Forall₂ MemberRearranged members (sortedMembers members) := by
      rw [sortedMembers_eq_map]
      refine List.forall₂_map_right_iff.2 (List.forall₂_same.2 ?_)
      exact fun m mem => ⟨rfl, ih m mem (eachMember_iff.1 distinct.2 m mem)⟩
    have names : Distinct (sortedMembers members) := by
      rw [Distinct, ← names_of_forall₂ held]
      exact distinct.1
    obtain ⟨sorted, made, perm⟩ := ofMembers_perm names
    rw [Json.sorted, made]
    exact ⟨_, membersRearranged_iff.2 held, perm⟩

/-! ## Room -/

namespace Node

theorem depth_ofValue_of_mem {item : Json} {items : List Json} (mem : item ∈ items) :
    (ofValue item).depth < (ofValue (.array items)).depth := by
  show _ < depthOfItems (ofValues items) + 1
  induction items with
  | nil => cases mem
  | cons first rest ih =>
    rw [ofValues, depthOfItems]
    rcases List.mem_cons.1 mem with rfl | mem
    · omega
    · have := ih mem
      omega

theorem depth_ofValue_of_member {m : String × Json} {members : List (String × Json)}
    (mem : m ∈ members) : (ofValue m.2).depth < (ofValue (.object members)).depth := by
  show _ < depthOfMembers (ofMemberValues members) + 1
  induction members with
  | nil => cases mem
  | cons first rest ih =>
    rw [ofMemberValues, depthOfMembers]
    rcases List.mem_cons.1 mem with rfl | mem
    · omega
    · have := ih mem
      omega

theorem depth_ofValue_of_member? {v w : Json} {name : String} (found : w.member? name = some v) :
    (ofValue v).depth < (ofValue w).depth := by
  cases w with
  | object members =>
    obtain ⟨front, back, rfl, -⟩ := List.lookup_eq_some_iff.1 found
    exact depth_ofValue_of_member (m := (name, v)) (List.mem_append_right front List.mem_cons_self)
  | _ => cases found

theorem areSound_ofValues {room : Nat} {items : List Json}
    (sound : ∀ v ∈ items, (ofValue v).isSound room = true) :
    areSound room (ofValues items) = true := by
  induction items with
  | nil => rfl
  | cons item rest ih =>
    obtain ⟨first, later⟩ := List.forall_mem_cons.1 sound
    rw [ofValues, areSound, first, ih later]
    rfl

theorem membersSound_ofMemberValues {room : Nat} {members : List (String × Json)}
    (sound : ∀ m ∈ members, (ofValue m.2).isSound room = true) :
    membersSound room (ofMemberValues members) = true := by
  induction members with
  | nil => rfl
  | cons m rest ih =>
    obtain ⟨first, later⟩ := List.forall_mem_cons.1 sound
    rw [ofMemberValues, membersSound, first, ih later]
    rfl

/-- A value is sound in any room that it fits. -/
theorem isSound_ofValue {v : Json} {room : Nat} (fits : (ofValue v).depth < room) :
    (ofValue v).isSound room = true := by
  induction v using parts_induction generalizing room with
  | leaf v leaf => cases v <;> first | exact leaf.elim | rfl
  | array items ih =>
    have inner : 1 < room := Nat.lt_of_le_of_lt (Nat.le_add_left 1 _) fits
    have items := areSound_ofValues fun v mem =>
      ih v mem (Nat.lt_of_lt_of_le (depth_ofValue_of_mem mem) (Nat.le_sub_one_of_lt fits))
    rw [ofValue, isSound, items, decide_eq_true inner]
    rfl
  | object members ih =>
    have inner : 1 < room := Nat.lt_of_le_of_lt (Nat.le_add_left 1 _) fits
    have members := membersSound_ofMemberValues fun m mem =>
      ih m mem (Nat.lt_of_lt_of_le (depth_ofValue_of_member mem) (Nat.le_sub_one_of_lt fits))
    rw [ofValue, isSound, members, decide_eq_true inner]
    rfl

/-! ## Values of free form -/

theorem values?_ofValues {room : Nat} {values others : List Json}
    (read : List.Forall₂ (fun v w => value? room (ofValue w) = some v) values others) :
    values? room (ofValues others) = some values := by
  induction read with
  | nil => rfl
  | cons first _ ih => simp [ofValues, values?, first, ih]

theorem memberValues?_ofMemberValues {room : Nat} {members others : List (String × Json)}
    (read : List.Forall₂ (fun n m => n.1 = m.1 ∧ value? room (ofValue n.2) = some m.2)
      others members) :
    memberValues? room (ofMemberValues others) = some members := by
  induction read with
  | nil => rfl
  | cons first _ ih => simp [ofMemberValues, memberValues?, first, ih]

theorem value?_rearranged {v w : Json} (ascending : v.Each Ascending) (again : v.Rearranged w)
    {room : Nat} (fits : (ofValue w).depth < room) : value? room (ofValue w) = some v := by
  induction v using parts_induction generalizing w room with
  | leaf v leaf =>
    obtain rfl := again.leaf leaf
    cases w <;> first | exact leaf.elim | rfl
  | array items ih =>
    obtain ⟨others, rfl, held⟩ := again.items
    have inner : 1 < room := Nat.lt_of_le_of_lt (Nat.le_add_left 1 _) fits
    have read : List.Forall₂ (fun v w => value? (room - 1) (ofValue w) = some v) items others := by
      rw [List.forall₂_iff_zip] at held ⊢
      refine ⟨held.1, fun {v w} mem => ?_⟩
      obtain ⟨inItems, inOthers⟩ := List.of_mem_zip mem
      have := depth_ofValue_of_mem inOthers
      exact ih v inItems (eachItem_iff.1 ascending v inItems) (held.2 mem) (by omega)
    rw [ofValue, value?, if_pos inner, values?_ofValues read]
    rfl
  | object members ih =>
    obtain ⟨same, others, rfl, held, perm⟩ := again.members
    have inner : 1 < room := Nat.lt_of_le_of_lt (Nat.le_add_left 1 _) fits
    have read : List.Forall₂ (fun n m => n.1 = m.1 ∧ value? (room - 1) (ofValue n.2) = some m.2)
        same members := by
      rw [List.forall₂_iff_zip] at held
      refine List.Forall₂.flip (List.forall₂_iff_zip.2 ⟨held.1, fun {m n} mem => ?_⟩)
      obtain ⟨inMembers, inSame⟩ := List.of_mem_zip mem
      obtain ⟨name, value⟩ := held.2 mem
      have := depth_ofValue_of_member (perm.mem_iff.1 inSame)
      exact ⟨name.symm, ih m inMembers (eachMember_iff.1 ascending.2 m inMembers) value (by omega)⟩
    obtain ⟨moved, readMoved, permMoved⟩ := List.perm_comp_forall₂ perm.symm read
    rw [ofValue, value?, if_pos inner, memberValues?_ofMemberValues readMoved, Option.map_some,
      ofMembers_of_perm ascending.1 permMoved]

mutual
/-- Every value that is read has its members in order. -/
theorem ascending_value? {room : Nat} (node : Node) {v : Json} (read : node.value? room = some v) :
    v.Each Ascending := by
  match node with
  | .null =>
    cases read
    trivial
  | .bool _ =>
    cases read
    trivial
  | .number _ =>
    obtain ⟨_, -, rfl⟩ := Option.map_eq_some_iff.1 read
    trivial
  | .string _ =>
    obtain ⟨_, -, rfl⟩ := Option.map_eq_some_iff.1 read
    trivial
  | .array items =>
    rw [value?] at read
    split at read
    · obtain ⟨values, inner, rfl⟩ := Option.map_eq_some_iff.1 read
      exact eachItem_iff.2 (ascending_values? items inner)
    · cases read
  | .object members =>
    rw [value?] at read
    split at read
    · obtain ⟨values, inner, rfl⟩ := Option.map_eq_some_iff.1 read
      refine ⟨ascending_placeAll values List.Pairwise.nil, eachMember_iff.2 fun m mem => ?_⟩
      exact ascending_memberValues? members inner m ((mem_placeAll mem).resolve_right nofun)
    · cases read

theorem ascending_values? {room : Nat} (items : List Node) {values : List Json}
    (read : values? room items = some values) : ∀ v ∈ values, v.Each Ascending := by
  match items with
  | [] =>
    cases read
    exact nofun
  | item :: rest =>
    simp only [values?, Option.bind_eq_bind, Option.bind_eq_some_iff] at read
    obtain ⟨value, first, others, later, same⟩ := read
    cases same
    exact List.forall_mem_cons.2 ⟨ascending_value? item first, ascending_values? rest later⟩

theorem ascending_memberValues? {room : Nat} (members : List (Option String × Node))
    {values : List (String × Json)} (read : memberValues? room members = some values) :
    ∀ m ∈ values, m.2.Each Ascending := by
  match members with
  | [] =>
    cases read
    exact nofun
  | (_, node) :: rest =>
    simp only [memberValues?, Option.bind_eq_bind, Option.bind_eq_some_iff] at read
    obtain ⟨name, -, value, first, others, later, same⟩ := read
    cases same
    exact List.forall_mem_cons.2 ⟨ascending_value? node first, ascending_memberValues? rest later⟩
end

/-- A value of free form is read as itself from all its rearrangements. -/
theorem anyValue?_rearranged {v w : Json} (ascending : v.Each Ascending)
    (again : v.Rearranged w) : anyValue? (ofValue w) = some v :=
  value?_rearranged ascending again (Nat.lt_succ_self _)

end Node

end SecureInbox.Json
