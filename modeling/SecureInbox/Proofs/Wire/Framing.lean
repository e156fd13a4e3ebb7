import SecureInbox.Proofs.Wire.Acceptance

/-! # Where the boxes are cut

The length of a metadata box has two bytes on the wire, and the box behind them is written
whole.  So a length that they have no room for wraps around, and the reader looks for the
nonce inside the metadata (`cut_toWire`).  Every message with a box in it is read, and it
comes back with the nonce and the box that it was written with just if the length of its
metadata has room (`fromWire_toWire_framed`). -/
set_option autoImplicit false

namespace SecureInbox.Boxed

/-- A message comes back with its ends, its identifier and its boxes; empty metadata come back
as none. -/
structure ReadAs (m r : Boxed) : Prop where
  sender : r.sender = m.sender
  receiver : r.receiver = m.receiver
  id : r.id = m.id
  metadata : r.metadata = if m.metadata = some [] then none else m.metadata
  nonce : r.nonce = m.nonce
  content : r.content = m.content

/-- A message whose nonce and box are cut out of its metadata: the nonce is 24 bytes of them,
and the box is the bytes of them that follow, then the nonce and the box that were written. -/
structure CutInside (m r : Boxed) (hidden : Bytes) : Prop where
  metadata : m.metadata.getD [] = r.metadata.getD [] ++ (r.nonce.bytes ++ hidden)
  content : r.content = hidden ++ (m.nonce.bytes ++ m.content)

@[simp] theorem getD_metadata_withBoxes (header : Boxed) (metadata : Bytes) (nonce : Block 24)
    (content : Bytes) : (header.withBoxes metadata nonce content).metadata.getD [] = metadata := by
  cases metadata <;> rfl

/-- The reader cuts the metadata where the length that was written says. -/
theorem fromWire_of_cut {m : Boxed} {metadata content : Bytes} {nonce : Block 24}
    (parts : m.metadata.getD [] ++ m.nonce.bytes ++ m.content =
      metadata ++ (nonce.bytes ++ content))
    (length : metadata.length = (m.metadata.getD []).length % UInt16.size)
    (present : content ≠ []) :
    fromWire m.toWire = .ok (m.afterHeader.withBoxes metadata nonce content) := by
  rw [fromWire, Reader.result_eq_ok]
  refine ⟨[], ?_⟩
  rw [reader_toWire, boxesReader_eq_ok]
  exact ⟨metadata, nonce, content, parts, length, present, rfl, rfl⟩

theorem readAs_of_short {m : Boxed} (present : m.content ≠ [])
    (short : (m.metadata.getD []).length < UInt16.size) :
    ∃ r, fromWire m.toWire = .ok r ∧ m.ReadAs r := by
  refine ⟨_, fromWire_of_cut (List.append_assoc ..) (Nat.mod_eq_of_lt short).symm present,
    rfl, rfl, rfl, ?_, rfl, rfl⟩
  show (if m.metadata.getD [] = [] then none else some (m.metadata.getD [])) = _
  rcases m with ⟨_, _, _, _, _, _, _ | metadata, _, _⟩
  · rfl
  · cases metadata <;> rfl

/-- Metadata whose length wraps around hold a nonce behind the length that is written. -/
theorem exists_cut {metadata : Bytes} (long : UInt16.size ≤ metadata.length) :
    ∃ (shown hidden : Bytes) (nonce : Block 24), metadata = shown ++ (nonce.bytes ++ hidden) ∧
      shown.length = metadata.length % UInt16.size := by
  have whole : UInt16.size + metadata.length % UInt16.size ≤ metadata.length := by
    simp only [UInt16.size] at long ⊢
    omega
  have room : 24 ≤ (metadata.drop (metadata.length % UInt16.size)).length := by
    rw [List.length_drop]
    simp only [UInt16.size] at whole ⊢
    omega
  obtain ⟨nonce, hidden, rest⟩ := Raw.exists_block room
  refine ⟨metadata.take (metadata.length % UInt16.size), hidden, nonce, ?_, ?_⟩
  · rw [← rest, List.take_append_drop]
  · exact List.length_take_of_le (Nat.mod_le _ _)

theorem cut_toWire {m : Boxed} (present : m.content ≠ [])
    (long : UInt16.size ≤ (m.metadata.getD []).length) :
    ∃ r hidden, fromWire m.toWire = .ok r ∧
      (r.sender = m.sender ∧ r.receiver = m.receiver ∧ r.id = m.id) ∧
      (r.metadata.getD []).length = (m.metadata.getD []).length % UInt16.size ∧
      m.CutInside r hidden := by
  obtain ⟨shown, hidden, nonce, parts, length⟩ := exists_cut long
  have tail : m.metadata.getD [] ++ m.nonce.bytes ++ m.content =
      shown ++ (nonce.bytes ++ (hidden ++ (m.nonce.bytes ++ m.content))) := by
    rw [parts]
    simp only [List.append_assoc]
  have some : hidden ++ (m.nonce.bytes ++ m.content) ≠ [] :=
    List.append_ne_nil_of_right_ne_nil _ (List.append_ne_nil_of_right_ne_nil _ present)
  refine ⟨_, hidden, fromWire_of_cut tail length some, ⟨rfl, rfl, rfl⟩, ?_, ?_, rfl⟩
  · rw [getD_metadata_withBoxes, length]
  · rw [getD_metadata_withBoxes, parts]
    rfl

/-- A box that is cut inside the metadata is longer than the box that was written. -/
theorem CutInside.not_readAs {m r : Boxed} {hidden : Bytes} (cut : m.CutInside r hidden) :
    ¬ m.ReadAs r := by
  intro same
  have longer := congrArg List.length cut.content
  rw [same.content, List.length_append, List.length_append, m.nonce.length_eq] at longer
  omega

/-- Every message with a box in it is read back under its ends and its identifier.  It keeps its
metadata, its nonce and its box just if the length of its metadata fits two bytes; beyond that
the metadata end after the rest of their length, the nonce is cut out of them, and the rest of
them stands before the nonce and the box that were written. -/
theorem fromWire_toWire_framed (m : Boxed) (present : m.content ≠ []) :
    ∃ r, fromWire m.toWire = .ok r ∧
      (r.sender = m.sender ∧ r.receiver = m.receiver ∧ r.id = m.id) ∧
      (m.ReadAs r ↔ (m.metadata.getD []).length < UInt16.size) ∧
      (UInt16.size ≤ (m.metadata.getD []).length →
        (r.metadata.getD []).length = (m.metadata.getD []).length % UInt16.size ∧
          ∃ hidden, m.CutInside r hidden) := by
  rcases Nat.lt_or_ge (m.metadata.getD []).length UInt16.size with short | long
  · obtain ⟨r, read, same⟩ := readAs_of_short present short
    exact ⟨r, read, ⟨same.sender, same.receiver, same.id⟩, ⟨fun _ => short, fun _ => same⟩,
      fun long => absurd short (Nat.not_lt_of_le long)⟩
  · obtain ⟨r, hidden, read, ends, length, cut⟩ := cut_toWire present long
    exact ⟨r, read, ends, ⟨fun same => (cut.not_readAs same).elim,
      fun short => absurd short (Nat.not_lt_of_le long)⟩, fun _ => ⟨length, hidden, cut⟩⟩

/-- A message whose metadata are two bytes longer than their length field counts. -/
def overlong : Boxed := { crowded with metadata := some (List.replicate (UInt16.size + 2) 0x4D) }

theorem fromWire_toWire_framed_overlong :
    overlong.content ≠ [] ∧ ∃ r, fromWire overlong.toWire = .ok r ∧ ¬ overlong.ReadAs r ∧
      (r.metadata.getD []).length = 2 ∧ ∃ hidden, overlong.CutInside r hidden := by
  have present : overlong.content ≠ [] := by decide
  have length : (overlong.metadata.getD []).length = UInt16.size + 2 := List.length_replicate
  obtain ⟨r, read, -, same, cut⟩ := fromWire_toWire_framed overlong present
  rw [length] at same cut
  obtain ⟨counted, hidden⟩ := cut (Nat.le_add_right _ _)
  exact ⟨present, r, read, fun kept => absurd (same.1 kept) (by decide), counted, hidden⟩

end SecureInbox.Boxed
