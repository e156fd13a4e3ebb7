import SecureInbox.Proofs.Wire.Reader

/-! # Envelopes read back

`Frame.reader_eq_ok` gives the octet strings that are read as a frame: the frame as it is
written, if its range is in order and its ciphertext is not empty, with anything behind it
unless the ciphertext takes the rest.  From it follows what becomes of an envelope that is
written and read, and how much of the bytes an accepted envelope accounts for
(`envelope_codec`). -/
set_option autoImplicit false

namespace SecureInbox

theorem Cause.ofByte?_eq_some {b : UInt8} {c : Cause} : ofByte? b = some c ↔ b = c.byte :=
  find?_byte_eq_some ofByte?_byte

theorem Agreement.ofByte?_eq_some {b : UInt8} {a : Agreement} : ofByte? b = some a ↔ b = a.byte :=
  find?_byte_eq_some ofByte?_byte

namespace Frame

def fault? : Frame → Option DecodeError
  | .init versions _ | .accept versions _ =>
      if versions.min ≤ versions.max then none
      else some (.invalidField (.invertedRange versions.min versions.max))
  | .encapsulated e =>
      if e.sealed.ciphertext = [] then some (.truncated "fs ciphertext" 1 0) else none
  | .reject .. | .terminate .. => none

theorem fault?_init {versions : VersionRange} {key : Key} :
    fault? (.init versions key) = none ↔ versions.min ≤ versions.max := by
  simp [fault?]

theorem fault?_accept {versions : VersionRange} {key : Key} :
    fault? (.accept versions key) = none ↔ versions.min ≤ versions.max := by
  simp [fault?]

theorem fault?_encapsulated {e : Encapsulated} :
    fault? (.encapsulated e) = none ↔ e.sealed.ciphertext ≠ [] := by
  simp [fault?]

variable {bytes rest : Bytes}

/-! ## The parts of a frame -/

def rangeBytes (versions : VersionRange) (key : Key) : Bytes :=
  bytes16 versions.min.code ++ bytes16 versions.max.code ++ key.bytes

theorem length_rangeBytes (versions : VersionRange) (key : Key) :
    (rangeBytes versions key).length = 36 := by
  simp [rangeBytes, bytes16]

theorem rangeReader_eq_ok {range : VersionRange × Key} :
    rangeReader bytes = .ok (range, rest) ↔
      range.1.min ≤ range.1.max ∧ bytes = rangeBytes range.1 range.2 ++ rest := by
  have order : range.1.min ≤ range.1.max ↔ ¬ range.1.max.code < range.1.min.code :=
    UInt16.not_lt.symm
  rw [order]
  simp only [rangeReader, Reader.bind_eq_ok, Reader.require_eq_ok, Reader.word16_eq_ok,
    Reader.ite_eq_ok, Reader.block_eq_ok, Reader.throw_eq_ok, Reader.pure_eq_ok, false_and,
    exists_false, and_false, false_or]
  constructor
  · rintro ⟨_, _, ⟨_, rfl⟩, min, _, rfl, max, _, rfl, ordered, key, _, rfl, rfl, rfl⟩
    exact ⟨ordered, by simp [rangeBytes]⟩
  · rintro ⟨ordered, rfl⟩
    refine ⟨(), _, ⟨?_, rfl⟩, _, _, ?_, _, _, rfl, ordered, _, _, rfl, rfl, rfl⟩
    · simp [length_rangeBytes]
    · simp [rangeBytes]

theorem rangeReader_inverted {versions : VersionRange} (inverted : ¬ versions.min ≤ versions.max)
    (key : Key) : rangeReader (rangeBytes versions key) =
      .error (.invalidField (.invertedRange versions.min versions.max)) := by
  have greater : versions.max.code < versions.min.code := UInt16.not_le.1 inverted
  have long : 36 ≤ (rangeBytes versions key).length :=
    Nat.le_of_eq (length_rangeBytes versions key).symm
  rw [rangeReader, Reader.bind_of_ok (Reader.require_of_le long), rangeBytes, List.append_assoc,
    Reader.bind_of_ok (Reader.word16_eq_ok.2 rfl), Reader.bind_of_ok (Reader.word16_eq_ok.2 rfl),
    if_pos greater]
  rfl

def flaggedGroup : Option GroupRef → Bytes
  | some g => 1 :: groupBytes g
  | none => [0]

theorem length_groupBytes (g : GroupRef) : (groupBytes g).length = 16 := by
  simp [groupBytes, Identity.length_bytes]

theorem length_flaggedGroup (g : Option GroupRef) : 1 ≤ (flaggedGroup g).length := by
  cases g <;> simp [flaggedGroup]

theorem groupReader_eq_ok {g : Option GroupRef} :
    groupReader bytes = .ok (g, rest) ↔ bytes = flaggedGroup g ++ rest := by
  simp only [groupReader, Reader.bind_eq_ok, Reader.byte_eq_ok, Reader.ite_eq_ok,
    Reader.require_eq_ok, Reader.group_eq_ok, Reader.throw_eq_ok, Reader.pure_eq_ok, and_false,
    or_false]
  constructor
  · rintro ⟨flag, mid, rfl, ⟨rfl, rfl, rfl⟩ | ⟨_, rfl, _, _, ⟨_, rfl⟩, g, _, rfl, rfl, rfl⟩⟩
    · rfl
    · rfl
  · rintro rfl
    cases g with
    | none => exact ⟨0, rest, rfl, .inl ⟨rfl, rfl, rfl⟩⟩
    | some g =>
      refine ⟨1, _, rfl, .inr ⟨by decide, rfl, (), _, ⟨?_, rfl⟩, g, _, rfl, rfl, rfl⟩⟩
      simp [length_groupBytes]

def sealedBytes (e : Encapsulated) : Bytes :=
  e.sealed.agreement.byte :: (bytes64 e.sealed.counter ++ bytes16 e.offered.code ++
    bytes16 e.applied.code ++ flaggedGroup e.group ++ e.sealed.ciphertext)

theorem fields_encapsulated (e : Encapsulated) : fields (.encapsulated e) = sealedBytes e := by
  obtain ⟨sealed, offered, applied, group⟩ := e
  cases group <;> rfl

theorem length_sealedBytes (e : Encapsulated) : 14 ≤ (sealedBytes e).length := by
  have flag := length_flaggedGroup e.group
  simp only [sealedBytes, bytes64, bytes16, List.length_cons, List.length_append,
    length_littleEndian]
  omega

theorem encapsulatedReader_eq_ok {e : Encapsulated} :
    encapsulatedReader bytes = .ok (e, rest) ↔
      e.sealed.ciphertext ≠ [] ∧ bytes = sealedBytes e ∧ rest = [] := by
  simp only [encapsulatedReader, Reader.bind_eq_ok, Reader.require_eq_ok, Reader.coded_eq_ok,
    Agreement.ofByte?_eq_some, Reader.word64_eq_ok, Reader.word16_eq_ok, groupReader_eq_ok,
    Reader.someRest_eq_ok, Reader.pure_eq_ok]
  constructor
  · rintro ⟨_, _, ⟨_, rfl⟩, agreement, _, ⟨_, rfl, rfl⟩, counter, _, rfl, offered, _, rfl,
      applied, _, rfl, g, _, rfl, ciphertext, _, ⟨rfl, some, rfl⟩, rfl, rfl⟩
    exact ⟨some, by simp [sealedBytes], rfl⟩
  · rintro ⟨some, rfl, rfl⟩
    refine ⟨(), _, ⟨length_sealedBytes e, rfl⟩, _, _, ⟨_, rfl, rfl⟩, _, _, ?_, _, _, rfl,
      _, _, rfl, _, _, rfl, _, _, ⟨rfl, some, rfl⟩, rfl, rfl⟩
    simp

theorem encapsulatedReader_empty {e : Encapsulated} (empty : e.sealed.ciphertext = []) :
    encapsulatedReader (sealedBytes e) = .error (.truncated "fs ciphertext" 1 0) := by
  have layout : sealedBytes e = e.sealed.agreement.byte :: (bytes64 e.sealed.counter ++
      (bytes16 e.offered.code ++ (bytes16 e.applied.code ++ (flaggedGroup e.group ++ [])))) := by
    simp [sealedBytes, empty]
  rw [encapsulatedReader, Reader.bind_of_ok (Reader.require_of_le (length_sealedBytes e)), layout,
    Reader.bind_of_ok (Reader.coded_eq_ok.2 ⟨_, Agreement.ofByte?_byte _, rfl⟩),
    Reader.bind_of_ok (Reader.word64_eq_ok.2 rfl), Reader.bind_of_ok (Reader.word16_eq_ok.2 rfl),
    Reader.bind_of_ok (Reader.word16_eq_ok.2 rfl), Reader.bind_of_ok (groupReader_eq_ok.2 rfl)]
  rfl

/-! ## The frame -/

theorem reader_eq_ok {f : Frame} :
    reader bytes = .ok (f, rest) ↔ f.fault? = none ∧ bytes = f.kindByte :: f.fields ++ rest ∧
      ∀ e, f = .encapsulated e → rest = [] := by
  simp only [reader, Reader.bind_eq_ok, Reader.byte_eq_ok, Reader.ite_eq_ok, Reader.require_eq_ok,
    Reader.throw_eq_ok, Reader.pure_eq_ok, rangeReader_eq_ok, encapsulatedReader_eq_ok,
    Reader.block_eq_ok, Reader.coded_eq_ok, Cause.ofByte?_eq_some, and_false, or_false]
  constructor
  -- One case for each kind byte, in the order in which they are tried.
  · rintro ⟨kind, _, rfl, ⟨rfl, range, _, ⟨ordered, rfl⟩, rfl, rfl⟩ |
      ⟨_, ⟨rfl, range, _, ⟨ordered, rfl⟩, rfl, rfl⟩ |
      ⟨_, ⟨rfl, _, _, ⟨_, rfl⟩, id, _, rfl, cause, _, ⟨_, rfl, rfl⟩, rfl, rfl⟩ |
      ⟨_, ⟨rfl, cause, _, ⟨_, rfl, rfl⟩, rfl, rfl⟩ | ⟨_, rfl, e, _, ⟨some, rfl, rfl⟩, rfl, rfl⟩⟩⟩⟩⟩
    · refine ⟨fault?_init.2 ordered, ?_, ?_⟩
      · simp [kindByte, fields, rangeBytes]
      · rintro e ⟨⟩
    · refine ⟨fault?_accept.2 ordered, ?_, ?_⟩
      · simp [kindByte, fields, rangeBytes]
      · rintro e ⟨⟩
    · refine ⟨rfl, ?_, ?_⟩
      · simp [kindByte, fields]
      · rintro e ⟨⟩
    · refine ⟨rfl, ?_, ?_⟩
      · simp [kindByte, fields]
      · rintro e ⟨⟩
    · refine ⟨fault?_encapsulated.2 some, ?_, fun _ _ => rfl⟩
      simp [kindByte, fields_encapsulated]
  · rintro ⟨sound, rfl, whole⟩
    cases f with
    | init versions key =>
      exact ⟨1, _, rfl, .inl ⟨rfl, (versions, key), rest, ⟨fault?_init.1 sound, rfl⟩, rfl, rfl⟩⟩
    | accept versions key =>
      exact ⟨2, _, rfl, .inr ⟨by decide, .inl ⟨rfl, (versions, key), rest,
        ⟨fault?_accept.1 sound, rfl⟩, rfl, rfl⟩⟩⟩
    | reject id cause =>
      refine ⟨3, _, rfl, .inr ⟨by decide, .inr ⟨by decide, .inl ⟨rfl, (), _, ⟨?_, rfl⟩, id, _, ?_,
        cause, rest, ⟨_, rfl, rfl⟩, rfl, rfl⟩⟩⟩⟩
      · simp [fields]
        omega
      · simp [fields]
    | terminate cause =>
      exact ⟨4, _, rfl, .inr ⟨by decide, .inr ⟨by decide, .inr ⟨by decide, .inl ⟨rfl, cause, rest,
        ⟨_, rfl, rfl⟩, rfl, rfl⟩⟩⟩⟩⟩
    | encapsulated e =>
      obtain rfl := whole e rfl
      refine ⟨5, _, rfl, .inr ⟨by decide, .inr ⟨by decide, .inr ⟨by decide, .inr ⟨by decide, rfl,
        e, [], ⟨fault?_encapsulated.1 sound, ?_, rfl⟩, rfl, rfl⟩⟩⟩⟩⟩
      simp [fields_encapsulated]

theorem reader_fault {f : Frame} {error : DecodeError} (fault : f.fault? = some error) :
    reader (f.kindByte :: f.fields) = .error error := by
  cases f with
  | init versions key =>
    obtain ⟨inverted, rfl⟩ : ¬ versions.min ≤ versions.max ∧ _ = error := by
      simpa [fault?] using fault
    show reader (1 :: rangeBytes versions key) = _
    rw [reader, Reader.bind_of_ok (Reader.byte_eq_ok.2 rfl), if_pos rfl]
    exact Reader.bind_of_error (rangeReader_inverted inverted key)
  | accept versions key =>
    obtain ⟨inverted, rfl⟩ : ¬ versions.min ≤ versions.max ∧ _ = error := by
      simpa [fault?] using fault
    show reader (2 :: rangeBytes versions key) = _
    rw [reader, Reader.bind_of_ok (Reader.byte_eq_ok.2 rfl), if_neg (by decide), if_pos rfl]
    exact Reader.bind_of_error (rangeReader_inverted inverted key)
  | encapsulated e =>
    obtain ⟨empty, rfl⟩ : e.sealed.ciphertext = [] ∧ _ = error := by simpa [fault?] using fault
    show reader (5 :: fields (.encapsulated e)) = _
    rw [fields_encapsulated, reader, Reader.bind_of_ok (Reader.byte_eq_ok.2 rfl),
      if_neg (by decide), if_neg (by decide), if_neg (by decide), if_neg (by decide), if_pos rfl]
    exact Reader.bind_of_error (encapsulatedReader_empty empty)
  | reject id cause => cases fault
  | terminate cause => cases fault

end Frame

namespace Envelope

theorem length_encode (e : Envelope) : e.encode.length = 17 + e.frame.fields.length := by
  simp only [encode, List.length_append, e.session.length_eq, List.length_cons]
  omega

theorem decode_eq_ok {bytes : Bytes} {e : Envelope} :
    decode bytes = .ok e ↔ e.frame.fault? = none ∧
      ∃ rest, bytes = e.encode ++ rest ∧ ∀ c, e.frame = .encapsulated c → rest = [] := by
  simp only [decode, Reader.result_eq_ok, reader, Reader.bind_eq_ok, Reader.require_eq_ok,
    Reader.block_eq_ok, Frame.reader_eq_ok, Reader.pure_eq_ok]
  constructor
  · rintro ⟨rest, _, _, ⟨_, rfl⟩, session, _, rfl, frame, _, ⟨sound, rfl, whole⟩, rfl, rfl⟩
    exact ⟨sound, _, by simp [encode], whole⟩
  · rintro ⟨sound, rest, rfl, whole⟩
    refine ⟨rest, (), _, ⟨?_, rfl⟩, e.session, _, ?_, e.frame, rest, ⟨sound, rfl, whole⟩, rfl, rfl⟩
    · rw [List.length_append, length_encode]
      omega
    · simp [encode]

theorem decode_fault {e : Envelope} {error : DecodeError} (fault : e.frame.fault? = some error) :
    decode e.encode = .error error := by
  have long : 17 ≤ e.encode.length := by
    rw [length_encode]
    omega
  have read : reader e.encode = .error error := by
    rw [reader, Reader.bind_of_ok (Reader.require_of_le long), encode,
      Reader.bind_of_ok (Reader.block_eq_ok.2 rfl)]
    exact Reader.bind_of_error (Frame.reader_fault fault)
  rw [decode, Reader.result, read]
  rfl

/-- An envelope that is written and read comes back, unless its range is inverted or its
ciphertext empty; and an envelope that is read accounts for the bytes from the front: for all
of them if it holds a ciphertext, otherwise for as many as its frame takes. -/
theorem envelope_codec :
    (∀ e : Envelope, decode e.encode =
      match e.frame.fault? with
      | some error => .error error
      | none => .ok e) ∧
    ∀ (bytes : Bytes) (e : Envelope), decode bytes = .ok e → e.encode <+: bytes ∧
      match e.frame with
      | .init .. => e.encode.length = 53
      | .accept .. => e.encode.length = 53
      | .reject .. => e.encode.length = 26
      | .terminate .. => e.encode.length = 18
      | .encapsulated .. => e.encode = bytes := by
  refine ⟨fun e => ?_, fun bytes e decoded => ?_⟩
  · cases fault : e.frame.fault? with
    | some error => exact decode_fault fault
    | none => exact decode_eq_ok.2 ⟨fault, [], (List.append_nil _).symm, fun _ _ => rfl⟩
  · obtain ⟨sound, rest, rfl, whole⟩ := decode_eq_ok.1 decoded
    refine ⟨List.prefix_append .., ?_⟩
    have length := e.length_encode
    cases frame : e.frame with
    | encapsulated c => rw [whole c frame, List.append_nil]
    | _ =>
      rw [frame] at length
      simpa [Frame.fields, bytes16] using length

def refusal : Envelope := ⟨Block.zero 16, .reject (Block.zero 8) .reset⟩

theorem envelope_codec_trailing :
    decode (refusal.encode ++ [5, 5]) = .ok refusal ∧ refusal.encode <+: refusal.encode ++ [5, 5] ∧
      refusal.encode.length = 26 :=
  have decoded : decode (refusal.encode ++ [5, 5]) = .ok refusal := rfl
  ⟨decoded, envelope_codec.2 _ _ decoded⟩

end Envelope

end SecureInbox
