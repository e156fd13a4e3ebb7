import SecureInbox.Proofs.Wire.Reader
import SecureInbox.Wire.Boxed

/-! # Boxed messages read back

The header of a boxed message has room for 32 bytes of the sender's name and for a date in
seconds from 1970 to 2106.  A name field holds the longest start of the name that fits
(`isLongestFit_fitting`) and is read up to its first zero (`nameOfField_nameField`).  So the
header always comes back in a form that is known beforehand (`reader_toWire`), and a message
with a box in it comes back whole, apart from its name and its date
(`fromWire_toWire`). -/
set_option autoImplicit false

namespace SecureInbox.Boxed

/-! ## The name field -/

/-- The longest start of a text that takes at most `room` bytes. -/
structure IsLongestFit (room : Nat) (text start : List Char) : Prop where
  isStart : start <+: text
  fits : (Text.utf8 (String.ofList start)).length ≤ room
  longest : ∀ other, other <+: text → (Text.utf8 (String.ofList other)).length ≤ room →
    other.length ≤ start.length

theorem IsLongestFit.unique {room : Nat} {text first second : List Char}
    (one : IsLongestFit room text first) (two : IsLongestFit room text second) :
    first = second := by
  have same : first.length = second.length := Nat.le_antisymm
    (two.longest first one.isStart one.fits) (one.longest second two.isStart two.fits)
  have reaches : first <+: second :=
    List.prefix_of_prefix_length_le one.isStart two.isStart (Nat.le_of_eq same)
  exact reaches.eq_of_length same

theorem length_utf8_cons (c : Char) (cs : List Char) :
    (Text.utf8 (String.ofList (c :: cs))).length =
      c.utf8Size + (Text.utf8 (String.ofList cs)).length := by
  rw [Text.utf8_ofList, Text.utf8_ofList, List.flatMap_cons, List.length_append,
    String.length_utf8EncodeChar]

theorem isLongestFit_fitting (room : Nat) (text : List Char) :
    IsLongestFit room text (fitting room text) := by
  induction text generalizing room with
  | nil =>
    refine ⟨List.nil_prefix, Nat.zero_le _, fun other isStart _ => ?_⟩
    rw [List.prefix_nil.1 isStart]
    exact Nat.zero_le _
  | cons c rest ih =>
    by_cases fits : c.utf8Size ≤ room
    · obtain ⟨isStart, small, longest⟩ := ih (room - c.utf8Size)
      simp only [fitting, if_pos fits]
      refine ⟨(List.prefix_cons_inj c).2 isStart, ?_, fun other isStart brief => ?_⟩
      · rw [length_utf8_cons]
        omega
      · cases other with
        | nil => exact Nat.zero_le _
        | cons d more =>
          obtain ⟨rfl, goesOn⟩ := List.cons_prefix_cons.1 isStart
          rw [length_utf8_cons] at brief
          exact Nat.succ_le_succ (longest more goesOn (by omega))
    · simp only [fitting, if_neg fits]
      refine ⟨List.nil_prefix, Nat.zero_le _, fun other isStart small => ?_⟩
      cases other with
      | nil => exact Nat.zero_le _
      | cons d more =>
        obtain ⟨rfl, _⟩ := List.cons_prefix_cons.1 isStart
        rw [length_utf8_cons] at small
        omega

/-- What comes back of the start of a name: as much as stands before its first zero, if
there is any of it. -/
def keptName (start : List Char) : Option String :=
  match start.takeWhile (· != '\x00') with
  | [] => none
  | kept => some (String.ofList kept)

theorem nonzero_of_mem_utf8EncodeChar {c : Char} (nonzero : c ≠ '\x00') {b : UInt8}
    (mem : b ∈ String.utf8EncodeChar c) : b ≠ 0 := by
  rintro rfl
  by_cases ascii : c.toNat < 128
  · rw [Text.utf8EncodeChar_ascii ascii, List.mem_singleton] at mem
    have value : (UInt8.ofNat c.toNat).toNat = c.toNat :=
      UInt8.toNat_ofNat_of_lt' (Nat.lt_trans ascii (by decide))
    rw [← mem] at value
    exact nonzero (Char.toNat_inj.1 value.symm)
  · have high := Text.high_of_mem_utf8EncodeChar (Nat.le_of_not_lt ascii) mem
    exact absurd high (by decide)

/-- A zero byte before the padding is a zero character of the name. -/
theorem takeWhile_field (start : List Char) (zeros : Nat) :
    (start.flatMap String.utf8EncodeChar ++ List.replicate zeros 0).takeWhile (· != 0) =
      (start.takeWhile (· != '\x00')).flatMap String.utf8EncodeChar := by
  induction start with
  | nil => cases zeros <;> simp [List.replicate_succ]
  | cons c rest ih =>
    by_cases zero : c = '\x00'
    · subst zero
      rfl
    · have nonzero : ∀ b ∈ String.utf8EncodeChar c, (b != 0) = true := fun b mem =>
        bne_iff_ne.2 (nonzero_of_mem_utf8EncodeChar zero mem)
      have kept : (c :: rest).takeWhile (· != '\x00') = c :: rest.takeWhile (· != '\x00') :=
        List.takeWhile_cons_of_pos (p := (· != '\x00')) (bne_iff_ne.2 zero)
      rw [kept, List.flatMap_cons, List.append_assoc, List.takeWhile_append_of_pos nonzero, ih,
        List.flatMap_cons]

theorem nameOfField_nameField (name : Option String) :
    nameOfField (nameField name) =
      .ok (keptName (fitting nameLength (name.getD "").toList)) := by
  unfold nameOfField nameField keptName
  rw [takeWhile_field, ← Text.utf8_ofList]
  cases (fitting nameLength (name.getD "").toList).takeWhile (· != '\x00') with
  | nil => rfl
  | cons c rest =>
    have some : Text.utf8 (String.ofList (c :: rest)) ≠ [] := by
      rw [Text.utf8_ofList, List.flatMap_cons]
      exact List.append_ne_nil_of_left_ne_nil String.utf8EncodeChar_ne_nil _
    split
    · contradiction
    · rw [Text.ofUtf8?_utf8]

theorem length_nameField (name : Option String) : (nameField name).length = nameLength := by
  obtain ⟨_, fits, _⟩ := isLongestFit_fitting nameLength (name.getD "").toList
  rw [Text.utf8_ofList] at fits
  simp only [nameField, List.length_append, List.length_replicate]
  omega

/-! ## The header -/

/-- A date in whole seconds, moved to the nearest second that the wire can carry. -/
def wireDate (date : Instant) : Instant := .ofSeconds (max 0 (min date.seconds (UInt32.size - 1)))

theorem ofSeconds_dateWord (date : Instant) :
    Instant.ofSeconds (dateWord date).toNat = wireDate date := by
  have small : min (UInt32.size - 1) date.seconds.toNat < UInt32.size := by
    simp only [UInt32.size]
    omega
  have value : (dateWord date).toNat = min (UInt32.size - 1) date.seconds.toNat :=
    UInt32.toNat_ofNat_of_lt' small
  rw [wireDate, value]
  congr 1
  simp only [UInt32.size]
  omega

def afterHeader (m : Boxed) : Boxed :=
  { m with
    date := wireDate m.date
    name := keptName (fitting nameLength (m.name.getD "").toList) }

def boxesReader (header : Boxed) (metadataLength : Nat) : Reader Boxed := do
  let metadata ← Reader.taken metadataLength "metadata box"
  let nonce ← Reader.block 24 "nonce"
  let content ← Reader.someRest "box"
  return { header with
    metadata := if metadata.isEmpty then none else some metadata
    nonce, content }

theorem reader_toWire (m : Boxed) :
    reader m.toWire = boxesReader m.afterHeader ((m.metadata.getD []).length % UInt16.size)
      (m.metadata.getD [] ++ m.nonce.bytes ++ m.content) := by
  have layout : m.toWire = m.sender.bytes ++ (m.receiver.bytes ++ (m.id.bytes ++
      (bytes32 (dateWord m.date) ++ (m.flags.bits :: 0 ::
        (bytes16 (UInt16.ofNat (m.metadata.getD []).length) ++ (nameField m.name ++
          (m.metadata.getD [] ++ m.nonce.bytes ++ m.content))))))) := by
    simp [toWire]
  have long : headerLength ≤ m.toWire.length := by
    rw [layout]
    simp [headerLength, Identity.length_bytes, bytes32, bytes16, length_nameField, nameLength]
    omega
  rw [reader, Reader.bind_of_ok (Reader.require_of_le long), layout,
    Reader.bind_of_ok (Reader.identity_eq_ok.2 rfl),
    Reader.bind_of_ok (Reader.identity_eq_ok.2 rfl),
    Reader.bind_of_ok (Reader.block_eq_ok.2 rfl), Reader.bind_of_ok (Reader.word32_eq_ok.2 rfl),
    Reader.bind_of_ok (Reader.byte_eq_ok.2 rfl), Reader.bind_of_ok (Reader.byte_eq_ok.2 rfl),
    Reader.bind_of_ok (Reader.word16_eq_ok.2 rfl),
    Reader.bind_of_ok (Reader.taken_eq_ok.2 ⟨rfl, length_nameField m.name⟩),
    nameOfField_nameField, Reader.bind_of_ok (Reader.lift_eq_ok.2 ⟨rfl, rfl⟩), ofSeconds_dateWord]
  rfl

/-! ## The boxes -/

theorem boxesReader_written (header : Boxed) {metadata content : Bytes} (nonce : Block 24)
    (some : content ≠ []) :
    boxesReader header metadata.length (metadata ++ nonce.bytes ++ content) = .ok ({ header with
      metadata := if metadata = [] then none else .some metadata
      nonce, content }, []) := by
  rw [boxesReader, List.append_assoc, Reader.bind_of_ok (Reader.taken_eq_ok.2 ⟨rfl, rfl⟩),
    Reader.bind_of_ok (Reader.block_eq_ok.2 rfl),
    Reader.bind_of_ok (Reader.someRest_eq_ok.2 ⟨rfl, some, rfl⟩)]
  cases metadata <;> rfl

/-- With enough bytes for the metadata and the nonce, only the box can be missing. -/
theorem boxesReader_error (header : Boxed) {n : Nat} {bytes : Bytes} {e : DecodeError}
    (long : n + 24 ≤ bytes.length) (failed : boxesReader header n bytes = .error e) :
    e = .truncated "box" 1 0 := by
  obtain ⟨metadata, nonce, content, rfl, taken⟩ :
      ∃ (metadata : Bytes) (nonce : Block 24) (content : Bytes),
        bytes = metadata ++ (nonce.bytes ++ content) ∧ metadata.length = n := by
    have nonce : ((bytes.drop n).take 24).length = 24 := by
      rw [List.length_take, List.length_drop]
      omega
    refine ⟨bytes.take n, ⟨(bytes.drop n).take 24, nonce⟩, (bytes.drop n).drop 24, ?_, ?_⟩
    · rw [List.take_append_drop, List.take_append_drop]
    · rw [List.length_take]
      omega
  rw [boxesReader, Reader.bind_of_ok (Reader.taken_eq_ok.2 ⟨rfl, taken⟩),
    Reader.bind_of_ok (Reader.block_eq_ok.2 rfl)] at failed
  cases content with
  | nil => exact (Except.error.inj failed).symm
  | cons b rest => cases failed

/-- What is written is refused only for an empty box, and never for a name.  With a box, and
metadata whose length fits its field, the message comes back with its date in whole seconds
from 0 to the largest word, the longest start of its name that fits 32 bytes, cut at the first
zero, and no metadata for empty metadata. -/
theorem fromWire_toWire (m : Boxed) :
    (∀ e, fromWire m.toWire = .error e → e = .truncated "box" 1 0) ∧
    (m.content ≠ [] → (m.metadata.getD []).length ≤ 65535 →
      ∃ start, IsLongestFit 32 (m.name.getD "").toList start ∧
        fromWire m.toWire = .ok { m with
          date := .ofSeconds (max 0 (min m.date.seconds (UInt32.size - 1)))
          name := keptName start
          metadata := if m.metadata = some [] then none else m.metadata }) := by
  constructor
  · intro e failed
    have long : (m.metadata.getD []).length % UInt16.size + 24 ≤
        (m.metadata.getD [] ++ m.nonce.bytes ++ m.content).length := by
      have part := Nat.mod_le (m.metadata.getD []).length UInt16.size
      simp only [List.length_append, m.nonce.length_eq]
      omega
    rw [fromWire, Reader.result_eq_error, reader_toWire] at failed
    exact boxesReader_error _ long failed
  · intro some short
    refine ⟨_, isLongestFit_fitting .., ?_⟩
    have whole : (m.metadata.getD []).length % UInt16.size = (m.metadata.getD []).length :=
      Nat.mod_eq_of_lt (Nat.lt_succ_of_le short)
    rw [fromWire, Reader.result, reader_toWire, whole, boxesReader_written _ _ some]
    rcases m with ⟨_, _, _, _, _, _, _ | metadata, _, _⟩
    · rfl
    · cases metadata <;> rfl

/-- Half a second before 1970, with a zero in a name that is cut between two bytes. -/
def crowded : Boxed where
  sender := ⟨Block.ofBytes 8 (List.replicate 8 0x43), by decide⟩
  receiver := ⟨Block.ofBytes 8 (List.replicate 8 0x44), by decide⟩
  id := Block.zero 8
  date := ⟨-1, 500000000⟩
  flags := ⟨0⟩
  name := some (String.ofList ('A' :: 'B' :: '\x00' :: List.replicate 20 '\u00e9'))
  metadata := some []
  nonce := Block.zero 24
  content := [1]

theorem fromWire_toWire_crowded :
    crowded.content ≠ [] ∧ (crowded.metadata.getD []).length ≤ 65535 ∧
      ∃ start, IsLongestFit 32 (crowded.name.getD "").toList start ∧
        fromWire crowded.toWire = .ok { crowded with
          date := .ofSeconds 0
          name := keptName start
          metadata := none } :=
  have some : crowded.content ≠ [] := by decide
  have short : (crowded.metadata.getD []).length ≤ 65535 := by decide
  ⟨some, short, (fromWire_toWire crowded).2 some short⟩

end SecureInbox.Boxed
