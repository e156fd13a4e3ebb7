import Mathlib.Data.List.TakeWhile
import SecureInbox.Proofs.Wire.Boxed

/-! # Which bytes are a boxed message

Bytes of at least the length of a header are the parts of a header and what follows it
(`Raw.exists_bytes_eq`), and reading them goes by these parts (`fromWire_raw_eq_ok`).  A message
that was read has room on the wire for everything that it says (`Fits`), so it is written as
the bytes that it was read from, but for what the reader skips, and read from these once more
(`fromWire_toWire_eq`). -/
set_option autoImplicit false

namespace SecureInbox.Boxed

open Reader (toIdentity)

/-! ## Messages that fit -/

/-- A date and a name that are not cut in a header. -/
structure HeaderFits (date : Instant) (name : Option String) : Prop where
  date : ∃ seconds : UInt32, date = .ofSeconds seconds.toNat
  name : ∀ text, name = some text →
    text ≠ "" ∧ '\x00' ∉ text.toList ∧ (Text.utf8 text).length ≤ nameLength

/-- A message with nothing in it that is cut on the wire. -/
structure Fits (m : Boxed) : Prop where
  header : HeaderFits m.date m.name
  metadata : ∀ bytes, m.metadata = some bytes → bytes ≠ [] ∧ bytes.length < UInt16.size
  content : m.content ≠ []

theorem dateWord_ofSeconds (w : UInt32) : dateWord (.ofSeconds w.toNat) = w := by
  have small : min (UInt32.size - 1) w.toNat = w.toNat := by
    have bound := w.toNat_lt
    simp only [UInt32.size]
    omega
  show UInt32.ofNat (min (UInt32.size - 1) w.toNat) = w
  rw [small, UInt32.ofNat_toNat]

theorem wireDate_ofSeconds (w : UInt32) : wireDate (.ofSeconds w.toNat) = .ofSeconds w.toNat := by
  rw [← ofSeconds_dateWord, dateWord_ofSeconds]

/-- A text with room for it is its own longest start. -/
theorem fitting_of_fits {room : Nat} {text : String} (fits : (Text.utf8 text).length ≤ room) :
    fitting room text.toList = text.toList := by
  refine (isLongestFit_fitting room text.toList).unique
    ⟨List.prefix_rfl, by rwa [String.ofList_toList], fun other isStart _ => isStart.length_le⟩

theorem keptName_toList {text : String} (some : text ≠ "") (free : '\x00' ∉ text.toList) :
    keptName text.toList = .some text := by
  have whole : text.toList.takeWhile (· != '\x00') = text.toList :=
    List.takeWhile_eq_self_iff.2 fun c mem => bne_iff_ne.2 fun zero => free (zero ▸ mem)
  rw [keptName, whole]
  split
  · next none => exact absurd (String.toList_eq_nil_iff.1 none) some
  · rw [String.ofList_toList]

namespace Fits

theorem keptName_eq {m : Boxed} (fits : m.Fits) :
    keptName (fitting nameLength (m.name.getD "").toList) = m.name := by
  cases held : m.name with
  | none => rfl
  | some text =>
    obtain ⟨some, free, short⟩ := fits.header.name text held
    rw [Option.getD_some, fitting_of_fits short, keptName_toList some free]

theorem afterHeader_eq {m : Boxed} (fits : m.Fits) : m.afterHeader = m := by
  obtain ⟨seconds, date⟩ := fits.header.date
  rw [afterHeader, fits.keptName_eq, date, wireDate_ofSeconds, ← date]

/-- A message that fits is read back whole. -/
theorem fromWire_toWire_eq {m : Boxed} (fits : m.Fits) : fromWire m.toWire = .ok m := by
  have small : (m.metadata.getD []).length % UInt16.size = (m.metadata.getD []).length := by
    refine Nat.mod_eq_of_lt ?_
    cases held : m.metadata with
    | none => decide
    | some bytes => exact (fits.metadata bytes held).2
  have metadata : (if m.metadata.getD [] = [] then none else some (m.metadata.getD [])) =
      m.metadata := by
    cases held : m.metadata with
    | none => rfl
    | some bytes => exact if_neg (fits.metadata bytes held).1
  rw [fromWire, Reader.result, reader_toWire, small, boxesReader_written _ _ fits.content,
    fits.afterHeader_eq, metadata]
  rfl

end Fits

/-! ## The parts of a header -/

/-- The parts of a header as they stand on the wire, and what follows the header. -/
structure Raw where
  sender : Block 8
  receiver : Block 8
  id : Block 8
  date : Block 4
  flags : UInt8
  reserved : UInt8
  count : Block 2
  field : Block 32
  tail : Bytes

namespace Raw

def bytes (raw : Raw) : Bytes :=
  raw.sender.bytes ++ (raw.receiver.bytes ++ (raw.id.bytes ++ (raw.date.bytes ++
    raw.flags :: raw.reserved :: (raw.count.bytes ++ (raw.field.bytes ++ raw.tail)))))

theorem exists_block {n : Nat} {bytes : Bytes} (long : n ≤ bytes.length) :
    ∃ (b : Block n) (rest : Bytes), bytes = b.bytes ++ rest :=
  ⟨⟨bytes.take n, List.length_take_of_le long⟩, bytes.drop n, (List.take_append_drop n bytes).symm⟩

theorem exists_bytes_eq {w : Bytes} (long : headerLength ≤ w.length) :
    ∃ raw : Raw, raw.bytes = w := by
  rw [headerLength] at long
  obtain ⟨sender, w, rfl⟩ := exists_block (Nat.le_trans (by decide : 8 ≤ 64) long)
  simp only [List.length_append, Block.length_eq] at long
  obtain ⟨receiver, w, rfl⟩ := exists_block (show 8 ≤ w.length by omega)
  simp only [List.length_append, Block.length_eq] at long
  obtain ⟨id, w, rfl⟩ := exists_block (show 8 ≤ w.length by omega)
  simp only [List.length_append, Block.length_eq] at long
  obtain ⟨date, w, rfl⟩ := exists_block (show 4 ≤ w.length by omega)
  simp only [List.length_append, Block.length_eq] at long
  obtain ⟨flags, w, rfl⟩ := List.exists_cons_of_length_pos (show 0 < w.length by omega)
  simp only [List.length_cons] at long
  obtain ⟨reserved, w, rfl⟩ := List.exists_cons_of_length_pos (show 0 < w.length by omega)
  simp only [List.length_cons] at long
  obtain ⟨count, w, rfl⟩ := exists_block (show 2 ≤ w.length by omega)
  simp only [List.length_append, Block.length_eq] at long
  obtain ⟨field, w, rfl⟩ := exists_block (show 32 ≤ w.length by omega)
  exact ⟨⟨sender, receiver, id, date, flags, reserved, count, field, w⟩, rfl⟩

def header (raw : Raw) (sender receiver : Identity) (name : Option String) : Boxed where
  sender
  receiver
  id := raw.id
  date := .ofSeconds raw.date.toNat
  flags := ⟨raw.flags⟩
  name
  metadata := none
  nonce := .zero 24
  content := []

theorem length_bytes (raw : Raw) : raw.bytes.length = headerLength + raw.tail.length := by
  simp only [bytes, List.length_append, List.length_cons, Block.length_eq, headerLength]
  omega

end Raw

theorem fromWire_short {w : Bytes} (short : w.length < headerLength) :
    fromWire w = .error (.truncated "boxed message header" headerLength w.length) := by
  have failed : Reader.require headerLength "boxed message header" w =
      .error (.truncated "boxed message header" headerLength w.length) := if_pos short
  rw [fromWire, Reader.result, reader, Reader.bind_of_error failed]
  rfl

theorem identity_of_ok {what : String} {b : Block 8} {i : Identity}
    (read : toIdentity b.bytes = .ok i) (rest : Bytes) :
    Reader.identity what (b.bytes ++ rest) = .ok (i, rest) := by
  rw [Reader.identity_eq_ok, Reader.toIdentity_eq_ok.1 read]

theorem identity_of_error {what : String} {b : Block 8} {e : DecodeError}
    (failed : toIdentity b.bytes = .error e) (rest : Bytes) :
    Reader.identity what (b.bytes ++ rest) = .error e := by
  rw [Reader.identity, Reader.bind_of_ok (Reader.block_eq_ok.2 rfl), failed]
  rfl

theorem word16_block (what : String) (b : Block 2) (rest : Bytes) :
    Reader.word16 what (b.bytes ++ rest) = .ok (UInt16.ofNat b.toNat, rest) :=
  Reader.word16_eq_ok.2 (by rw [bytes16_ofNat])

theorem word32_block (what : String) (b : Block 4) (rest : Bytes) :
    Reader.word32 what (b.bytes ++ rest) = .ok (UInt32.ofNat b.toNat, rest) :=
  Reader.word32_eq_ok.2 (by rw [bytes32_ofNat])

/-- Only the identities, the name and the boxes can be wrong in bytes with room for a header. -/
theorem reader_raw (raw : Raw) : reader raw.bytes = (do
    let sender ← toIdentity raw.sender.bytes
    let receiver ← toIdentity raw.receiver.bytes
    let name ← nameOfField raw.field.bytes
    boxesReader (raw.header sender receiver name) raw.count.toNat raw.tail) := by
  have long : headerLength ≤ raw.bytes.length := by
    rw [raw.length_bytes]
    exact Nat.le_add_right _ _
  have seconds : (UInt32.ofNat raw.date.toNat).toNat = raw.date.toNat :=
    UInt32.toNat_ofNat_of_lt' raw.date.toNat_lt
  have count : (UInt16.ofNat raw.count.toNat).toNat = raw.count.toNat :=
    UInt16.toNat_ofNat_of_lt' raw.count.toNat_lt
  rw [reader, Reader.bind_of_ok (Reader.require_of_le long), Raw.bytes]
  cases sender : toIdentity raw.sender.bytes with
  | error e => exact Reader.bind_of_error (identity_of_error sender _)
  | ok i =>
    rw [Reader.bind_of_ok (identity_of_ok sender _)]
    cases receiver : toIdentity raw.receiver.bytes with
    | error e => exact Reader.bind_of_error (identity_of_error receiver _)
    | ok j =>
      have field : Reader.taken nameLength "name" (raw.field.bytes ++ raw.tail) =
          .ok (raw.field.bytes, raw.tail) := Reader.taken_eq_ok.2 ⟨rfl, raw.field.length_eq⟩
      rw [Reader.bind_of_ok (identity_of_ok receiver _),
        Reader.bind_of_ok (Reader.block_eq_ok.2 rfl), Reader.bind_of_ok (word32_block _ _ _),
        Reader.bind_of_ok (Reader.byte_eq_ok.2 rfl), Reader.bind_of_ok (Reader.byte_eq_ok.2 rfl),
        Reader.bind_of_ok (word16_block _ _ _), Reader.bind_of_ok field, seconds, count]
      cases nameOfField raw.field.bytes <;> rfl

/-! ## What is accepted -/

def announced (w : Bytes) : Nat := ofLittleEndian ((w.drop 30).take 2)

/-- The bytes of the name in a header: those before the first zero of its field. -/
def nameBytes (w : Bytes) : Bytes := ((w.drop 32).take nameLength).takeWhile (· != 0)

/-- Whether bytes are a header with identities and a name in it, with room behind it for the
metadata box, a nonce and a box of one byte at least. -/
structure IsReadable (w : Bytes) : Prop where
  header : headerLength ≤ w.length
  sender : ∃ i : Identity, i.bytes = w.take 8
  receiver : ∃ i : Identity, i.bytes = (w.drop 8).take 8
  name : ∃ text, Text.utf8 text = nameBytes w
  boxes : announced w + 25 ≤ w.length - headerLength

/-- Bytes without what a reader skips: the reserved byte and what stands behind the first zero
of the name field are zero. -/
def cleared (w : Bytes) : Bytes :=
  w.take 29 ++ [0] ++ (w.drop 30).take 2 ++
    (nameBytes w ++ List.replicate (nameLength - (nameBytes w).length) 0) ++ w.drop headerLength

namespace Raw

variable (raw : Raw)

theorem take_sender : raw.bytes.take 8 = raw.sender.bytes := by simp [bytes]

theorem take_receiver : (raw.bytes.drop 8).take 8 = raw.receiver.bytes := by simp [bytes]

/-- The bytes up to the reserved one. -/
theorem take_front : raw.bytes.take 29 =
    raw.sender.bytes ++ raw.receiver.bytes ++ raw.id.bytes ++ raw.date.bytes ++ [raw.flags] := by
  simp [bytes, List.take_append, List.take_of_length_le]

theorem drop_reserved : raw.bytes.drop 30 = raw.count.bytes ++ (raw.field.bytes ++ raw.tail) := by
  simp [bytes, List.drop_append, List.drop_of_length_le]

theorem drop_count : raw.bytes.drop 32 = raw.field.bytes ++ raw.tail := by
  have after : raw.bytes.drop 32 = (raw.bytes.drop 30).drop 2 := by rw [List.drop_drop]
  rw [after, drop_reserved, List.drop_left' raw.count.length_eq]

theorem drop_header : raw.bytes.drop headerLength = raw.tail := by
  have after : raw.bytes.drop 64 = (raw.bytes.drop 32).drop 32 := by rw [List.drop_drop]
  rw [headerLength, after, drop_count, List.drop_left' raw.field.length_eq]

theorem announced_bytes : announced raw.bytes = raw.count.toNat := by
  rw [announced, drop_reserved, List.take_left' raw.count.length_eq, Block.toNat]

theorem nameBytes_bytes : nameBytes raw.bytes = raw.field.bytes.takeWhile (· != 0) := by
  rw [nameBytes, nameLength, drop_count, List.take_left' raw.field.length_eq]

theorem cleared_bytes : cleared raw.bytes =
    raw.sender.bytes ++ raw.receiver.bytes ++ raw.id.bytes ++ raw.date.bytes ++ [raw.flags] ++
      [0] ++ raw.count.bytes ++ (nameBytes raw.bytes ++
        List.replicate (nameLength - (nameBytes raw.bytes).length) 0) ++ raw.tail := by
  rw [cleared, take_front, drop_reserved, List.take_left' raw.count.length_eq, drop_header]

end Raw

/-! ## Names and boxes -/

theorem toIdentity_eq_error {bytes : Bytes} {e : DecodeError}
    (failed : toIdentity bytes = .error e) :
    e = .invalidIdentity (Text.lossy bytes) ∧ ¬ ∃ i : Identity, i.bytes = bytes := by
  constructor
  · unfold toIdentity at failed
    split at failed
    · cases failed
    · exact (Except.error.inj failed).symm
  · rintro ⟨i, same⟩
    rw [Reader.toIdentity_eq_ok.2 same.symm] at failed
    cases failed

/-- A field is read as the text before its first zero, and as no name if that text is empty. -/
theorem nameOfField_eq_ok {field : Bytes} {name : Option String} :
    nameOfField field = .ok name ↔
      Text.utf8 (name.getD "") = field.takeWhile (· != 0) ∧ name ≠ some "" := by
  unfold nameOfField
  split
  · next none =>
    rw [none]
    constructor
    · rintro ⟨⟩
      exact ⟨rfl, nofun⟩
    · rintro ⟨empty, given⟩
      cases name with
      | none => rfl
      | some text =>
        have read := Text.ofUtf8?_utf8 text
        rw [show Text.utf8 text = Text.utf8 "" from empty, Text.ofUtf8?_utf8] at read
        exact absurd (read ▸ rfl) given
  · next some =>
    split
    · next text read =>
      constructor
      · rintro ⟨⟩
        refine ⟨Text.utf8_of_ofUtf8? read, ?_⟩
        rintro ⟨⟩
        exact some (Text.utf8_of_ofUtf8? read).symm
      · rintro ⟨same, -⟩
        cases name with
        | none => exact absurd same.symm some
        | some other =>
          rw [← same, Option.getD_some, Text.ofUtf8?_utf8] at read
          rw [Option.some.inj read]
    · next unread =>
      refine ⟨nofun, ?_⟩
      rintro ⟨same, -⟩
      rw [← same, Text.ofUtf8?_utf8] at unread
      cases unread

theorem nameOfField_eq_error {field : Bytes} {e : DecodeError}
    (failed : nameOfField field = .error e) :
    e = .invalidUtf8 "push from name" ∧ ¬ ∃ text, Text.utf8 text = field.takeWhile (· != 0) := by
  constructor
  · unfold nameOfField at failed
    split at failed
    · cases failed
    · split at failed
      · cases failed
      · exact (Except.error.inj failed).symm
  · rintro ⟨text, same⟩
    have read : nameOfField field = .ok (if text = "" then none else some text) := by
      rw [nameOfField_eq_ok, ← same]
      split
      · next empty => exact ⟨by rw [empty]; rfl, nofun⟩
      · next given => exact ⟨rfl, fun same => given (Option.some.inj same)⟩
    rw [read] at failed
    cases failed

def withBoxes (header : Boxed) (metadata : Bytes) (nonce : Block 24) (content : Bytes) : Boxed :=
  { header with
    metadata := if metadata = [] then none else some metadata
    nonce, content }

theorem boxesReader_eq_ok {header m : Boxed} {n : Nat} {tail left : Bytes} :
    boxesReader header n tail = .ok (m, left) ↔
      ∃ metadata nonce content, tail = metadata ++ (nonce.bytes ++ content) ∧
        metadata.length = n ∧ content ≠ [] ∧ m = header.withBoxes metadata nonce content ∧
          left = [] := by
  constructor
  · intro read
    simp only [boxesReader, Reader.bind_eq_ok, Reader.taken_eq_ok, Reader.block_eq_ok,
      Reader.someRest_eq_ok, Reader.pure_eq_ok] at read
    obtain ⟨metadata, _, ⟨rfl, length⟩, nonce, _, rfl, content, _, ⟨rfl, present, rfl⟩, rfl, rfl⟩ :=
      read
    refine ⟨metadata, nonce, _, rfl, length, present, ?_, rfl⟩
    cases metadata <;> rfl
  · rintro ⟨metadata, nonce, content, rfl, rfl, some, rfl, rfl⟩
    rw [← List.append_assoc]
    exact boxesReader_written header nonce some

/-- Boxes are refused where they end too early: in the metadata box, in the nonce, or before
the box. -/
theorem boxesReader_eq_error {header : Boxed} {n : Nat} {tail : Bytes} {e : DecodeError}
    (failed : boxesReader header n tail = .error e) :
    tail.length < n ∧ e = .truncated "metadata box" n tail.length ∨
      n ≤ tail.length ∧ tail.length < n + 24 ∧ e = .truncated "nonce" 24 (tail.length - n) ∨
      tail.length = n + 24 ∧ e = .truncated "box" 1 0 := by
  rcases Nat.lt_or_ge tail.length n with short | enough
  · have refused : Reader.taken n "metadata box" tail =
        .error (.truncated "metadata box" n tail.length) := if_pos short
    rw [boxesReader, Reader.bind_of_error refused] at failed
    exact .inl ⟨short, (Except.error.inj failed).symm⟩
  obtain ⟨metadata, rest, rfl, rfl⟩ : ∃ metadata rest,
      tail = metadata ++ rest ∧ metadata.length = n :=
    ⟨tail.take n, tail.drop n, (List.take_append_drop n tail).symm, List.length_take_of_le enough⟩
  rw [boxesReader, Reader.bind_of_ok (Reader.taken_eq_ok.2 ⟨rfl, rfl⟩)] at failed
  simp only [List.length_append]
  rcases Nat.lt_or_ge rest.length 24 with short | enough
  · have refused : Reader.block 24 "nonce" rest = .error (.truncated "nonce" 24 rest.length) :=
      dif_neg (Nat.not_le_of_lt short)
    rw [Reader.bind_of_error refused] at failed
    refine .inr (.inl ⟨by omega, by omega, ?_⟩)
    rw [Nat.add_sub_cancel_left]
    exact (Except.error.inj failed).symm
  obtain ⟨nonce, content, rfl⟩ := Raw.exists_block enough
  rw [Reader.bind_of_ok (Reader.block_eq_ok.2 rfl)] at failed
  refine .inr (.inr ?_)
  cases content with
  | nil => exact ⟨by simp, (Except.error.inj failed).symm⟩
  | cons b rest => cases failed

/-! ## Bytes as a boxed message -/

theorem raw_isReadable_iff {raw : Raw} : IsReadable raw.bytes ↔
    (∃ i : Identity, i.bytes = raw.sender.bytes) ∧ (∃ i : Identity, i.bytes = raw.receiver.bytes) ∧
      (∃ text, Text.utf8 text = raw.field.bytes.takeWhile (· != 0)) ∧
        raw.count.toNat + 25 ≤ raw.tail.length := by
  have tail : raw.bytes.length - headerLength = raw.tail.length := by
    rw [raw.length_bytes, Nat.add_sub_cancel_left]
  rw [← raw.take_sender, ← raw.take_receiver, ← raw.nameBytes_bytes, ← raw.announced_bytes, ← tail]
  constructor
  · rintro ⟨_, sender, receiver, name, boxes⟩
    exact ⟨sender, receiver, name, boxes⟩
  · rintro ⟨sender, receiver, name, boxes⟩
    exact ⟨by rw [raw.length_bytes]; exact Nat.le_add_right _ _, sender, receiver, name, boxes⟩

/-- What is wrong with bytes that are refused.  Bytes are missing only where a reader has asked
for them, which is before the header, the metadata box, the nonce and the box; of the fields
inside a header none ever ends too early. -/
inductive IsFault (w : Bytes) : DecodeError → Prop where
  | header (short : w.length < headerLength) :
      IsFault w (.truncated "boxed message header" headerLength w.length)
  | sender (bad : ¬ ∃ i : Identity, i.bytes = w.take 8) :
      IsFault w (.invalidIdentity (Text.lossy (w.take 8)))
  | receiver (bad : ¬ ∃ i : Identity, i.bytes = (w.drop 8).take 8) :
      IsFault w (.invalidIdentity (Text.lossy ((w.drop 8).take 8)))
  | name (bad : ¬ ∃ text, Text.utf8 text = nameBytes w) :
      IsFault w (.invalidUtf8 "push from name")
  | metadata (short : w.length - headerLength < announced w) :
      IsFault w (.truncated "metadata box" (announced w) (w.length - headerLength))
  | nonce (enough : announced w ≤ w.length - headerLength)
      (short : w.length - headerLength < announced w + 24) :
      IsFault w (.truncated "nonce" 24 (w.length - headerLength - announced w))
  | box (none : w.length - headerLength = announced w + 24) :
      IsFault w (.truncated "box" 1 0)

theorem isFault_of_error {w : Bytes} {e : DecodeError} (failed : fromWire w = .error e) :
    IsFault w e := by
  rcases Nat.lt_or_ge w.length headerLength with short | long
  · rw [fromWire_short short] at failed
    exact Except.error.inj failed ▸ .header short
  obtain ⟨raw, rfl⟩ := Raw.exists_bytes_eq long
  have tail : raw.bytes.length - headerLength = raw.tail.length := by
    rw [raw.length_bytes, Nat.add_sub_cancel_left]
  rw [fromWire, Reader.result_eq_error, reader_raw] at failed
  cases sender : toIdentity raw.sender.bytes with
  | error e' =>
    rw [sender] at failed
    obtain rfl : e' = e := Except.error.inj failed
    rw [← raw.take_sender] at sender
    obtain ⟨rfl, bad⟩ := toIdentity_eq_error sender
    exact .sender bad
  | ok i =>
  rw [sender] at failed
  cases receiver : toIdentity raw.receiver.bytes with
  | error e' =>
    rw [receiver] at failed
    obtain rfl : e' = e := Except.error.inj failed
    rw [← raw.take_receiver] at receiver
    obtain ⟨rfl, bad⟩ := toIdentity_eq_error receiver
    exact .receiver bad
  | ok j =>
  rw [receiver] at failed
  cases name : nameOfField raw.field.bytes with
  | error e' =>
    rw [name] at failed
    obtain rfl : e' = e := Except.error.inj failed
    obtain ⟨rfl, bad⟩ := nameOfField_eq_error name
    rw [← raw.nameBytes_bytes] at bad
    exact .name bad
  | ok given =>
  rw [name] at failed
  have faults := boxesReader_eq_error failed
  rw [← tail, ← raw.announced_bytes] at faults
  rcases faults with ⟨short, rfl⟩ | ⟨enough, short, rfl⟩ | ⟨none, rfl⟩
  · exact .metadata short
  · exact .nonce enough short
  · exact .box none

/-- A message is read from the parts of a header if each of its parts is. -/
theorem fromWire_raw_eq_ok {raw : Raw} {m : Boxed} : fromWire raw.bytes = .ok m ↔
    ∃ sender receiver name metadata nonce content,
      raw.sender.bytes = sender.bytes ∧ raw.receiver.bytes = receiver.bytes ∧
      (Text.utf8 (name.getD "") = raw.field.bytes.takeWhile (· != 0) ∧ name ≠ some "") ∧
      (raw.tail = metadata ++ (nonce.bytes ++ content) ∧ metadata.length = raw.count.toNat ∧
        content ≠ []) ∧
      m = (raw.header sender receiver name).withBoxes metadata nonce content := by
  rw [fromWire, Reader.result_eq_ok, reader_raw]
  constructor
  · rintro ⟨left, read⟩
    cases sender : toIdentity raw.sender.bytes with
    | error e => rw [sender] at read; cases read
    | ok i =>
    cases receiver : toIdentity raw.receiver.bytes with
    | error e => rw [sender, receiver] at read; cases read
    | ok j =>
    cases name : nameOfField raw.field.bytes with
    | error e => rw [sender, receiver, name] at read; cases read
    | ok given =>
    rw [sender, receiver, name] at read
    obtain ⟨metadata, nonce, content, parts, length, some, made, -⟩ := boxesReader_eq_ok.1 read
    exact ⟨i, j, given, metadata, nonce, content, Reader.toIdentity_eq_ok.1 sender,
      Reader.toIdentity_eq_ok.1 receiver, nameOfField_eq_ok.1 name, ⟨parts, length, some⟩, made⟩
  · rintro ⟨i, j, given, metadata, nonce, content, sender, receiver, name,
      ⟨parts, length, some⟩, rfl⟩
    rw [Reader.toIdentity_eq_ok.2 sender, Reader.toIdentity_eq_ok.2 receiver,
      nameOfField_eq_ok.2 name]
    exact ⟨[], boxesReader_eq_ok.2 ⟨metadata, nonce, content, parts, length, some, rfl, rfl⟩⟩

theorem isReadable_iff {w : Bytes} : (∃ m, fromWire w = .ok m) ↔ IsReadable w := by
  rcases Nat.lt_or_ge w.length headerLength with short | long
  · rw [fromWire_short short]
    constructor
    · rintro ⟨_, ⟨⟩⟩
    · exact fun readable => absurd readable.header (Nat.not_le_of_lt short)
  obtain ⟨raw, rfl⟩ := Raw.exists_bytes_eq long
  rw [raw_isReadable_iff]
  constructor
  · rintro ⟨m, read⟩
    obtain ⟨i, j, given, metadata, nonce, content, sender, receiver, ⟨name, -⟩,
      ⟨parts, length, some⟩, -⟩ := fromWire_raw_eq_ok.1 read
    refine ⟨⟨i, sender.symm⟩, ⟨j, receiver.symm⟩, ⟨_, name⟩, ?_⟩
    have positive := List.length_pos_iff.2 some
    rw [parts, List.length_append, List.length_append, nonce.length_eq]
    omega
  · rintro ⟨⟨i, sender⟩, ⟨j, receiver⟩, ⟨text, name⟩, boxes⟩
    obtain ⟨given, named⟩ : ∃ given : Option String,
        Text.utf8 (given.getD "") = raw.field.bytes.takeWhile (· != 0) ∧ given ≠ some "" := by
      by_cases empty : text = ""
      · exact ⟨none, by rw [← name, empty]; rfl, nofun⟩
      · exact ⟨some text, name, fun same => empty (Option.some.inj same)⟩
    obtain ⟨nonce, content, rest⟩ := Raw.exists_block
      (show 24 ≤ (raw.tail.drop raw.count.toNat).length by rw [List.length_drop]; omega)
    have parts : raw.tail = raw.tail.take raw.count.toNat ++ (nonce.bytes ++ content) := by
      rw [← rest, List.take_append_drop]
    have some : content ≠ [] := by
      rintro rfl
      have lengths := congrArg List.length rest
      rw [List.length_drop, List.append_nil, nonce.length_eq] at lengths
      omega
    have length : (raw.tail.take raw.count.toNat).length = raw.count.toNat :=
      List.length_take_of_le (by omega)
    exact ⟨_, fromWire_raw_eq_ok.2 ⟨i, j, given, _, nonce, content, sender.symm, receiver.symm,
      named, ⟨parts, length, some⟩, rfl⟩⟩

/-! ## What is written of it -/

theorem free_of_utf8_eq_takeWhile {text : String} {field : Bytes}
    (same : Text.utf8 text = field.takeWhile (· != 0)) : '\x00' ∉ text.toList := by
  intro mem
  have zero : (0 : UInt8) ∈ Text.utf8 text := by
    rw [Text.utf8_eq_flatMap]
    exact List.mem_flatMap.2 ⟨_, mem, by decide⟩
  rw [same] at zero
  exact absurd (List.mem_takeWhile_imp zero) (by decide)

/-- What was read has room on the wire. -/
theorem fits_of_fromWire {w : Bytes} {m : Boxed} (read : fromWire w = .ok m) : m.Fits := by
  obtain ⟨raw, rfl⟩ := Raw.exists_bytes_eq (isReadable_iff.1 ⟨m, read⟩).header
  obtain ⟨i, j, given, metadata, nonce, content, -, -, ⟨name, notEmpty⟩, ⟨-, length, present⟩,
    rfl⟩ := fromWire_raw_eq_ok.1 read
  refine {
    header := ⟨⟨UInt32.ofNat raw.date.toNat, ?_⟩, ?_⟩
    metadata := ?_
    content := present }
  · rw [UInt32.toNat_ofNat_of_lt' raw.date.toNat_lt]
    rfl
  · intro text held
    obtain rfl : given = some text := held
    refine ⟨fun empty => notEmpty (empty ▸ rfl), free_of_utf8_eq_takeWhile name, ?_⟩
    rw [show Text.utf8 text = _ from name]
    exact Nat.le_trans (List.takeWhile_sublist _).length_le (Nat.le_of_eq raw.field.length_eq)
  · intro bytes held
    have held : (if metadata = [] then none else some metadata) = some bytes := held
    split at held
    · cases held
    · next given =>
      obtain rfl := Option.some.inj held
      exact ⟨given, length ▸ raw.count.toNat_lt⟩

theorem nameField_of_fits {name : Option String}
    (fits : (Text.utf8 (name.getD "")).length ≤ nameLength) : nameField name =
      Text.utf8 (name.getD "") ++
        List.replicate (nameLength - (Text.utf8 (name.getD "")).length) 0 := by
  rw [nameField, fitting_of_fits fits, ← Text.utf8_eq_flatMap]

/-- What was read is written as the bytes that it was read from, but for what is skipped. -/
theorem toWire_of_fromWire {w : Bytes} {m : Boxed} (read : fromWire w = .ok m) :
    m.toWire = cleared w := by
  obtain ⟨raw, rfl⟩ := Raw.exists_bytes_eq (isReadable_iff.1 ⟨m, read⟩).header
  obtain ⟨i, j, given, metadata, nonce, content, sender, receiver, ⟨name, -⟩, ⟨parts, length, -⟩,
    rfl⟩ := fromWire_raw_eq_ok.1 read
  have date : dateWord (.ofSeconds raw.date.toNat) = UInt32.ofNat raw.date.toNat := by
    have same := dateWord_ofSeconds (UInt32.ofNat raw.date.toNat)
    rwa [UInt32.toNat_ofNat_of_lt' raw.date.toNat_lt] at same
  have kept : (if metadata = [] then none else some metadata).getD [] = metadata := by
    split
    · next empty => exact empty.symm
    · rfl
  have field : nameField given = nameBytes raw.bytes ++
      List.replicate (nameLength - (nameBytes raw.bytes).length) 0 := by
    have short : (Text.utf8 (given.getD "")).length ≤ nameLength := by
      rw [name]
      exact Nat.le_trans (List.takeWhile_sublist _).length_le (Nat.le_of_eq raw.field.length_eq)
    rw [nameField_of_fits short, name, raw.nameBytes_bytes]
  rw [toWire, withBoxes, Raw.header, kept, field, date, bytes32_ofNat, length, bytes16_ofNat,
    raw.cleared_bytes, ← sender, ← receiver, parts]
  simp only [List.append_assoc, List.cons_append, List.nil_append]

/-- Bytes are read just if they are a header with room for its boxes behind it, and are refused
for what is wrong with them otherwise; what is read from them is written as the same bytes
without what is skipped, and these are read as the same message. -/
theorem fromWire_canonical (w : Bytes) :
    ((∃ m, fromWire w = .ok m) ↔ IsReadable w) ∧
      (∀ e, fromWire w = .error e → IsFault w e) ∧
      ∀ m, fromWire w = .ok m → m.toWire = cleared w ∧ fromWire m.toWire = .ok m :=
  ⟨isReadable_iff, fun _ failed => isFault_of_error failed,
    fun _ read => ⟨toWire_of_fromWire read, (fits_of_fromWire read).fromWire_toWire_eq⟩⟩

/-- A message of one byte, with metadata of one byte, a reserved byte that is not zero and more
than zeros behind the name. -/
def stained : Bytes :=
  List.replicate 8 0x43 ++ List.replicate 8 0x44 ++ List.replicate 8 7 ++
    [0, 0, 0, 1, 1, 0xFF, 1, 0] ++ ([0x41, 0] ++ List.replicate 30 0xEE) ++ [5] ++
    List.replicate 24 9 ++ [1]

theorem fromWire_canonical_stained : cleared stained ≠ stained ∧
    ∃ m, fromWire stained = .ok m ∧ m.toWire = cleared stained ∧ fromWire m.toWire = .ok m := by
  have readable : IsReadable stained := {
    header := by decide
    sender := ⟨crowded.sender, by decide⟩
    receiver := ⟨crowded.receiver, by decide⟩
    name := ⟨"A", by decide⟩
    boxes := by decide }
  obtain ⟨accepted, -, written⟩ := fromWire_canonical stained
  obtain ⟨m, read⟩ := accepted.2 readable
  exact ⟨by decide, m, read, written m read⟩

end SecureInbox.Boxed
