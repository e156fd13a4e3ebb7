import SecureInbox.Proofs.Instant.Text
import SecureInbox.Proofs.Json.Line
import SecureInbox.Proofs.Message.Call
import SecureInbox.Proofs.Text.Lines
import SecureInbox.Rejection.Record

/-! # Records read back

A record is written as an object of nine members on one line.  Its line is read as the record
again, as long as its time is one that can be read (`ofNode?_toJson`), and so a file of such
lines is read as its records (`ofFile_lines`).  The text under the hash of a record tells every
other field of it (`hashed_inj`). -/
set_option autoImplicit false

namespace SecureInbox

open Json (Node)
open Json.Node (Slot slot)

/-! ## Fields -/

theorem ReadsBack.inj {α : Type} {write : α → Json} {read : Node → Option α}
    (back : ReadsBack write read) {a b : α}
    (same : Node.ofValue (write a) = Node.ofValue (write b)) : a = b := by
  have held := back.same a
  rw [same, back.same b] at held
  exact (Option.some.inj held).symm

namespace Record

theorem isWhole_orNull {α : Type} {write : α → Json} (whole : ∀ a, (write a).IsWhole)
    (value : Option α) : (Json.orNull write value).IsWhole := by
  cases value with
  | none => trivial
  | some a => exact whole a

theorem optional_orNull {α : Type} {write : α → Json} {read : Node → Option α}
    (back : ReadsBack write read) (absent : read .null = none) (value : Option α) :
    (slot (some (Json.orNull write value))).optional read = some value := by
  cases value with
  | none => rfl
  | some a => exact Json.Node.lenient_slot back.same absent (some a)

theorem orNull_inj {α : Type} {write : α → Json} {read : Node → Option α}
    (back : ReadsBack write read) (absent : read .null = none) {a b : Option α}
    (same : Node.ofValue (Json.orNull write a) = Node.ofValue (Json.orNull write b)) : a = b := by
  have held := optional_orNull back absent a
  rw [slot, same] at held
  exact Option.some.inj (held.symm.trans (optional_orNull back absent b))

theorem readsBack_word64 : ReadsBack (fun w : UInt64 => Json.ofNat w.toNat) Node.word64? where
  whole w := isWhole_ofNat w.toNat_lt
  same := Json.Node.word64?_ofValue

theorem instant?_text {t : Instant} (inCalendar : t.InCalendar) :
    Node.instant? (Node.ofValue (.string t.text)) = some t := by
  rw [Node.ofValue, Node.instant?, Node.text?, Option.bind_eq_bind, Option.bind_some,
    Instant.ofText?_text inCalendar]

theorem required_some {α : Type} (read : Node → Option α) (value : Json) :
    (slot (some value)).required read = read (Node.ofValue value) := rfl

/-! ## Records -/

def entries (r : Record) : List (String × Option Json) := [
  ("seq", some (Json.ofNat r.sequence.toNat)),
  ("timestamp", some (.string r.time.text)),
  ("sender", some (.string r.rejection.sender)),
  ("message_id", some (.string r.rejection.messageId)),
  ("type_byte", some (Json.orNull (fun b : UInt8 => Json.ofNat b.toNat) r.rejection.typeByte)),
  ("reason", some (.string r.rejection.reason)),
  ("detail", some (Json.orNull .string r.rejection.detail)),
  ("prev_hash", some (.string r.previous)),
  ("hash", some (.string r.hash))]

theorem toJson_eq (r : Record) : r.toJson = .object (membersOf r.entries) := rfl

theorem isWhole_toJson (r : Record) : r.toJson.IsWhole :=
  ⟨readsBack_word64.whole _, trivial, trivial, trivial, isWhole_orNull readsBack_byte.whole _,
    trivial, isWhole_orNull readsBack_text.whole _, trivial, trivial, trivial⟩

theorem slots?_toJson (r : Record) : (Node.ofValue r.toJson).slots? ["seq", "timestamp", "sender",
    "message_id", "type_byte", "reason", "detail", "prev_hash", "hash"] =
      some (r.entries.map fun e => slot e.2) := by
  have distinct : (r.entries.map Prod.fst).Nodup := by
    simp only [entries, List.map_cons, List.map_nil]
    decide
  rw [toJson_eq]
  exact slots?_membersOf distinct

/-- A record whose time can be read is read back from its members. -/
theorem ofNode?_toJson {r : Record} (inCalendar : r.time.InCalendar) :
    ofNode? (Node.ofValue r.toJson) = some r := by
  have sequence := Json.Node.required_slot readsBack_word64.same r.sequence
  have time : (slot (some (Json.string r.time.text))).required Node.instant? = some r.time :=
    (required_some _ _).trans (instant?_text inCalendar)
  have text := Json.Node.required_slot readsBack_text.same
  have typeByte := optional_orNull readsBack_byte rfl r.rejection.typeByte
  have detail := optional_orNull readsBack_text rfl r.rejection.detail
  rw [ofNode?, slots?_toJson, Option.bind_eq_bind, Option.bind_some]
  simp only [entries, List.map_cons, List.map_nil]
  rw [sequence, Option.bind_eq_bind, Option.bind_some, time]
  simp only [Option.bind_eq_bind, Option.bind_some, text, typeByte, detail]
  rfl

theorem inCalendar_of_required {field : Slot} {t : Instant}
    (read : field.required Node.instant? = some t) : t.InCalendar := by
  cases field with
  | given node =>
    obtain ⟨text, -, read⟩ := Option.bind_eq_some_iff.1 read
    exact Instant.inCalendar_of_ofText? read
  | absent => cases read
  | short => cases read

/-- The time of a record that was read is one that can be read. -/
theorem inCalendar_of_ofNode? {node : Node} {r : Record} (read : ofNode? node = some r) :
    r.time.InCalendar := by
  unfold ofNode? at read
  simp only [Option.bind_eq_bind, Option.bind_eq_some_iff] at read
  obtain ⟨slots, -, read⟩ := read
  split at read
  · simp only [Option.bind_eq_some_iff] at read
    obtain ⟨_, -, time, given, _, -, _, -, _, -, _, -, _, -, _, -, _, -, same⟩ := read
    cases same
    exact inCalendar_of_required given
  · cases read

/-! ## Lines -/

def text (r : Record) : Bytes := Text.utf8 r.toJson.compact

theorem line_eq (r : Record) : r.line = r.text ++ [0x0A] := by
  rw [line, text, Text.utf8_eq_flatMap, Text.utf8_eq_flatMap, String.toList_append,
    List.flatMap_append]
  rfl

theorem text_plain (r : Record) : 0x0A ∉ r.text ∧ r.text.getLast? ≠ some 0x0D := by
  have visible {b : UInt8} (mem : b ∈ r.text) : 0x20 ≤ b.toNat :=
    Json.visible_utf8_compact (isWhole_toJson r) mem
  refine ⟨fun mem => absurd (visible mem) (by decide), fun last => ?_⟩
  exact absurd (visible (List.mem_of_getLast? last)) (by decide)

theorem trimChars_compact (r : Record) :
    (Text.trimChars r.toJson.compact.toList).isEmpty = false := by
  obtain ⟨more, chars⟩ : ∃ more, r.toJson.compactChars = '{' :: more := ⟨_, rfl⟩
  rw [Json.compact, String.toList_ofList, chars]
  exact List.isEmpty_eq_false_iff.2 (Text.trimChars_ne_nil (by decide) more)

theorem ofLines_texts {rs : List Record} (inCalendar : ∀ r ∈ rs, r.time.InCalendar) :
    ofLines (rs.map text) = .ok rs := by
  induction rs with
  | nil => rfl
  | cons r rest ih =>
    have others := ih fun q mem => inCalendar q (List.mem_cons_of_mem r mem)
    have read : Node.parse? r.text >>= ofNode? = some r := by
      rw [text, Json.parse?_compact (isWhole_toJson r), Option.bind_eq_bind, Option.bind_some,
        ofNode?_toJson (inCalendar r List.mem_cons_self)]
    rw [List.map_cons, ofLines, read, others, text, Text.ofUtf8?_utf8]
    simp only [trimChars_compact]
    rfl

/-- The lines of records are read as the records. -/
theorem ofFile_lines {rs : List Record} (inCalendar : ∀ r ∈ rs, r.time.InCalendar) :
    ofFile (rs.flatMap line) = .ok rs := by
  have lines : rs.flatMap line = (rs.map text).flatMap (· ++ [0x0A]) := by
    rw [List.flatMap_map]
    exact congrArg rs.flatMap (funext line_eq)
  rw [ofFile, lines, Text.byteLines_ended, ofLines_texts inCalendar]
  intro line mem
  obtain ⟨r, -, rfl⟩ := List.mem_map.1 mem
  exact text_plain r

theorem inCalendar_of_ofLines {lines : List Bytes} {rs : List Record}
    (read : ofLines lines = .ok rs) : ∀ r ∈ rs, r.time.InCalendar := by
  induction lines generalizing rs with
  | nil =>
    cases read
    exact nofun
  | cons line rest ih =>
    unfold ofLines at read
    split at read
    · cases read
    · split at read
      · exact ih read
      · split at read
        · cases read
        · next record parsed =>
          cases others : ofLines rest with
          | error e =>
            rw [others] at read
            cases read
          | ok more =>
            rw [others] at read
            cases read
            obtain ⟨node, -, made⟩ := Option.bind_eq_some_iff.1 parsed
            exact List.forall_mem_cons.2 ⟨inCalendar_of_ofNode? made, ih others⟩

/-! ## What is hashed -/

/-- The text under the hash of a record: its other fields in order of name. -/
def hashed (r : Record) : Bytes :=
  Text.utf8 (Json.ofMembers (fields r.sequence r.time r.rejection r.previous)).compact

theorem ofMembers_fields (r : Record) :
    Json.ofMembers (fields r.sequence r.time r.rejection r.previous) = .object [
      ("detail", Json.orNull .string r.rejection.detail),
      ("message_id", .string r.rejection.messageId),
      ("prev_hash", .string r.previous),
      ("reason", .string r.rejection.reason),
      ("sender", .string r.rejection.sender),
      ("seq", Json.ofNat r.sequence.toNat),
      ("timestamp", .string r.time.text),
      ("type_byte", Json.orNull (fun b : UInt8 => Json.ofNat b.toNat) r.rejection.typeByte)] := by
  simp +decide only [Json.ofMembers, fields, Json.insertMember, List.foldl_cons, List.foldl_nil,
    if_true, if_false]

theorem isWhole_ofMembers (r : Record) :
    (Json.ofMembers (fields r.sequence r.time r.rejection r.previous)).IsWhole := by
  rw [ofMembers_fields]
  exact ⟨isWhole_orNull readsBack_text.whole _, trivial, trivial, trivial, trivial,
    readsBack_word64.whole _, trivial, isWhole_orNull readsBack_byte.whole _, trivial⟩

/-- Records with the same text under their hashes have the same fields besides these. -/
theorem hashed_inj {r s : Record} (first : r.time.InCalendar) (second : s.time.InCalendar)
    (same : r.hashed = s.hashed) : r.sequence = s.sequence ∧ r.time = s.time ∧
      r.rejection = s.rejection ∧ r.previous = s.previous := by
  have parsed := congrArg Node.parse? same
  rw [hashed, hashed, Json.parse?_compact (isWhole_ofMembers r),
    Json.parse?_compact (isWhole_ofMembers s), ofMembers_fields, ofMembers_fields] at parsed
  simp only [Node.ofValue, Node.ofMemberValues, Option.some.injEq, Node.object.injEq,
    List.cons.injEq, Prod.mk.injEq, Node.string.injEq, true_and, and_true] at parsed
  obtain ⟨detail, messageId, previous, reason, sender, sequence, time, typeByte⟩ := parsed
  refine ⟨readsBack_word64.inj sequence, Instant.text_injective first second time, ?_, previous⟩
  obtain ⟨_, _, ⟨_, _, _, _, _⟩, _, _⟩ := r
  obtain ⟨_, _, ⟨_, _, _, _, _⟩, _, _⟩ := s
  simp only [Rejection.mk.injEq]
  exact ⟨sender, messageId, orNull_inj readsBack_byte rfl typeByte, reason,
    orNull_inj readsBack_text rfl detail⟩

end Record

end SecureInbox
