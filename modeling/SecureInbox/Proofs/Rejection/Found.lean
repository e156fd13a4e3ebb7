import SecureInbox.Proofs.Json.Front
import SecureInbox.Proofs.Rejection.Log
import SecureInbox.Rejection.LogFile

/-! # A log file as it is found

A log can be opened on a file that something else has written, with blank lines, other line ends
or a last line without one.  Records are read line by line (`Record.ofLines_append`), and what
is appended goes on with the last line (`Record.ofFile_append`).  If that line has no end and
holds more than the blanks of JSON, the two together are no record, so that a file which was
verified before is refused from then on (`LogFile.append_found`). -/
set_option autoImplicit false

namespace SecureInbox

open Json (Node isSpace)
open Json.Node (StartsValue)

namespace Text

theorem utf8_append (a b : String) : utf8 (a ++ b) = utf8 a ++ utf8 b := by
  rw [utf8_eq_flatMap, utf8_eq_flatMap, utf8_eq_flatMap, String.toList_append, List.flatMap_append]

/-- No byte of a blank is one that a JSON value starts with. -/
theorem not_startsValue_of_isBlank {c : Char} (blank : isBlank c = true) {b : UInt8}
    (mem : b ∈ String.utf8EncodeChar c) : ¬ StartsValue b := by
  by_cases ascii : c.toNat < 128
  · have low : ∀ n < 128, isBlank (Char.ofNat n) = true → ¬ StartsValue (UInt8.ofNat n) := by decide
    rw [utf8EncodeChar_ascii ascii, List.mem_singleton] at mem
    rw [mem]
    refine low c.toNat ascii ?_
    rwa [Char.ofNat_toNat]
  · have high := high_of_mem_utf8EncodeChar (Nat.le_of_not_lt ascii) mem
    exact fun start => absurd start.ascii (Nat.not_lt_of_le high)

theorem not_startsValue_of_trimmed {text : String} (trimmed : (trimChars text.toList).isEmpty = true)
    {b : UInt8} (mem : b ∈ utf8 text) : ¬ StartsValue b := by
  rw [utf8_eq_flatMap] at mem
  obtain ⟨c, inside, mem⟩ := List.mem_flatMap.1 mem
  refine not_startsValue_of_isBlank ?_ mem
  by_contra visible
  exact trimChars_ne_nil_of_mem inside (Bool.eq_false_iff.2 visible) (List.isEmpty_iff.1 trimmed)

end Text

namespace Record

/-! ## Line by line -/

theorem ofLines_cons (line : Bytes) (rest : List Bytes) : ofLines (line :: rest) =
    (ofLines [line]).bind fun rs => (ofLines rest).map (rs ++ ·) := by
  rw [ofLines]
  cases others : ofLines rest with
  | error e =>
    rw [ofLines, ofLines]
    split
    · rfl
    · split
      · rfl
      · split <;> rfl
  | ok rs =>
    rw [ofLines, ofLines]
    split
    · rfl
    · split
      · rfl
      · split <;> rfl

/-- Lines are read one after the other. -/
theorem ofLines_append (front back : List Bytes) : ofLines (front ++ back) =
    (ofLines front).bind fun rs => (ofLines back).map (rs ++ ·) := by
  induction front with
  | nil => cases h : ofLines back <;> simp [ofLines, Except.bind, Except.map, h]
  | cons line rest ih =>
    rw [List.cons_append, ofLines_cons, ih, ofLines_cons line rest]
    cases ofLines [line] with
    | error e => rfl
    | ok rs =>
      cases ofLines rest with
      | error e => rfl
      | ok ss =>
        cases ofLines back with
        | error e => rfl
        | ok ts => exact congrArg Except.ok (List.append_assoc rs ss ts).symm

/-! ## What goes on with the last line -/

theorem isNumber_of_ofNode? {node : Node} {r : Record} (read : ofNode? node = some r) :
    node.isNumber = false := by
  cases node with
  | number n => cases read
  | _ => rfl

theorem isNumber_toJson (r : Record) : (Node.ofValue r.toJson).isNumber = false := rfl

theorem brace_mem_text (r : Record) : 0x7B ∈ r.text := by
  obtain ⟨more, chars⟩ : ∃ more, r.toJson.compactChars = '{' :: more := ⟨_, rfl⟩
  rw [text, Json.compact, Text.utf8_ofList, chars, List.flatMap_cons]
  exact List.mem_append_left _ (by decide)

theorem text_ne_nil (r : Record) : r.text ≠ [] := List.ne_nil_of_mem r.brace_mem_text

/-- A single line with anything but blanks in it is a record or refused. -/
theorem ofLines_visible {line : Bytes} {text : String} (decoded : Text.ofUtf8? line = some text)
    (visible : (Text.trimChars text.toList).isEmpty = false) :
    ofLines [line] = match Node.parse? line >>= ofNode? with
      | none => .error .malformedRecord
      | some r => .ok [r] := by
  rw [ofLines, decoded]
  simp only [visible]
  rfl

/-- A record behind a line that was accepted, as a text: both are blanks and the record, or
nothing that can be read. -/
theorem parse?_behind {line : Bytes} {text : String} (decoded : Text.ofUtf8? line = some text)
    (accepted : (Text.trimChars text.toList).isEmpty = true ∨
      ∃ s, Node.parse? line >>= ofNode? = some s) (r : Record) :
    Node.parse? (line ++ r.text) =
      if line.all isSpace then some (Node.ofValue r.toJson) else none := by
  cases blank : line.all isSpace with
  | true =>
    have spaces := List.all_eq_true.1 blank
    exact Node.parse?_blank spaces (Json.parse?_compact (isWhole_toJson r)) r.isNumber_toJson
  | false =>
    rcases accepted with trimmed | ⟨s, read⟩
    · obtain ⟨spaces, b, rest, rfl, all, visible⟩ := Json.exists_visible blank
      have mem : b ∈ Text.utf8 text := by
        rw [← Text.ofUtf8?_eq_some.1 decoded]
        exact List.mem_append_right spaces List.mem_cons_self
      rw [List.append_assoc, List.cons_append]
      exact Node.parse?_of_start all visible (Text.not_startsValue_of_trimmed trimmed mem)
    · obtain ⟨node, parsed, made⟩ := Option.bind_eq_some_iff.1 read
      exact Node.parse?_append parsed (isNumber_of_ofNode? made) r.brace_mem_text (by decide)

/-- A single line that is accepted is a record, or it is blank and holds none. -/
theorem ofLines_singleton {line : Bytes} {rs : List Record} (accepted : ofLines [line] = .ok rs) :
    ∃ text, Text.ofUtf8? line = some text ∧
      ((Text.trimChars text.toList).isEmpty = true ∧ rs = [] ∨
        ∃ s, Node.parse? line >>= ofNode? = some s) := by
  rw [ofLines] at accepted
  cases decoded : Text.ofUtf8? line with
  | none =>
    rw [decoded] at accepted
    cases accepted
  | some text =>
    rw [decoded] at accepted
    refine ⟨text, rfl, ?_⟩
    dsimp only at accepted
    split at accepted
    · next trimmed =>
      cases accepted
      exact .inl ⟨trimmed, rfl⟩
    · split at accepted
      · cases accepted
      · next s read => exact .inr ⟨s, read⟩

/-- A record that goes on with a line is read if that line is blank for JSON, and refused with it
otherwise. -/
theorem ofLines_behind {line : Bytes} {rs : List Record} (accepted : ofLines [line] = .ok rs)
    {r : Record} (inCalendar : r.time.InCalendar) : ofLines [line ++ r.text] =
      if line.all isSpace then .ok (rs ++ [r]) else .error .malformedRecord := by
  obtain ⟨text, decoded, held⟩ := ofLines_singleton accepted
  have whole : Text.ofUtf8? (line ++ r.text) = some (text ++ r.toJson.compact) := by
    rw [Text.ofUtf8?_eq_some, Text.utf8_append, ← Text.ofUtf8?_eq_some.1 decoded]
    rfl
  have visible : (Text.trimChars (text ++ r.toJson.compact).toList).isEmpty = false := by
    obtain ⟨more, chars⟩ : ∃ more, r.toJson.compact.toList = '{' :: more :=
      ⟨_, String.toList_ofList⟩
    rw [String.toList_append, chars]
    exact List.isEmpty_eq_false_iff.2 (Text.trimChars_ne_nil_of_mem
      (List.mem_append_right _ List.mem_cons_self) (by decide))
  rw [ofLines_visible whole visible, parse?_behind decoded (held.imp_left And.left)]
  cases blank : line.all isSpace with
  | false => rfl
  | true =>
    have none : rs = [] := by
      rcases held with ⟨-, none⟩ | ⟨s, read⟩
      · exact none
      · rw [Node.parse?_of_spaces (List.all_eq_true.1 blank)] at read
        cases read
    rw [if_pos rfl, Option.bind_eq_bind, Option.bind_some, ofNode?_toJson inCalendar, none]
    rfl

/-- Only what stands behind the last line end of a file matters for what is appended to it. -/
theorem ofFile_append {content : Bytes} {rs : List Record} (accepted : ofFile content = .ok rs)
    {r : Record} (inCalendar : r.time.InCalendar) : ofFile (content ++ r.line) =
      if (Text.unended content).all isSpace then .ok (rs ++ [r]) else .error .malformedRecord := by
  have last : ofLines (if (Text.unended content).isEmpty then [] else [Text.unended content]) =
      ofLines [Text.unended content] := by
    cases Text.unended content with
    | nil => rfl
    | cons b more => rfl
  rw [ofFile, Text.byteLines_eq, ofLines_append, last] at accepted
  cases front : ofLines (Text.endedLines content) with
  | error e =>
    rw [front] at accepted
    cases accepted
  | ok ended =>
    rw [front] at accepted
    cases back : ofLines [Text.unended content] with
    | error e =>
      rw [back] at accepted
      cases accepted
    | ok unended =>
      rw [back] at accepted
      obtain rfl : ended ++ unended = rs := Except.ok.inj accepted
      rw [ofFile, line_eq, Text.byteLines_append_line content r.text_plain.1 r.text_plain.2
        r.text_ne_nil, ofLines_append, front, ofLines_behind back inCalendar]
      split
      · exact congrArg Except.ok (List.append_assoc ended unended [r]).symm
      · rfl

end Record

namespace RejectionLog

open Record (chainStart Chained endOf)

theorem recordsOf_eq (d : Directory) (name : String) :
    recordsOf d name = Record.ofFile ((d.read? name).getD []) := by
  unfold recordsOf
  cases d.read? name <;> rfl

theorem recordsOf_append {d : Directory} {name : String} {rs : List Record}
    (accepted : recordsOf d name = .ok rs) {r : Record} (inCalendar : r.time.InCalendar) :
    recordsOf (d.append name r.line) name =
      if (Text.unended ((d.read? name).getD [])).all isSpace then .ok (rs ++ [r])
      else .error .malformedRecord := by
  rw [recordsOf_eq] at accepted
  rw [recordsOf_eq, Directory.append, Directory.read?_write_self]
  exact Record.ofFile_append accepted inCalendar

/-- A log is opened where the chain of its file ends. -/
theorem lastHash_opened {d : Directory} {name : String} {maxBytes : Nat} {log : RejectionLog}
    (opened : RejectionLog.opened d name maxBytes = .ok log) : ∃ rs, recordsOf d name = .ok rs ∧
      log.directory = d ∧ log.name = name ∧ log.maxBytes = maxBytes ∧
        log.lastHash = endOf chainStart rs := by
  unfold RejectionLog.opened at opened
  cases read : recordsOf d name with
  | error e =>
    rw [read] at opened
    cases opened
  | ok rs =>
    rw [read] at opened
    refine ⟨rs, rfl, ?_⟩
    cases last : rs.getLast? with
    | none =>
      simp only [bind, Except.bind, last] at opened
      cases opened
      refine ⟨rfl, rfl, rfl, ?_⟩
      rw [endOf, last]
      rfl
    | some r =>
      simp only [bind, Except.bind, last] at opened
      cases opened
      refine ⟨rfl, rfl, rfl, ?_⟩
      rw [endOf, last]
      rfl

theorem recent_eq {log : RejectionLog} {rs : List Record}
    (read : recordsOf log.directory log.name = .ok rs) : log.recent none = .ok rs.reverse := by
  rw [recent, read]
  rfl

theorem refused_of_recordsOf {log : RejectionLog} {e : StoreError}
    (refused : recordsOf log.directory log.name = .error e) :
    log.verify = .error e ∧ log.recent none = .error e := by
  rw [verify, recent, refused]
  exact ⟨rfl, rfl⟩

/-- What becomes of a log that was opened and verified when a record is appended. -/
theorem append_opened {d : Directory} {name : String} {maxBytes : Nat} {log : RejectionLog} {k : Nat}
    {time : Instant} (rejection : Rejection)
    (opened : RejectionLog.opened d name maxBytes = .ok log) (verified : log.verify = .ok k)
    (small : log.isFull = false) (inCalendar : time.InCalendar) :
    ∃ rs, log.recent none = .ok rs ∧ rs.length = k ∧
      ((Text.unended ((log.directory.read? log.name).getD [])).all isSpace = true →
        (log.append time rejection).2.verify = .ok (k + 1) ∧
          (log.append time rejection).2.recent none = .ok ((log.append time rejection).1 :: rs)) ∧
      ((Text.unended ((log.directory.read? log.name).getD [])).all isSpace = false →
        (log.append time rejection).2.verify = .error .malformedRecord ∧
          (log.append time rejection).2.recent none = .error .malformedRecord) := by
  obtain ⟨rs, read, rfl, rfl, rfl, ends⟩ := lastHash_opened opened
  rw [verify_eq read] at verified
  have chained := Record.chained_of_verifyFrom verified
  rw [Record.verifyFrom_chained chained] at verified
  obtain rfl := Except.ok.inj verified
  refine ⟨rs.reverse, recent_eq read, List.length_reverse, ?_⟩
  rw [append_of_not_full small]
  dsimp only
  generalize made : Record.make (log.lastSequence + 1) time rejection log.lastHash = r
  have now := recordsOf_append read (r := r) (by rw [← made]; exact inCalendar)
  constructor
  · intro blank
    rw [if_pos blank] at now
    have longer : Chained chainStart (rs ++ [r]) :=
      Record.chained_concat.2 ⟨chained, by rw [← made]; exact ends, by
        rw [← made]
        exact Record.isGenuine_make _ _ _ _⟩
    rw [verify_eq now, recent_eq now, Record.verifyFrom_chained longer, List.length_append,
      List.reverse_append]
    exact ⟨rfl, rfl⟩
  · intro visible
    rw [visible, if_neg Bool.false_ne_true] at now
    exact refused_of_recordsOf now

end RejectionLog

namespace LogFile

/-- The log of a file that can be reached is a log that was opened on it. -/
theorem log_opened {home : Place} {path : String} {maxBytes : Nat} {d : Directory} {file : LogFile}
    (opened : LogFile.opened home path maxBytes d = .ok file) (reachable : file.isReachable = true) :
    ∃ d' name, RejectionLog.opened d' name maxBytes = .ok file.log := by
  unfold LogFile.opened at opened
  cases made : d.makeFolders home (Path.ofText path).around with
  | error e =>
    rw [made] at opened
    cases opened
  | ok d' =>
    rw [made] at opened
    dsimp only at opened
    split at opened
    · cases opened
      cases reachable
    · next place _ =>
      split at opened
      · cases opened
      · refine ⟨d', place.name, ?_⟩
        cases log : RejectionLog.opened d' place.name maxBytes with
        | error e =>
          rw [log] at opened
          cases opened
        | ok log =>
          rw [log] at opened
          cases opened
          rfl

theorem append_of_not_full {file : LogFile} (reachable : file.isReachable = true)
    (small : file.log.isFull = false) (kept : file.log.name ≠ Machine.nullDevice) (time : Instant)
    (rejection : Rejection) : file.append time rejection =
      .ok ((file.log.append time rejection).1, ⟨(file.log.append time rejection).2, true⟩) := by
  have free : file.isStuck = false := by rw [isStuck, small, Bool.false_and]
  have name : (file.log.append time rejection).2.name ≠ Machine.nullDevice := by
    rw [RejectionLog.append_of_not_full small]
    exact kept
  rw [append, reachable, free]
  simp only [if_neg name]
  rfl

/-- A log that was opened on a file and verified, whatever wrote the file and with whatever blanks,
can be appended to while the file is below its limit.  The new record is read in front of the
others and the file is verified with one record more exactly if what stands behind its last line
end is blank for JSON.  Otherwise the file is refused from then on. -/
theorem append_found {home : Place} {path : String} {maxBytes : Nat} {d : Directory} {file : LogFile}
    {k : Nat} {time : Instant} (rejection : Rejection)
    (opened : LogFile.opened home path maxBytes d = .ok file) (reachable : file.isReachable = true)
    (kept : file.log.name ≠ Machine.nullDevice) (verified : file.verify = .ok k)
    (small : ((file.log.directory.read? file.log.name).getD []).length < maxBytes)
    (inCalendar : time.InCalendar) :
    ∃ r file' rs, file.append time rejection = .ok (r, file') ∧ r.time = time ∧
      r.rejection = rejection ∧ file.recent none = .ok rs ∧ rs.length = k ∧
      ((Text.unended ((file.log.directory.read? file.log.name).getD [])).all isSpace = true →
        file'.verify = .ok (k + 1) ∧ file'.recent none = .ok (r :: rs)) ∧
      ((Text.unended ((file.log.directory.read? file.log.name).getD [])).all isSpace = false →
        file'.verify = .error .malformedRecord ∧ file'.recent none = .error .malformedRecord) := by
  obtain ⟨d', name, opened⟩ := log_opened opened reachable
  obtain ⟨-, -, -, -, rfl, -⟩ := RejectionLog.lastHash_opened opened
  have notFull : file.log.isFull = false := by
    unfold RejectionLog.isFull
    cases held : file.log.directory.read? file.log.name with
    | none => rfl
    | some content =>
      rw [held] at small
      exact decide_eq_false (Nat.not_le_of_lt small)
  rw [verify, if_pos reachable] at verified
  obtain ⟨rs, recent, count, after⟩ :=
    RejectionLog.append_opened rejection opened verified notFull inCalendar
  refine ⟨_, _, rs, append_of_not_full reachable notFull kept time rejection, rfl, rfl, ?_, count,
    after⟩
  rw [LogFile.recent, if_pos reachable, recent]

section Example

open RejectionLog (replayRecord)

/-- A folder with a log of one line, which has no end. -/
def unendedFolder (r : Record) : Directory := Directory.empty.write "intake.log" r.text

theorem unended_text (r : Record) : Text.unended r.text = r.text := by
  have single : Text.splitOn 0x0A r.text = [r.text] := Text.splitOn_of_free r.text_plain.1
  simp only [Text.unended, single]
  rfl

theorem recordsOf_unendedFolder {r : Record} (inCalendar : r.time.InCalendar) :
    RejectionLog.recordsOf (unendedFolder r) "intake.log" = .ok [r] := by
  have written : r.text.isEmpty = false := List.isEmpty_eq_false_iff.2 r.text_ne_nil
  have ended : Text.endedLines r.text = [] := by
    rw [Text.endedLines, Text.splitOn_of_free r.text_plain.1]
    rfl
  rw [RejectionLog.recordsOf_eq, unendedFolder, Directory.read?_write_self, Option.getD_some,
    Record.ofFile, Text.byteLines_eq, ended, unended_text, written]
  exact Record.ofLines_texts (List.forall_mem_singleton.2 inCalendar)

/-- The log in that folder, opened with room for one byte more. -/
def unendedFile (r : Record) : LogFile :=
  ⟨⟨unendedFolder r, "intake.log", r.text.length + 1, r.sequence, r.hash⟩, true⟩

theorem opened_unendedFolder {r : Record} (inCalendar : r.time.InCalendar) :
    opened [] "intake.log" (r.text.length + 1) (unendedFolder r) = .ok (unendedFile r) := by
  have made : (unendedFolder r).makeFolders [] (Path.ofText "intake.log").around =
      .ok (unendedFolder r) := rfl
  have reach : (unendedFolder r).reach [] "intake.log" = .ok ["intake.log"] := rfl
  have noFolder : (unendedFolder r).isFolder ["intake.log"] = false := rfl
  have log : RejectionLog.opened (unendedFolder r) (Place.name ["intake.log"]) (r.text.length + 1) =
      .ok (unendedFile r).log := by
    rw [RejectionLog.opened]
    rw [show Place.name ["intake.log"] = "intake.log" from rfl, recordsOf_unendedFolder inCalendar]
    rfl
  unfold LogFile.opened
  simp only [made, reach, noFolder, log]
  rfl

theorem read?_unendedFile (r : Record) :
    (unendedFile r).log.directory.read? (unendedFile r).log.name = some r.text :=
  Directory.read?_write_self _ _ _

theorem length_unendedFile (r : Record) : (((unendedFile r).log.directory.read?
    (unendedFile r).log.name).getD []).length < r.text.length + 1 := by
  rw [read?_unendedFile]
  exact Nat.lt_succ_self _

theorem verify_unendedFile {r : Record} (inCalendar : r.time.InCalendar)
    (genuine : r.isGenuine = true) (starts : r.previous = Record.chainStart) :
    (unendedFile r).verify = .ok 1 := by
  have chained : Record.Chained Record.chainStart [r] :=
    Record.chained_cons.2 ⟨starts, genuine, .nil _⟩
  have read : RejectionLog.recordsOf (unendedFile r).log.directory (unendedFile r).log.name =
      .ok [r] := recordsOf_unendedFolder inCalendar
  show (unendedFile r).log.verify = _
  rw [RejectionLog.verify_eq read]
  exact Record.verifyFrom_chained chained

/-- A log whose last line has no end is verified, and refused once a record was appended. -/
theorem append_found_unended : ∃ file r file',
    opened [] "intake.log" (replayRecord.text.length + 1) (unendedFolder replayRecord) = .ok file ∧
    file.verify = .ok 1 ∧ file.append (.ofSeconds 1) replayRecord.rejection = .ok (r, file') ∧
    file'.verify = .error .malformedRecord := by
  have times : ∀ s, Instant.inRange s = true → (Instant.ofSeconds s).InCalendar := fun _ near =>
    ⟨near, .inl (by decide : (0 : Nat) < 1000000000)⟩
  have time : replayRecord.time.InCalendar := times 0 (by decide)
  have verified := verify_unendedFile time (Record.isGenuine_make _ _ _ _) rfl
  obtain ⟨r, file', rs, appended, -, -, -, -, -, refused⟩ :=
    append_found replayRecord.rejection (opened_unendedFolder time) rfl (by decide) verified
      (length_unendedFile replayRecord) (times 1 (by decide))
  have visible : replayRecord.text.all isSpace = false := by
    refine Bool.eq_false_iff.2 fun blank => ?_
    exact absurd (List.all_eq_true.1 blank _ replayRecord.brace_mem_text) (by decide)
  rw [read?_unendedFile, Option.getD_some, unended_text] at refused
  exact ⟨_, r, file', opened_unendedFolder time, verified, appended, (refused visible).1⟩

end Example

end LogFile

end SecureInbox
