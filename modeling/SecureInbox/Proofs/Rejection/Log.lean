import SecureInbox.Proofs.Rejection.Rotation

/-! # A rejection log in use

A log is appended to, closed and opened again, with any limits.  The records that were returned
are at any time those of the files that were moved aside and of the current one
(`RejectionLog.Keeps`).  This is kept up when the current file is moved aside
(`Keeps.rotated`), when a record is appended (`Keeps.appended`) and when the log is opened
again (`Keeps.opened`), and so by every run of such steps (`LogRun.Holds.steps`). -/
set_option autoImplicit false

namespace SecureInbox

open Record (chainStart Chained endOf)

namespace Record

def Numbered (rs : List Record) : Prop := ∀ i r, rs[i]? = some r → r.sequence = UInt64.ofNat (i + 1)

theorem numbered_concat {rs : List Record} {r : Record} : Numbered (rs ++ [r]) ↔
    Numbered rs ∧ r.sequence = UInt64.ofNat (rs.length + 1) := by
  constructor
  · intro numbered
    refine ⟨fun i q held => numbered i q ?_, numbered rs.length r List.getElem?_concat_length⟩
    exact List.getElem?_append_left (List.getElem?_eq_some_iff.1 held).1 ▸ held
  · rintro ⟨numbered, last⟩ i q held
    rcases Nat.lt_trichotomy i rs.length with earlier | rfl | later
    · rw [List.getElem?_append_left earlier] at held
      exact numbered i q held
    · rw [List.getElem?_concat_length] at held
      exact Option.some.inj held ▸ last
    · rw [List.getElem?_eq_none (by rw [List.length_append]; exact later)] at held
      cases held

end Record

namespace RejectionLog

variable {log : RejectionLog} {name : String} {returned current : List Record}
  {older : List (List Record)}

def Vacant (d : Directory) (name : String) : Prop :=
  d.read? name = none ∧ ∀ i < keptFiles, d.read? (rotatedName name (i + 1)) = none

/-- Whether a log has returned some records, numbered from one, and holds all of them, those of
the files aside and those of the current file, each file a chain of its own. -/
structure Keeps (name : String) (returned : List Record) (older : List (List Record))
    (current : List Record) (log : RejectionLog) : Prop where
  named : log.name = name
  files : Files name log.directory older current
  parted : returned = older.reverse.flatten ++ current
  numbered : Record.Numbered returned
  chained : ∀ rs ∈ current :: older, Chained chainStart rs
  times : ∀ rs ∈ current :: older, ∀ r ∈ rs, r.time.InCalendar
  sequence : log.lastSequence = UInt64.ofNat returned.length
  hash : log.lastHash = endOf chainStart current

theorem rotate_of_not_full (small : log.isFull = false) : log.rotate = log := by
  rw [rotate, small]
  rfl

theorem append_of_not_full (small : log.isFull = false) (time : Instant) (rejection : Rejection) :
    log.append time rejection =
      (Record.make (log.lastSequence + 1) time rejection log.lastHash,
        { log with
          directory := log.directory.append log.name
            (Record.make (log.lastSequence + 1) time rejection log.lastHash).line
          lastSequence := log.lastSequence + 1
          lastHash := (Record.make (log.lastSequence + 1) time rejection log.lastHash).hash }) := by
  rw [append, rotate_of_not_full small]
  rfl

/-- A file that was just moved aside is not moved again. -/
theorem append_rotate (small : log.rotate.isFull = false) (time : Instant) (rejection : Rejection) :
    log.rotate.append time rejection = log.append time rejection := by
  rw [append, append, rotate_of_not_full small]

namespace Keeps

theorem isFull_eq_false (keeps : Keeps name returned older [] log) : log.isFull = false := by
  rw [isFull, keeps.named, keeps.files.file]
  rfl

theorem recordsOf_file (keeps : Keeps name returned older current log) :
    recordsOf log.directory log.name = .ok current := by
  rw [keeps.named]
  exact keeps.files.recordsOf_file (keeps.times current List.mem_cons_self)

theorem verify_eq (keeps : Keeps name returned older current log) :
    log.verify = .ok current.length := by
  rw [RejectionLog.verify_eq keeps.recordsOf_file]
  exact Record.verifyFrom_chained (keeps.chained current List.mem_cons_self)

theorem chained_aside (keeps : Keeps name returned older current log) {i : Nat}
    (small : i < keptFiles) : ∃ rs, recordsOf log.directory (rotatedName name (i + 1)) = .ok rs ∧
      Record.verifyFrom chainStart rs = .ok rs.length := by
  have read := keeps.files.recordsOf_aside
    (fun rs mem => keeps.times rs (List.mem_cons_of_mem current mem)) small
  refine ⟨_, read, Record.verifyFrom_chained ?_⟩
  cases held : older[i]? with
  | none => exact .nil chainStart
  | some rs => exact keeps.chained rs (List.mem_cons_of_mem current (List.mem_of_getElem? held))

/-- The records of all files are the last ones that were returned. -/
theorem keptRecords_eq (keeps : Keeps name returned older current log) :
    ∃ gone, keptRecords log.directory name = .ok (returned.drop gone) ∧
      (older.length ≤ keptFiles → gone = 0) := by
  refine ⟨(older.drop keptFiles).reverse.flatten.length, ?_, fun few => ?_⟩
  · have whole : returned = (older.drop keptFiles).reverse.flatten ++
        ((older.take keptFiles).reverse.flatten ++ current) := by
      rw [keeps.parted, ← List.append_assoc, ← List.flatten_append, ← List.reverse_append,
        List.take_append_drop]
    rw [keeps.files.keptRecords_eq (fun rs mem => keeps.times rs (List.mem_cons_of_mem current mem))
      (keeps.times current List.mem_cons_self)]
    conv_rhs => rw [whole]
    rw [List.drop_left]
  · rw [List.drop_eq_nil_of_le few]
    rfl

theorem rotated (keeps : Keeps name returned older current log) (full : log.isFull = true) :
    Keeps name returned (current :: older) [] log.rotate := by
  have written : current ≠ [] := by
    rintro rfl
    rw [keeps.isFull_eq_false] at full
    cases full
  have state : log.rotate = { log with
      directory := (shift log.name keptFiles log.directory).rename log.name (rotatedName log.name 1)
      lastHash := chainStart } := by
    rw [rotate, if_pos full]
  rw [state]
  obtain ⟨rfl⟩ := keeps.named
  exact {
    named := rfl
    files := keeps.files.rotated written
    parted := by
      rw [keeps.parted, List.reverse_cons, List.flatten_concat, List.append_nil]
    numbered := keeps.numbered
    chained := List.forall_mem_cons.2 ⟨.nil chainStart, keeps.chained⟩
    times := List.forall_mem_cons.2 ⟨nofun, keeps.times⟩
    sequence := keeps.sequence
    hash := rfl }

theorem appended (keeps : Keeps name returned older current log) (small : log.isFull = false)
    {time : Instant} (inCalendar : time.InCalendar) (rejection : Rejection) :
    Keeps name (returned ++ [(log.append time rejection).1]) older
      (current ++ [(log.append time rejection).1]) (log.append time rejection).2 := by
  rw [append_of_not_full small]
  have next : log.lastSequence + 1 = UInt64.ofNat (returned.length + 1) := by
    rw [keeps.sequence, UInt64.ofNat_add]
    rfl
  obtain ⟨others, before⟩ := List.forall_mem_cons.1 keeps.chained
  obtain ⟨others', before'⟩ := List.forall_mem_cons.1 keeps.times
  obtain ⟨rfl⟩ := keeps.named
  exact {
    named := rfl
    files := keeps.files.appended _
    parted := by rw [keeps.parted, List.append_assoc]
    numbered := Record.numbered_concat.2 ⟨keeps.numbered, next⟩
    chained := List.forall_mem_cons.2
      ⟨Record.chained_concat.2 ⟨others, keeps.hash, Record.isGenuine_make _ _ _ _⟩, before⟩
    times := by
      refine List.forall_mem_cons.2 ⟨fun r mem => ?_, before'⟩
      rcases List.mem_append.1 mem with earlier | last
      · exact others' r earlier
      · rw [List.mem_singleton.1 last]
        exact inCalendar
    sequence := by rw [List.length_append, List.length_singleton, ← next]
    hash := by rw [Record.endOf_concat] }

/-- A log is opened again where it left off.  Only a log that returned nothing has an empty
file, so that the numbering goes on from its last record. -/
theorem opened (keeps : Keeps name returned older current log) (maxBytes : Nat)
    (fresh : current = [] → older = []) :
    ∃ log', RejectionLog.opened log.directory log.name maxBytes = .ok log' ∧
      Keeps name returned older current log' := by
  rw [RejectionLog.opened, keeps.recordsOf_file]
  rcases List.eq_nil_or_concat current with rfl | ⟨front, last, rfl⟩
  · refine ⟨_, rfl, { keeps with sequence := ?_, hash := rfl }⟩
    rw [keeps.parted, fresh rfl]
    rfl
  · rw [List.concat_eq_append] at keeps ⊢
    have found : (front ++ [last]).getLast? = some last := List.getLast?_concat
    simp only [bind, Except.bind, found]
    refine ⟨_, rfl, { keeps with sequence := ?_, hash := ?_ }⟩
    · have whole := keeps.parted
      rw [← List.append_assoc] at whole
      have numbered := keeps.numbered
      rw [whole] at numbered ⊢
      rw [List.length_append]
      exact (Record.numbered_concat.1 numbered).2
    · rw [Record.endOf_concat]

end Keeps

end RejectionLog

/-! ## Runs -/

/-- What is done to a log: a rejection is recorded, or the log is closed and opened again. -/
inductive LogStep where
  | append (time : Instant) (rejection : Rejection)
  | reopen (maxBytes : Nat)

def LogStep.request? : LogStep → Option (Instant × Rejection)
  | .append time rejection => some (time, rejection)
  | .reopen _ => none

def Record.request (r : Record) : Instant × Rejection := (r.time, r.rejection)

/-- A log in use, with the records that its appends returned, how often its file was moved
aside, and how many records were appended since then. -/
structure LogRun where
  log : RejectionLog
  returned : List Record
  rotations : Nat
  sinceRotation : Nat

namespace LogRun

variable {run : LogRun} {name : String} {current : List Record} {older : List (List Record)}

def opened (d : Directory) (name : String) (maxBytes : Nat) : Except StoreError LogRun :=
  (RejectionLog.opened d name maxBytes).map fun log => ⟨log, [], 0, 0⟩

def step (run : LogRun) : LogStep → Except StoreError LogRun
  | .append time rejection =>
    let (record, log) := run.log.append time rejection
    .ok {
      log
      returned := run.returned ++ [record]
      rotations := if run.log.isFull then run.rotations + 1 else run.rotations
      sinceRotation := if run.log.isFull then 1 else run.sinceRotation + 1 }
  | .reopen maxBytes =>
    (RejectionLog.opened run.log.directory run.log.name maxBytes).map fun log => { run with log }

def steps (run : LogRun) : List LogStep → Except StoreError LogRun
  | [] => .ok run
  | s :: rest => do (← run.step s).steps rest

/-- Whether a log in use keeps some files, and its counts are those of the files.  A file was
moved aside only once there are records. -/
structure Holds (name : String) (older : List (List Record)) (current : List Record)
    (run : LogRun) : Prop where
  keeps : run.log.Keeps name run.returned older current
  fresh : current = [] → older = []
  rotations : run.rotations = older.length
  sinceRotation : run.sinceRotation = current.length

theorem holds_opened {d : Directory} (maxBytes : Nat) (vacant : RejectionLog.Vacant d name) :
    ∃ run, opened d name maxBytes = .ok run ∧ run.returned = [] ∧ Holds name [] [] run := by
  have log : RejectionLog.opened d name maxBytes = .ok ⟨d, name, maxBytes, 0, chainStart⟩ := by
    rw [RejectionLog.opened, RejectionLog.recordsOf, vacant.1]
    rfl
  rw [opened, log]
  exact ⟨_, rfl, rfl, {
    keeps := {
      named := rfl
      files := ⟨vacant.1, vacant.2⟩
      parted := rfl
      numbered := by
        intro i r held
        rw [List.getElem?_nil] at held
        cases held
      chained := List.forall_mem_singleton.2 (.nil chainStart)
      times := List.forall_mem_singleton.2 (List.forall_mem_nil _)
      sequence := rfl
      hash := rfl }
    fresh := fun _ => rfl
    rotations := rfl
    sinceRotation := rfl }⟩

/-- Recording a rejection adds its record to the current file, which is a new one if the file
was full. -/
theorem Holds.append (holds : Holds name older current run) {time : Instant}
    (inCalendar : time.InCalendar) (rejection : Rejection) :
    ∃ next older' current', run.step (.append time rejection) = .ok next ∧
      next.returned.map Record.request = run.returned.map Record.request ++ [(time, rejection)] ∧
      Holds name older' current' next := by
  have requested : (run.log.append time rejection).1.request = (time, rejection) := rfl
  have returned : (run.returned ++ [(run.log.append time rejection).1]).map Record.request =
      run.returned.map Record.request ++ [(time, rejection)] := by
    rw [List.map_append, List.map_singleton, requested]
  cases full : run.log.isFull with
  | false =>
    refine ⟨_, older, current ++ [(run.log.append time rejection).1], rfl, returned, {
      keeps := holds.keeps.appended full inCalendar rejection
      fresh := fun none =>
        absurd none (List.append_ne_nil_of_right_ne_nil _ (List.cons_ne_nil _ []))
      rotations := ?_
      sinceRotation := ?_ }⟩
    · simp only [full, holds.rotations]
      rfl
    · simp only [full, holds.sinceRotation, List.length_append]
      rfl
  | true =>
    have rotated := holds.keeps.rotated full
    have kept := rotated.appended rotated.isFull_eq_false inCalendar rejection
    rw [RejectionLog.append_rotate rotated.isFull_eq_false] at kept
    refine ⟨_, current :: older, [(run.log.append time rejection).1], rfl, returned, {
      keeps := kept
      fresh := nofun
      rotations := ?_
      sinceRotation := ?_ }⟩
    · simp only [full, holds.rotations]
      rfl
    · simp only [full]
      rfl

theorem Holds.reopen (holds : Holds name older current run) (maxBytes : Nat) :
    ∃ next, run.step (.reopen maxBytes) = .ok next ∧ next.returned = run.returned ∧
      Holds name older current next := by
  obtain ⟨log, opened, kept⟩ := holds.keeps.opened maxBytes holds.fresh
  rw [step, opened]
  exact ⟨_, rfl, rfl, { holds with keeps := kept }⟩

/-- A run of steps comes to its end, and has returned what was wanted recorded. -/
theorem Holds.steps (holds : Holds name older current run) {steps : List LogStep}
    (times : ∀ request ∈ steps.filterMap LogStep.request?, request.1.InCalendar) :
    ∃ final older' current', run.steps steps = .ok final ∧
      final.returned.map Record.request =
        run.returned.map Record.request ++ steps.filterMap LogStep.request? ∧
      Holds name older' current' final := by
  induction steps generalizing run older current with
  | nil => exact ⟨run, older, current, rfl, (List.append_nil _).symm, holds⟩
  | cons first rest ih =>
    cases first with
    | append time rejection =>
      obtain ⟨now, later⟩ := List.forall_mem_cons.1 times
      obtain ⟨next, older', current', stepped, returned, holds⟩ := holds.append now rejection
      obtain ⟨final, older', current', done, all, holds⟩ := ih holds later
      refine ⟨final, older', current', ?_, ?_, holds⟩
      · rw [LogRun.steps, stepped]
        exact done
      · rw [all, returned, List.append_assoc]
        rfl
    | reopen maxBytes =>
      obtain ⟨next, stepped, returned, holds⟩ := holds.reopen maxBytes
      obtain ⟨final, older', current', done, all, holds⟩ := ih holds times
      refine ⟨final, older', current', ?_, ?_, holds⟩
      · rw [LogRun.steps, stepped]
        exact done
      · rw [all, returned]
        rfl

/-- A log that starts without files can be used in any way, with any texts and at any times of
the calendar: what its appends return is what was wanted recorded, numbered from one; its file
is verified and has as many records as were appended since a file was moved aside; each file
aside is a chain of its own; and the files together hold the last of all records, and all of
them until a sixth file is moved aside. -/
theorem log_over_steps {d : Directory} {name : String} {steps : List LogStep} (maxBytes : Nat)
    (vacant : RejectionLog.Vacant d name)
    (times : ∀ request ∈ steps.filterMap LogStep.request?, request.1.InCalendar) :
    ∃ start final, opened d name maxBytes = .ok start ∧ start.steps steps = .ok final ∧
      final.returned.map Record.request = steps.filterMap LogStep.request? ∧
      Record.Numbered final.returned ∧
      final.log.verify = .ok final.sinceRotation ∧
      (∀ i < RejectionLog.keptFiles, ∃ rs,
        RejectionLog.recordsOf final.log.directory (RejectionLog.rotatedName name (i + 1)) =
            .ok rs ∧
          Record.verifyFrom chainStart rs = .ok rs.length) ∧
      ∃ kept, RejectionLog.keptRecords final.log.directory name = .ok kept ∧
        kept <:+ final.returned ∧
        (final.rotations ≤ RejectionLog.keptFiles → kept = final.returned) := by
  obtain ⟨start, started, nothing, holds⟩ := holds_opened maxBytes vacant
  obtain ⟨final, older, current, done, returned, holds⟩ := holds.steps times
  rw [nothing] at returned
  obtain ⟨gone, kept, few⟩ := holds.keeps.keptRecords_eq
  refine ⟨start, final, started, done, returned, holds.keeps.numbered, ?_, ?_, _, kept,
    List.drop_suffix gone _, fun most => ?_⟩
  · rw [holds.keeps.verify_eq, holds.sinceRotation]
  · exact fun i small => holds.keeps.chained_aside small
  · rw [few (holds.rotations ▸ most), List.drop_zero]

/-- Two records with a rotation between them, as the log is opened again without room. -/
def threeSteps : List LogStep := [
  .append (.ofSeconds 0) ⟨"ECHOECHO", "01", some 1, "line\nbreak", some "\""⟩,
  .reopen 0,
  .append (.ofSeconds 1) ⟨"ECHOECHO", "02", none, "nonce_replay", none⟩]

theorem log_over_threeSteps : ∃ start final,
    opened .empty "intake.log" 512 = .ok start ∧ start.steps threeSteps = .ok final ∧
      final.returned.length = 2 ∧ Record.Numbered final.returned ∧
      final.log.verify = .ok final.sinceRotation := by
  have vacant : RejectionLog.Vacant .empty "intake.log" := ⟨rfl, fun _ _ => rfl⟩
  have inCalendar {s : Int} (near : Instant.inRange s = true) : (Instant.ofSeconds s).InCalendar :=
    ⟨near, .inl (by decide : (0 : Nat) < 1000000000)⟩
  have times : ∀ request ∈ threeSteps.filterMap LogStep.request?, request.1.InCalendar :=
    List.forall_mem_cons.2
      ⟨inCalendar (by decide), List.forall_mem_singleton.2 (inCalendar (by decide))⟩
  obtain ⟨start, final, started, done, returned, numbered, verified, -⟩ :=
    log_over_steps 512 vacant times
  have counted := congrArg List.length returned
  rw [List.length_map] at counted
  exact ⟨start, final, started, done, counted, numbered, verified⟩

end LogRun

end SecureInbox
