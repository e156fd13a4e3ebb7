import SecureInbox.Proofs.Rejection.Chain

/-! # Files moved aside

Moving the kept files up by one gives each of them the content of the one before it, and what
was in the last one is gone (`read?_shift`).  A directory with the records of some files aside
and of the current one (`Files`) is kept in step with them when the current file is moved aside
(`Files.rotated`) and when a record is appended to it (`Files.appended`). -/
set_option autoImplicit false

namespace SecureInbox

namespace Directory

variable {d : Directory} {source target name : String}

theorem read?_rename_of_ne (notSource : name ≠ source) (notTarget : name ≠ target) :
    (d.rename source target).read? name = d.read? name := by
  unfold rename
  split
  · rfl
  · rw [read?_write_of_ne _ _ notTarget, read?_erase_of_ne _ notSource]

theorem read?_rename_source (other : source ≠ target) :
    (d.rename source target).read? source = none := by
  unfold rename
  split
  · next absent => exact absent
  · rw [read?_write_of_ne _ _ other, read?_erase_self]

theorem read?_rename_target (vacant : d.read? target = none) :
    (d.rename source target).read? target = d.read? source := by
  unfold rename
  split
  · next absent => rw [absent]; exact vacant
  · next held => rw [read?_write_self, held]

end Directory

namespace RejectionLog

variable {name : String} {d : Directory} {older : List (List Record)} {current : List Record}

theorem rotatedName_inj {i j : Nat} (same : rotatedName name i = rotatedName name j) : i = j := by
  have chars := congrArg String.toList same
  simp only [rotatedName, String.toList_append, List.append_cancel_left_eq] at chars
  have digits : Nat.toDigits 10 i = Nat.toDigits 10 j := by
    have written (n : Nat) : (toString n).toList = Nat.toDigits 10 n := String.toList_ofList
    rw [← written, ← written, chars]
  have values := congrArg (Nat.ofDigitChars 10 · 0) digits
  simpa only [Nat.ofDigitChars_ten_toDigits] using values

theorem rotatedName_ne (name : String) (i : Nat) : name ≠ rotatedName name i := by
  intro same
  have lengths := congrArg String.length same
  simp only [rotatedName, String.length_append] at lengths
  have dot : ".".length = 1 := rfl
  omega

/-- Each file is moved to the next index, the first of which has no file then. -/
theorem read?_shift {n : Nat} (below : n < keptFiles)
    (vacant : d.read? (rotatedName name (n + 1)) = none) :
    (shift name n d).read? (rotatedName name 1) = none ∧
      (∀ i < n, (shift name n d).read? (rotatedName name (i + 2)) =
        d.read? (rotatedName name (i + 1))) ∧
      ∀ f, (∀ i ≤ n, f ≠ rotatedName name (i + 1)) → (shift name n d).read? f = d.read? f := by
  induction n generalizing d with
  | zero => exact ⟨vacant, nofun, fun _ _ => rfl⟩
  | succ n ih =>
    have apart {i j : Nat} (other : i ≠ j) : rotatedName name i ≠ rotatedName name j :=
      fun same => other (rotatedName_inj same)
    have source := Directory.read?_rename_source (d := d) (apart (show n + 1 ≠ n + 2 by omega))
    have target : (d.rename (rotatedName name (n + 1)) (rotatedName name (n + 2))).read?
        (rotatedName name (n + 2)) = d.read? (rotatedName name (n + 1)) :=
      Directory.read?_rename_target vacant
    have step : shift name (n + 1) d =
        shift name n (d.rename (rotatedName name (n + 1)) (rotatedName name (n + 2))) := by
      rw [shift, if_neg (Nat.ne_of_lt below)]
    obtain ⟨first, moved, kept⟩ := ih (Nat.lt_of_succ_lt below) source
    rw [step]
    refine ⟨first, fun i small => ?_, fun f free => ?_⟩
    · rcases Nat.lt_succ_iff_lt_or_eq.1 small with small | rfl
      · rw [moved i small, Directory.read?_rename_of_ne (apart (by omega)) (apart (by omega))]
      · rw [kept _ fun j least => apart (by omega), target]
    · rw [kept f fun i least => free i (by omega),
        Directory.read?_rename_of_ne (free n (by omega)) (free (n + 1) (by omega))]

/-- Whether the files of a log hold just the lines of some records: those moved aside, the
latest file first, and those of the current file, which is there once it has a record. -/
structure Files (name : String) (d : Directory) (older : List (List Record))
    (current : List Record) : Prop where
  file : d.read? name = if current = [] then none else some (current.flatMap Record.line)
  aside : ∀ i < keptFiles, d.read? (rotatedName name (i + 1)) =
    older[i]?.map fun rs => rs.flatMap Record.line

namespace Files

theorem rotated (files : Files name d older current) (written : current ≠ []) :
    Files name ((shift name keptFiles d).rename name (rotatedName name 1)) (current :: older)
      [] := by
  have start : shift name keptFiles d = shift name 4 (d.erase (rotatedName name 5)) := rfl
  obtain ⟨first, moved, kept⟩ := read?_shift (by decide : 4 < keptFiles)
    (Directory.read?_erase_self d (rotatedName name 5))
  rw [← start] at first moved kept
  have apart {i j : Nat} (other : i ≠ j) : rotatedName name i ≠ rotatedName name j :=
    fun same => other (rotatedName_inj same)
  refine ⟨Directory.read?_rename_source (rotatedName_ne name 1), fun i small => ?_⟩
  cases i with
  | zero =>
    rw [Directory.read?_rename_target first, kept name fun i _ => rotatedName_ne name (i + 1),
      Directory.read?_erase_of_ne d (rotatedName_ne name 5), files.file, if_neg written]
    rfl
  | succ i =>
    have small : i < 4 := Nat.succ_lt_succ_iff.1 small
    rw [Directory.read?_rename_of_ne (rotatedName_ne name _).symm (apart (by omega)),
      moved i small, Directory.read?_erase_of_ne d (apart (by omega)),
      files.aside i (Nat.lt_succ_of_lt small), List.getElem?_cons_succ]

theorem appended (files : Files name d older current) (r : Record) :
    Files name (d.append name r.line) older (current ++ [r]) := by
  refine ⟨?_, fun i small => ?_⟩
  · have held : (d.read? name).getD [] = current.flatMap Record.line := by
      rw [files.file]
      split
      · next empty => rw [empty]; rfl
      · rfl
    rw [Directory.append, Directory.read?_write_self, held, if_neg (by simp), List.flatMap_append,
      List.flatMap_singleton]
  · rw [Directory.append, Directory.read?_write_of_ne _ _ (rotatedName_ne name _).symm,
      files.aside i small]

theorem recordsOf_file (files : Files name d older current)
    (times : ∀ r ∈ current, r.time.InCalendar) : recordsOf d name = .ok current := by
  by_cases empty : current = []
  · rw [recordsOf, files.file, if_pos empty, empty]
  · exact recordsOf_lines (by rw [files.file, if_neg empty]) times

theorem recordsOf_aside (files : Files name d older current)
    (times : ∀ rs ∈ older, ∀ r ∈ rs, r.time.InCalendar) {i : Nat} (small : i < keptFiles) :
    recordsOf d (rotatedName name (i + 1)) = .ok (older[i]?.getD []) := by
  cases held : older[i]? with
  | none => rw [recordsOf, files.aside i small, held]; rfl
  | some rs =>
    refine recordsOf_lines ?_ (times rs (List.mem_of_getElem? held))
    rw [files.aside i small, held]
    rfl

end Files

/-! ## The records of all files -/

/-- The records of the files up to an index, those of the highest index first. -/
def asideRecords (d : Directory) (name : String) : Nat → Except StoreError (List Record)
  | 0 => .ok []
  | index + 1 => do
    let records ← recordsOf d (rotatedName name (index + 1))
    return records ++ (← asideRecords d name index)

/-- The records of all files that are kept, from the oldest file to the current one. -/
def keptRecords (d : Directory) (name : String) : Except StoreError (List Record) := do
  let aside ← asideRecords d name keptFiles
  return aside ++ (← recordsOf d name)

namespace Files

theorem asideRecords_eq (files : Files name d older current)
    (times : ∀ rs ∈ older, ∀ r ∈ rs, r.time.InCalendar) {n : Nat} (most : n ≤ keptFiles) :
    asideRecords d name n = .ok (older.take n).reverse.flatten := by
  induction n with
  | zero => rfl
  | succ n ih =>
    rw [asideRecords, files.recordsOf_aside times most, ih (Nat.le_of_succ_le most),
      List.take_add_one, List.reverse_append, List.flatten_append]
    cases older[n]? <;> simp [pure, Except.pure, bind, Except.bind]

theorem keptRecords_eq (files : Files name d older current)
    (times : ∀ rs ∈ older, ∀ r ∈ rs, r.time.InCalendar)
    (times' : ∀ r ∈ current, r.time.InCalendar) :
    keptRecords d name = .ok ((older.take keptFiles).reverse.flatten ++ current) := by
  rw [keptRecords, files.asideRecords_eq times (Nat.le_refl _), files.recordsOf_file times']
  rfl

end Files

end RejectionLog

end SecureInbox
