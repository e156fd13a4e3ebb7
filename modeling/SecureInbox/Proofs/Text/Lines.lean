import SecureInbox.Text.Blank

/-! # Lines that were ended

Pieces without line feeds, each ended by one, are split into the same pieces again
(`byteLines_ended`), as long as none of them ends with a carriage return, which would be taken
for a part of its line end.  The lines of a text are its first line without a carriage return
at its end, and the lines of what follows (`lines_append`).  A line that is put behind bytes goes
on where their last line has no end yet (`byteLines_append_line`). -/
set_option autoImplicit false

namespace SecureInbox.Text

variable {α : Type} [DecidableEq α]

theorem splitOn_append {separator : α} {piece : List α} (free : separator ∉ piece)
    (rest : List α) : splitOn separator (piece ++ separator :: rest) =
      piece :: splitOn separator rest := by
  induction piece with
  | nil => exact if_pos rfl
  | cons c more ih =>
    have other : separator ≠ c := List.ne_of_not_mem_cons free
    rw [List.cons_append, splitOn, if_neg (Ne.symm other), ih (List.not_mem_of_not_mem_cons free)]

theorem splitOn_ne_nil (separator : α) (cs : List α) : splitOn separator cs ≠ [] := by
  cases cs with
  | nil => exact List.cons_ne_nil _ _
  | cons c rest =>
    rw [splitOn]
    split
    · exact List.cons_ne_nil _ _
    · split <;> exact List.cons_ne_nil _ _

theorem splitOn_of_free {separator : α} {piece : List α} (free : separator ∉ piece) :
    splitOn separator piece = [piece] := by
  induction piece with
  | nil => rfl
  | cons c more ih =>
    have other : separator ≠ c := List.ne_of_not_mem_cons free
    rw [splitOn, if_neg (Ne.symm other), ih (List.not_mem_of_not_mem_cons free)]

/-- Lists are the same if they are the same in front of their first separators and behind them. -/
theorem append_inj_of_free {separator : α} {front front' back back' : List α}
    (free : separator ∉ front) (free' : separator ∉ front')
    (same : front ++ separator :: back = front' ++ separator :: back') :
    front = front' ∧ back = back' := by
  have pieces := congrArg (splitOn separator) same
  rw [splitOn_append free, splitOn_append free'] at pieces
  obtain rfl := (List.cons.inj pieces).1
  exact ⟨rfl, (List.cons.inj (List.append_cancel_left same)).2⟩

/-- What holds of every piece, and of a list if it holds of all that follows its first
separator, holds of every list. -/
@[elab_as_elim]
theorem pieces_induction (separator : α) {motive : List α → Prop}
    (last : ∀ piece, separator ∉ piece → motive piece)
    (more : ∀ piece rest, separator ∉ piece → motive rest → motive (piece ++ separator :: rest))
    (cs : List α) : motive cs := by
  by_cases inside : separator ∈ cs
  · obtain ⟨piece, rest, rfl, free⟩ := List.eq_append_cons_of_mem inside
    exact more piece rest free (pieces_induction separator last more rest)
  · exact last cs inside
termination_by cs.length
decreasing_by
  subst cs
  simp only [List.length_append, List.length_cons]
  omega

theorem free_of_mem_splitOn {separator : α} {piece cs : List α}
    (mem : piece ∈ splitOn separator cs) : separator ∉ piece := by
  induction cs using pieces_induction separator with
  | last line free =>
    rw [splitOn_of_free free, List.mem_singleton] at mem
    exact mem ▸ free
  | more line rest free ih =>
    rw [splitOn_append free] at mem
    rcases List.mem_cons.1 mem with rfl | mem
    · exact free
    · exact ih mem

theorem splitOn_ended {separator : α} {pieces : List (List α)}
    (free : ∀ piece ∈ pieces, separator ∉ piece) :
    splitOn separator (pieces.flatMap (· ++ [separator])) = pieces ++ [[]] := by
  induction pieces with
  | nil => rfl
  | cons piece rest ih =>
    have others := ih fun p mem => free p (List.mem_cons_of_mem piece mem)
    rw [List.flatMap_cons, List.append_assoc, List.singleton_append,
      splitOn_append (free piece List.mem_cons_self), others, List.cons_append]

theorem closeLines_cons {carriageReturn : α} (line : List α) {rest : List (List α)}
    (more : rest ≠ []) : closeLines carriageReturn (line :: rest) =
      dropLast? carriageReturn line :: closeLines carriageReturn rest := by
  obtain ⟨next, others, rfl⟩ := List.exists_cons_of_ne_nil more
  rw [closeLines]
  exact more

theorem dropLast?_eq_self_iff {c : α} {cs : List α} :
    dropLast? c cs = cs ↔ cs.getLast? ≠ some c := by
  unfold dropLast?
  split
  · next ends =>
    refine ⟨fun same => ?_, fun other => absurd ends other⟩
    have shorter := congrArg List.length same
    rw [List.length_dropLast] at shorter
    have none : cs = [] := List.length_eq_zero_iff.1 (by omega)
    rw [none] at ends
    cases ends
  · next other => exact ⟨fun _ => other, fun _ => rfl⟩

theorem mem_of_mem_dropLast? {c d : α} {cs : List α} (mem : d ∈ dropLast? c cs) : d ∈ cs := by
  unfold dropLast? at mem
  split at mem
  · exact List.dropLast_subset cs mem
  · exact mem

theorem free_of_mem_closeLines {separator carriageReturn : α} {pieces : List (List α)}
    (free : ∀ piece ∈ pieces, separator ∉ piece) {line : List α}
    (mem : line ∈ closeLines carriageReturn pieces) : separator ∉ line := by
  induction pieces with
  | nil => cases mem
  | cons piece rest ih =>
    have others := ih fun p mem => free p (List.mem_cons_of_mem piece mem)
    have first := free piece List.mem_cons_self
    by_cases last : rest = []
    · subst last
      rw [closeLines] at mem
      split at mem
      · cases mem
      · exact List.mem_singleton.1 mem ▸ first
    · rw [closeLines_cons piece last] at mem
      rcases List.mem_cons.1 mem with rfl | mem
      · exact fun inside => first (mem_of_mem_dropLast? inside)
      · exact others mem

theorem closeLines_ended {carriageReturn : α} {lines : List (List α)}
    (plain : ∀ line ∈ lines, line.getLast? ≠ some carriageReturn) :
    closeLines carriageReturn (lines ++ [[]]) = lines := by
  induction lines with
  | nil => rfl
  | cons line rest ih =>
    have others := ih fun l mem => plain l (List.mem_cons_of_mem line mem)
    have more : rest ++ [[]] ≠ [] := List.append_ne_nil_of_right_ne_nil rest (List.cons_ne_nil [] [])
    rw [List.cons_append, closeLines_cons line more, others,
      dropLast?_eq_self_iff.2 (plain line List.mem_cons_self)]

/-- Lines of bytes, each with its line end behind it, are read as these lines. -/
theorem byteLines_ended {lines : List Bytes}
    (plain : ∀ line ∈ lines, 0x0A ∉ line ∧ line.getLast? ≠ some 0x0D) :
    byteLines (lines.flatMap (· ++ [0x0A])) = lines := by
  rw [byteLines, splitOn_ended fun line mem => (plain line mem).1,
    closeLines_ended fun line mem => (plain line mem).2]

/-! ## The lines of a text -/

theorem lines_of_free {cs : List Char} (free : '\n' ∉ cs) :
    lines cs = if cs = [] then [] else [cs] := by
  rw [lines, splitOn_of_free free]
  cases cs <;> rfl

theorem lines_append {line : List Char} (free : '\n' ∉ line) (rest : List Char) :
    lines (line ++ '\n' :: rest) = dropLast? '\r' line :: lines rest := by
  rw [lines, splitOn_append free, closeLines_cons line (splitOn_ne_nil _ rest)]
  rfl

theorem free_of_mem_lines {line cs : List Char} (mem : line ∈ lines cs) : '\n' ∉ line :=
  free_of_mem_closeLines (fun _ => free_of_mem_splitOn) mem

theorem lines_eq_nil {cs : List Char} : lines cs = [] ↔ cs = [] := by
  induction cs using pieces_induction '\n' with
  | last line free =>
    rw [lines_of_free free]
    split <;> simp_all
  | more line rest free ih =>
    rw [lines_append free]
    simp

/-! ## A line put behind others -/

theorem splitOn_append_separator (separator : α) (front back : List α) :
    splitOn separator (front ++ separator :: back) =
      splitOn separator front ++ splitOn separator back := by
  induction front using pieces_induction separator with
  | last piece free => rw [splitOn_append free, splitOn_of_free free, List.singleton_append]
  | more piece rest free ih =>
    rw [List.append_assoc, List.cons_append, splitOn_append free, splitOn_append free, ih,
      List.cons_append]

/-- What has no separator goes on with the last piece of what stands before it. -/
theorem splitOn_append_of_free {separator : α} {back : List α} (free : separator ∉ back)
    {cs last : List α} {front : List (List α)} (pieces : splitOn separator cs = front ++ [last]) :
    splitOn separator (cs ++ back) = front ++ [last ++ back] := by
  induction cs using pieces_induction separator generalizing front with
  | last piece inner =>
    rw [splitOn_of_free inner, ← List.nil_append [piece]] at pieces
    obtain ⟨rfl, same⟩ := List.append_inj' pieces rfl
    obtain rfl := List.singleton_inj.1 same
    rw [splitOn_of_free, List.nil_append]
    rw [List.mem_append]
    exact not_or.2 ⟨inner, free⟩
  | more piece rest inner ih =>
    rw [splitOn_append inner] at pieces
    rcases List.cons_eq_append_iff.1 pieces with ⟨rfl, same⟩ | ⟨others, rfl, same⟩
    · exact absurd (List.cons.inj same).2.symm (splitOn_ne_nil separator rest)
    · rw [List.append_assoc, List.cons_append, splitOn_append inner, ih same]
      rfl

theorem closeLines_concat (carriageReturn : α) (front : List (List α)) (last : List α) :
    closeLines carriageReturn (front ++ [last]) =
      front.map (dropLast? carriageReturn) ++ if last.isEmpty then [] else [last] := by
  induction front with
  | nil => rfl
  | cons line rest ih =>
    have more : rest ++ [last] ≠ [] := List.append_ne_nil_of_right_ne_nil rest (List.cons_ne_nil _ _)
    rw [List.cons_append, closeLines_cons line more, ih]
    rfl

def endedLines (bytes : Bytes) : List Bytes := (splitOn 0x0A bytes).dropLast.map (dropLast? 0x0D)

/-- What stands behind the last line end. -/
def unended (bytes : Bytes) : Bytes := (splitOn 0x0A bytes).getLast (splitOn_ne_nil 0x0A bytes)

theorem splitOn_eq_concat (bytes : Bytes) :
    splitOn 0x0A bytes = (splitOn 0x0A bytes).dropLast ++ [unended bytes] :=
  (List.dropLast_concat_getLast (splitOn_ne_nil 0x0A bytes)).symm

theorem byteLines_eq (bytes : Bytes) : byteLines bytes =
    endedLines bytes ++ if (unended bytes).isEmpty then [] else [unended bytes] := by
  rw [byteLines, splitOn_eq_concat bytes, closeLines_concat, endedLines]

/-- A line that is put behind bytes goes on with what their last line end leaves over. -/
theorem byteLines_append_line (bytes : Bytes) {line : Bytes} (free : 0x0A ∉ line)
    (plain : line.getLast? ≠ some 0x0D) (written : line ≠ []) :
    byteLines (bytes ++ (line ++ [0x0A])) = endedLines bytes ++ [unended bytes ++ line] := by
  have ended : (unended bytes ++ line).getLast? ≠ some 0x0D := by
    rw [List.getLast?_append, List.getLast?_eq_some_getLast written, Option.some_or]
    rwa [List.getLast?_eq_some_getLast written] at plain
  rw [byteLines, ← List.append_assoc, splitOn_append_separator,
    splitOn_append_of_free free (splitOn_eq_concat bytes), splitOn, closeLines_concat,
    List.map_append, List.map_singleton, dropLast?_eq_self_iff.2 ended, endedLines]
  exact List.append_nil _

/-! ## Blanks -/

theorem mem_dropWhile {β : Type} {p : β → Bool} {cs : List β} {c : β} (mem : c ∈ cs)
    (other : p c = false) : c ∈ cs.dropWhile p := by
  rw [← List.takeWhile_append_dropWhile (p := p) (l := cs)] at mem
  rcases List.mem_append.1 mem with taken | left
  · have holds := List.all_eq_true.1 List.all_takeWhile c taken
    rw [other] at holds
    cases holds
  · exact left

theorem dropWhile_ne_nil {β : Type} {p : β → Bool} {cs : List β} {c : β} (mem : c ∈ cs)
    (other : p c = false) : cs.dropWhile p ≠ [] := List.ne_nil_of_mem (mem_dropWhile mem other)

/-- A text with anything but blanks in it is not trimmed away. -/
theorem trimChars_ne_nil_of_mem {cs : List Char} {c : Char} (mem : c ∈ cs)
    (visible : isBlank c = false) : trimChars cs ≠ [] := by
  have behind := List.mem_reverse.2 (mem_dropWhile mem visible)
  exact List.reverse_ne_nil_iff.2 (dropWhile_ne_nil behind visible)

/-- A text without blanks is not trimmed. -/
theorem trimChars_of_visible {cs : List Char} (visible : ∀ c ∈ cs, isBlank c = false) :
    trimChars cs = cs := by
  have whole : ∀ ds : List Char, (∀ c ∈ ds, isBlank c = false) → ds.dropWhile isBlank = ds := by
    intro ds visible
    cases ds with
    | nil => rfl
    | cons d more =>
      exact List.dropWhile_cons_of_neg (by rw [visible d List.mem_cons_self]; decide)
  rw [trimChars, whole cs visible, whole, List.reverse_reverse]
  exact fun c mem => visible c (List.mem_reverse.1 mem)

/-- A text that starts with anything but a blank is not trimmed away. -/
theorem trimChars_ne_nil {c : Char} (visible : isBlank c = false) (more : List Char) :
    trimChars (c :: more) ≠ [] := trimChars_ne_nil_of_mem List.mem_cons_self visible

end SecureInbox.Text
