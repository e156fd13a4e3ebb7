import SecureInbox.Proofs.Instant.Calendar

/-! # Instants read back

The written form of an instant is read as the instant (`ofText?_text`), for every instant that
has a written form (`InCalendar`), and all instants that are read have one
(`inCalendar_of_ofText?`).  So no two of them are written alike (`text_injective`). -/
set_option autoImplicit false

namespace SecureInbox.Instant

open Digits (isDigit)

/-! ## Rows of digits -/

theorem isDigit_iff {c : Char} : isDigit c = true ↔ 48 ≤ c.toNat ∧ c.toNat ≤ 57 := by
  simp only [isDigit, Bool.and_eq_true, decide_eq_true_eq, Char.le_def, UInt32.le_iff_toNat_le]
  rfl

theorem isDigit_of_mem_toDigits {n : Nat} {c : Char} (mem : c ∈ Nat.toDigits 10 n) :
    isDigit c = true := by
  have digit := Nat.isDigit_of_mem_toDigits (by decide) (by decide) mem
  simp only [Char.isDigit, Bool.and_eq_true, decide_eq_true_eq, ge_iff_le,
    UInt32.le_iff_toNat_le] at digit
  exact isDigit_iff.2 digit

theorem isBlank_of_isDigit {c : Char} (digit : isDigit c = true) : Text.isBlank c = false := by
  obtain ⟨low, high⟩ := isDigit_iff.1 digit
  simp only [Text.isBlank, Bool.or_eq_false_iff, Bool.and_eq_false_iff, decide_eq_false_iff_not,
    beq_eq_false_iff_ne]
  omega

theorem isDigit_of_mem_padded {width n : Nat} {c : Char} (mem : c ∈ padded width n) :
    isDigit c = true := by
  rcases List.mem_append.1 mem with zero | digit
  · rw [List.eq_of_mem_replicate zero]
    rfl
  · exact isDigit_of_mem_toDigits digit

theorem value_padded (width n : Nat) : Digits.value (padded width n) = n := by
  have zeros (k : Nat) : Digits.value (List.replicate k '0') = 0 := by
    induction k with
    | zero => rfl
    | succ k ih =>
      rw [List.replicate_succ', Digits.value_append_digit, ih]
      rfl
  have after : Digits.value (padded width n) =
      (Nat.toDigits 10 n).foldl (fun m c => 10 * m + (c.toNat - 48))
        (Digits.value (List.replicate (width - (Nat.toDigits 10 n).length) '0')) :=
    List.foldl_append
  rw [after, zeros]
  exact Nat.ofDigitChars_ten_toDigits

theorem length_padded {width n : Nat} (positive : 0 < width) (small : n < Nat.pow 10 width) :
    (padded width n).length = width := by
  have few : (Nat.toDigits 10 n).length ≤ width :=
    (Nat.length_toDigits_le_iff (by decide) positive).2 small
  simp only [padded, List.length_append, List.length_replicate]
  omega

/-- A padded number starts with a digit. -/
theorem padded_cons (width n : Nat) : ∃ c more, padded width n = c :: more ∧ isDigit c = true := by
  cases same : padded width n with
  | nil => exact absurd same (List.append_ne_nil_of_right_ne_nil _ Nat.toDigits_ne_nil)
  | cons c more => exact ⟨c, more, rfl, isDigit_of_mem_padded (same ▸ List.mem_cons_self)⟩

def EndsDigits (rest : List Char) : Prop := ∀ c more, rest = c :: more → isDigit c = false

theorem takeWhile_digits {digits rest : List Char} (all : ∀ c ∈ digits, isDigit c = true)
    (ends : EndsDigits rest) : (digits ++ rest).takeWhile isDigit = digits := by
  rw [List.takeWhile_append_of_pos all]
  cases rest with
  | nil => exact List.append_nil digits
  | cons c more =>
    rw [List.takeWhile_cons_of_neg (by rw [ends c more rfl]; decide), List.append_nil]

theorem dropWhile_digits {digits rest : List Char} (all : ∀ c ∈ digits, isDigit c = true)
    (ends : EndsDigits rest) : (digits ++ rest).dropWhile isDigit = rest := by
  rw [List.dropWhile_append_of_pos all]
  cases rest with
  | nil => rfl
  | cons c more => exact List.dropWhile_cons_of_neg (by rw [ends c more rfl]; decide)

theorem skipBlanks_cons {c : Char} (visible : Text.isBlank c = false) (more : List Char) :
    skipBlanks (c :: more) = c :: more :=
  List.dropWhile_cons_of_neg (by rw [visible]; decide)

theorem skipBlanks_padded (width n : Nat) (rest : List Char) :
    skipBlanks (padded width n ++ rest) = padded width n ++ rest := by
  obtain ⟨c, more, same, digit⟩ := padded_cons width n
  rw [same]
  exact skipBlanks_cons (isBlank_of_isDigit digit) _

/-- A number is read up to where its digits end, if they are not too many. -/
theorem number?_padded {most width n : Nat} {rest : List Char}
    (fits : (padded width n).length ≤ most) (ends : EndsDigits rest) :
    number? most (padded width n ++ rest) = some (n, rest) := by
  have front : ((padded width n ++ rest).take most).takeWhile isDigit = padded width n := by
    rw [List.take_append, List.take_of_length_le fits]
    refine takeWhile_digits (fun _ => isDigit_of_mem_padded) ?_
    intro c more same
    cases rest with
    | nil => simp at same
    | cons d others =>
      cases room : most - (padded width n).length with
      | zero => simp [room] at same
      | succ k =>
        rw [room, List.take_succ_cons] at same
        exact (List.cons.inj same).1 ▸ ends d others rfl
  obtain ⟨c, more, same, _⟩ := padded_cons width n
  simp only [number?, skipBlanks_padded, front, value_padded, List.drop_left]
  rw [same]
  rfl

theorem mark?_self {c : Char} (visible : Text.isBlank c = false) (rest : List Char) :
    mark? c (c :: rest) = some rest := by
  rw [mark?, skipBlanks_cons visible]
  exact if_pos rfl

/-! ## The parts of an instant -/

/-- A year after a sign takes all the digits there are. -/
theorem number?_year (n : Nat) {rest : List Char} (ends : EndsDigits rest) :
    (padded 4 n ++ rest).head?.any isDigit = true ∧
      number? (padded 4 n ++ rest).length (padded 4 n ++ rest) = some (n, rest) := by
  have fits : (padded 4 n).length ≤ (padded 4 n ++ rest).length := by
    rw [List.length_append]
    exact Nat.le_add_right _ _
  refine ⟨?_, number?_padded fits ends⟩
  obtain ⟨c, more, same, digit⟩ := padded_cons 4 n
  rw [same]
  exact digit

theorem year?_unsigned {c : Char} (digit : isDigit c = true) (more : List Char) :
    year? (c :: more) = (number? 4 (c :: more)).map fun r => ((r.1 : Int), r.2) := by
  rw [year?, skipBlanks_cons (isBlank_of_isDigit digit)]
  split
  · next same =>
    obtain ⟨rfl, _⟩ := List.cons.inj same
    cases digit
  · next same =>
    obtain ⟨rfl, _⟩ := List.cons.inj same
    cases digit
  · rfl

theorem year?_yearChars (year : Int) {rest : List Char} (ends : EndsDigits rest) :
    year? (yearChars year ++ rest) = some (year, rest) := by
  obtain ⟨first, whole⟩ := number?_year year.natAbs ends
  unfold yearChars
  by_cases plain : 0 ≤ year ∧ year ≤ 9999
  · have small : year.toNat < Nat.pow 10 4 := by
      show year.toNat < 10000
      omega
    have read := number?_padded (Nat.le_of_eq (length_padded (by decide) small)) ends
    have value : (year.toNat : Int) = year := Int.toNat_of_nonneg plain.1
    obtain ⟨c, more, same, digit⟩ := padded_cons 4 year.toNat
    rw [if_pos plain]
    rw [same, List.cons_append] at read ⊢
    rw [year?_unsigned digit, read, Option.map_some, value]
  · rw [if_neg plain]
    by_cases negative : year < 0
    · have value : -(year.natAbs : Int) = year := by omega
      rw [if_pos negative]
      show (if (padded 4 year.natAbs ++ rest).head?.any isDigit then
        (number? (padded 4 year.natAbs ++ rest).length (padded 4 year.natAbs ++ rest)).map
          fun r => (-(r.1 : Int), r.2) else none) = _
      rw [if_pos first, whole, Option.map_some, value]
    · have value : (year.natAbs : Int) = year := by omega
      rw [if_neg negative]
      show (if (padded 4 year.natAbs ++ rest).head?.any isDigit then
        (number? (padded 4 year.natAbs ++ rest).length (padded 4 year.natAbs ++ rest)).map
          fun r => ((r.1 : Int), r.2) else none) = _
      rw [if_pos first, whole, Option.map_some, value]

theorem fraction?_digits {width n : Nat} {rest : List Char} (positive : 0 < width)
    (most : width ≤ 9) (small : n < Nat.pow 10 width) (ends : EndsDigits rest) :
    fraction? ('.' :: (padded width n ++ rest)) = some (n * Nat.pow 10 (9 - width), rest) := by
  have all : ∀ c ∈ padded width n, isDigit c = true := fun _ => isDigit_of_mem_padded
  have digits := takeWhile_digits all ends
  have after := dropWhile_digits all ends
  have length := length_padded positive small
  have kept : (padded width n).take 9 = padded width n := List.take_of_length_le (by omega)
  obtain ⟨c, more, same, _⟩ := padded_cons width n
  have some : (padded width n).isEmpty = false := by
    rw [same]
    rfl
  simp only [fraction?, digits, after, kept, value_padded, length, some]
  rfl

/-- A fraction of a second is written in as many digits as it needs, in steps of three. -/
theorem fraction?_fractionChars {nanos : Nat} (small : nanos < 1000000000) :
    fraction? (fractionChars nanos ++ ['Z']) = some (nanos, ['Z']) := by
  have ends : EndsDigits ['Z'] := by
    rintro c more ⟨⟩
    rfl
  unfold fractionChars
  by_cases zero : nanos = 0
  · rw [if_pos zero, zero]
    rfl
  · rw [if_neg zero]
    by_cases millis : nanos % 1000000 = 0
    · have value : nanos / 1000000 * Nat.pow 10 (9 - 3) = nanos := by
        show nanos / 1000000 * 1000000 = nanos
        omega
      have few : nanos / 1000000 < Nat.pow 10 3 := by
        show _ < 1000
        omega
      rw [if_pos millis, List.cons_append, fraction?_digits (by decide) (by decide) few ends, value]
    · rw [if_neg millis]
      by_cases micros : nanos % 1000 = 0
      · have value : nanos / 1000 * Nat.pow 10 (9 - 6) = nanos := by
          show nanos / 1000 * 1000 = nanos
          omega
        have few : nanos / 1000 < Nat.pow 10 6 := by
          show _ < 1000000
          omega
        rw [if_pos micros, List.cons_append, fraction?_digits (by decide) (by decide) few ends,
          value]
      · have value : nanos * Nat.pow 10 (9 - 9) = nanos := Nat.mul_one nanos
        rw [if_neg micros, List.cons_append, fraction?_digits (by decide) (by decide) small ends,
          value]

/-! ## Instants -/

/-- An instant in the years that instants can have, with a fraction below a second, or in a leap
second at the end of a minute. -/
structure InCalendar (t : Instant) : Prop where
  inRange : inRange t.seconds = true
  nanos : t.nanos < 1000000000 ∨ t.seconds % 60 = 59 ∧ t.nanos < 2000000000

def partChars (year : Int) (month day hour minute second nanos : Nat) : List Char :=
  yearChars year ++ '-' :: (padded 2 month ++ '-' :: (padded 2 day ++ 'T' :: (padded 2 hour ++
    ':' :: (padded 2 minute ++ ':' :: (padded 2 second ++ (fractionChars nanos ++ ['Z']))))))

theorem number?_two {n : Nat} (small : n < 100) {rest : List Char} (ends : EndsDigits rest) :
    number? 2 (padded 2 n ++ rest) = some (n, rest) :=
  number?_padded (Nat.le_of_eq (length_padded (by decide) small)) ends

theorem endsDigits_cons {c : Char} (other : isDigit c = false) (rest : List Char) :
    EndsDigits (c :: rest) := by
  rintro d more ⟨⟩
  exact other

theorem endsDigits_fractionChars (nanos : Nat) : EndsDigits (fractionChars nanos ++ ['Z']) := by
  unfold fractionChars
  split
  · exact endsDigits_cons rfl []
  · split
    · exact endsDigits_cons rfl _
    · split <;> exact endsDigits_cons rfl _

/-- A date and a time of day in UTC are read as the instant that they are, if it is one.  The
second 60 is the second before it, a second longer. -/
theorem ofChars?_partChars {days year : Int} {month day hour minute second nanos : Nat}
    (date : IsDate days year month day) (years : -262143 ≤ year ∧ year ≤ 262142)
    (time : hour < 24 ∧ minute < 60 ∧ second ≤ 60) (fraction : nanos < 1000000000)
    (range : Instant.inRange (days * 86400 + hour * 3600 + minute * 60 + min (second : Int) 59)) :
    ofChars? (partChars year month day hour minute second nanos) =
      some ⟨days * 86400 + hour * 3600 + minute * 60 + min (second : Int) 59,
        nanos + (if second = 60 then 1 else 0) * 1000000000⟩ := by
  have hyphen : ∀ rest, EndsDigits ('-' :: rest) := endsDigits_cons rfl
  have letter : ∀ rest, EndsDigits ('T' :: rest) := endsDigits_cons rfl
  have colon : ∀ rest, EndsDigits (':' :: rest) := endsDigits_cons rfl
  have few : daysInMonth year month < 100 := by
    unfold daysInMonth
    split
    · split <;> decide
    · split <;> decide
  have dayFew : day < 100 := Nat.lt_of_le_of_lt date.day_le few
  have monthFew : month < 100 := Nat.lt_of_le_of_lt date.month_le (by decide)
  have hourFew : hour < 100 := by omega
  have minuteFew : minute < 100 := by omega
  have secondFew : second < 100 := by omega
  have offset : offset? (skipBlanks ['Z']) = some (0, []) := rfl
  have here (seconds : Int) : seconds - 0 = seconds := Int.sub_zero seconds
  have shorter : (second : Int) - (if second = 60 then 1 else 0 : Nat) = min (second : Int) 59 := by
    split <;> omega
  simp only [ofChars?, partChars, Option.bind_eq_bind, Option.bind_some,
    year?_yearChars _ (hyphen _), mark?_self (c := '-') rfl, mark?_self (c := ':') rfl,
    number?_two monthFew (hyphen _), number?_two dayFew (letter _), number?_two hourFew (colon _),
    number?_two minuteFew (colon _), number?_two secondFew (endsDigits_fractionChars _),
    fraction?_fractionChars fraction, true_or, if_true, offset, date.days_eq, shorter, here]
  rw [if_pos, if_pos range]
  exact ⟨rfl, ⟨date.month_pos, date.month_le, date.day_pos, date.day_le⟩,
    ⟨time.1, time.2.1, time.2.2, by decide⟩, years⟩

theorem chars_eq (t : Instant) : t.chars =
    partChars (dateOfDays (t.seconds / 86400)).1 (dateOfDays (t.seconds / 86400)).2.1
      (dateOfDays (t.seconds / 86400)).2.2 ((t.seconds % 86400).toNat / 3600)
      ((t.seconds % 86400).toNat / 60 % 60)
      ((t.seconds % 86400).toNat % 60 + t.nanos / 1000000000) (t.nanos % 1000000000) := by
  simp only [chars, partChars, List.append_assoc, List.cons_append]

theorem ofText?_text {t : Instant} (inCalendar : t.InCalendar) : ofText? t.text = some t := by
  obtain ⟨range, nanos⟩ := inCalendar
  have date := isDate_dateOfDays (t.seconds / 86400)
  have bounds := range
  simp only [Instant.inRange, Bool.and_eq_true, decide_eq_true_eq] at bounds
  have years := year_bounds (show _ ≤ t.seconds / 86400 by omega) (by omega)
  obtain ⟨clock, isClock⟩ : ∃ clock, clock = (t.seconds % 86400).toNat := ⟨_, rfl⟩
  have time : clock / 3600 < 24 ∧ clock / 60 % 60 < 60 ∧
      clock % 60 + t.nanos / 1000000000 ≤ 60 := by omega
  have seconds : t.seconds / 86400 * 86400 + (clock / 3600 : Nat) * 3600 +
      (clock / 60 % 60 : Nat) * 60 + min ((clock % 60 + t.nanos / 1000000000 : Nat) : Int) 59 =
      t.seconds := by omega
  have fraction : t.nanos % 1000000000 +
      (if clock % 60 + t.nanos / 1000000000 = 60 then 1 else 0) * 1000000000 = t.nanos := by
    split <;> omega
  rw [ofText?, text, String.toList_ofList, chars_eq, ← isClock,
    ofChars?_partChars date years time (Nat.mod_lt _ (by decide)) (seconds.symm ▸ range), seconds,
    fraction]

/-! ## What is read -/

theorem value_lt {digits : List Char} (all : ∀ c ∈ digits, isDigit c = true) :
    Digits.value digits < Nat.pow 10 digits.length := by
  have after : ∀ n, digits.foldl (fun n c => 10 * n + (c.toNat - 48)) n <
      (n + 1) * Nat.pow 10 digits.length := by
    induction digits with
    | nil => exact fun n => Nat.lt_of_lt_of_eq (Nat.lt_succ_self n) (Nat.mul_one _).symm
    | cons c rest ih =>
      intro n
      have small := (isDigit_iff.1 (all c List.mem_cons_self)).2
      have next := ih (fun d mem => all d (List.mem_cons_of_mem c mem)) (10 * n + (c.toNat - 48))
      have power : Nat.pow 10 (c :: rest).length = 10 * Nat.pow 10 rest.length := Nat.mul_comm _ _
      calc _ < (10 * n + (c.toNat - 48) + 1) * Nat.pow 10 rest.length := next
        _ ≤ ((n + 1) * 10) * Nat.pow 10 rest.length := Nat.mul_le_mul_right _ (by omega)
        _ = (n + 1) * Nat.pow 10 (c :: rest).length := by rw [power, Nat.mul_assoc]
  have whole := after 0
  rwa [Nat.zero_add, Nat.one_mul] at whole

theorem fraction?_lt {cs rest : List Char} {n : Nat} (read : fraction? cs = some (n, rest)) :
    n < 1000000000 := by
  unfold fraction? at read
  split at read
  · next more =>
    dsimp only at read
    split at read
    · cases read
    · obtain ⟨rfl, _⟩ := Prod.mk.inj (Option.some.inj read)
      obtain ⟨kept, isKept⟩ : ∃ kept, kept = (more.takeWhile isDigit).take 9 := ⟨_, rfl⟩
      have all : ∀ c ∈ kept, isDigit c = true := fun c mem =>
        List.all_eq_true.1 List.all_takeWhile c (List.mem_of_mem_take (isKept ▸ mem))
      have short : kept.length ≤ 9 := isKept ▸ List.length_take_le 9 _
      rw [← isKept]
      calc _ < Nat.pow 10 kept.length * Nat.pow 10 (9 - kept.length) :=
            Nat.mul_lt_mul_of_pos_right (value_lt all) (Nat.pow_pos (by decide))
        _ = 10 ^ (kept.length + (9 - kept.length)) := (Nat.pow_add 10 _ _).symm
        _ = 10 ^ 9 := by rw [Nat.add_sub_cancel' short]
  · obtain ⟨rfl, _⟩ := Prod.mk.inj (Option.some.inj read)
    decide

/-- An offset is a number of minutes. -/
theorem offset?_minutes {cs rest : List Char} {offset : Int}
    (read : offset? cs = some (offset, rest)) : offset % 60 = 0 := by
  unfold offset? at read
  split at read
  · cases read
    rfl
  · cases read
    rfl
  · split at read
    · cases read
      rfl
    · split at read
      · split at read
        · split at read
          · dsimp only at read
            split at read
            · obtain ⟨rfl, _⟩ := Prod.mk.inj (Option.some.inj read)
              split <;> omega
            · cases read
          · cases read
        · cases read
      · cases read
  · cases read

/-- The second 60 is only read at the end of a minute. -/
theorem inCalendar_of_ofText? {s : String} {t : Instant} (read : ofText? s = some t) :
    t.InCalendar := by
  simp only [ofText?, ofChars?, Option.bind_eq_bind, Option.bind_eq_some_iff] at read
  obtain ⟨_, _, _, _, ⟨day, _ | ⟨c, rest⟩⟩, _, read⟩ := read
  · cases read
  · dsimp only at read
    by_cases separated : c = 'T' ∨ c = 't' ∨ c = ' '
    · rw [if_pos separated, Option.bind_some] at read
      obtain ⟨_, _, read⟩ := Option.bind_eq_some_iff.1 read
      obtain ⟨_, _, read⟩ := Option.bind_eq_some_iff.1 read
      obtain ⟨_, _, read⟩ := Option.bind_eq_some_iff.1 read
      obtain ⟨_, fraction, read⟩ := Option.bind_eq_some_iff.1 read
      obtain ⟨_, offset, read⟩ := Option.bind_eq_some_iff.1 read
      have nanos := fraction?_lt fraction
      have minutes := offset?_minutes offset
      obtain ⟨_, read⟩ := Option.ite_none_right_eq_some.1 read
      obtain ⟨range, read⟩ := Option.ite_none_right_eq_some.1 read
      obtain rfl := Option.some.inj read
      refine ⟨range, ?_⟩
      dsimp only
      split <;> omega
    · rw [if_neg separated] at read
      cases read

/-- No two instants that can be read are written alike. -/
theorem text_injective {t u : Instant} (first : t.InCalendar) (second : u.InCalendar)
    (same : t.text = u.text) : t = u := by
  have read := ofText?_text first
  rw [same, ofText?_text second] at read
  exact (Option.some.inj read).symm

end SecureInbox.Instant
