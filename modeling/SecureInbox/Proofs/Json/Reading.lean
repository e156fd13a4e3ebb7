import SecureInbox.Json.Parser
import SecureInbox.Json.Printer
import SecureInbox.Proofs.Text.Utf8

/-! # Reading what was written

A value whose numbers are whole and fit sixty-four bits is written as a text that is read as
the value again (`parse?_compact`).  A string is read character by character, whichever way
each of them is escaped (`escapeChar_parts`); a number is read digit by digit, up to the sign
that closes it (`numeral?_int`); and a value is read by recursion on the value, with as much
fuel as its text has characters (`read?_compact`). -/
set_option autoImplicit false

namespace SecureInbox.Json

open Text (charBytes charBytes_append charBytes_ascii)

/-! ## Strings -/

/-- Parts that denote a character, whatever parts come after them. -/
def Denote (parts : List StringPart) (c : Char) : Prop :=
  ∀ more, partBytes? (parts ++ more) = (partBytes? more).map (String.utf8EncodeChar c ++ ·)

theorem partBytes?_bytes (bytes : Bytes) (more : List StringPart) :
    partBytes? (bytes.map .byte ++ more) = (partBytes? more).map (bytes ++ ·) := by
  induction bytes with
  | nil => simp
  | cons b rest ih =>
    simp only [List.map_cons, List.cons_append, partBytes?, ih, Option.map_map]
    rfl

theorem denote_bytes (c : Char) : Denote ((String.utf8EncodeChar c).map .byte) c :=
  partBytes?_bytes _

/-- A unit that is no surrogate does not look at the part behind it. -/
theorem denote_unit {c : Char} (low : c.toNat < 0xD800) : Denote [.unit c.toNat] c := by
  have notHigh : ¬ (0xD800 ≤ c.toNat ∧ c.toNat ≤ 0xDBFF) := by omega
  have notLow : ¬ (0xDC00 ≤ c.toNat ∧ c.toNat ≤ 0xDFFF) := by omega
  have notAny : ¬ (0xD800 ≤ c.toNat ∧ c.toNat ≤ 0xDFFF) := by omega
  intro more
  match more with
  | [] => simp [partBytes?, notAny]
  | .byte b :: more => simp [partBytes?, notAny]
  | .unit u :: more =>
    simp only [List.cons_append, List.nil_append, partBytes?, if_neg notHigh, if_neg notLow,
      Char.ofNat_toNat]

def IsPlain (b : UInt8) : Prop := 0x20 ≤ b.toNat ∧ b ≠ 0x22 ∧ b ≠ 0x5C

theorem stringParts?_plain {b : UInt8} (plain : IsPlain b) (done : List StringPart) (rest : Bytes) :
    stringParts? done (b :: rest) = stringParts? (.byte b :: done) rest := by
  obtain ⟨visible, noQuote, noEscape⟩ := plain
  have low : ¬ b < 0x20 := fun low =>
    absurd (UInt8.lt_iff_toNat_lt.1 low) (Nat.not_lt_of_le visible)
  rw [stringParts?.eq_def]
  split
  · contradiction
  · next same => exact absurd (List.cons.inj same).1 noQuote
  · next same => exact absurd (List.cons.inj same).1 noEscape
  · next same => exact absurd (List.cons.inj same).1 noEscape
  · next same =>
    obtain ⟨rfl, rfl⟩ := List.cons.inj same
    rw [if_neg (not_or.2 ⟨low, noEscape⟩)]

theorem stringParts?_bytes {bytes : Bytes} (plain : ∀ b ∈ bytes, IsPlain b)
    (done : List StringPart) (rest : Bytes) :
    stringParts? done (bytes ++ rest) = stringParts? ((bytes.map .byte).reverse ++ done) rest := by
  induction bytes generalizing done with
  | nil => rfl
  | cons b more ih =>
    rw [List.cons_append, stringParts?_plain (plain b List.mem_cons_self),
      ih fun other mem => plain other (List.mem_cons_of_mem b mem)]
    simp

theorem hexDigit?_digit {n : Nat} (small : n < 16) :
    hexDigit? (UInt8.ofNat (Hex.digit n).toNat) = some n := by
  have all : ∀ m : Fin 16, hexDigit? (UInt8.ofNat (Hex.digit m.val).toNat) = some m.val := by
    decide
  exact all ⟨n, small⟩

theorem digit_ascii {n : Nat} (small : n < 16) : (Hex.digit n).toNat < 128 := by
  have all : ∀ m : Fin 16, (Hex.digit m.val).toNat < 128 := by decide
  exact all ⟨n, small⟩

theorem plain_of_mem {c : Char} (visible : 0x20 ≤ c.toNat) (noQuote : c ≠ '"')
    (noEscape : c ≠ '\\') {b : UInt8} (mem : b ∈ String.utf8EncodeChar c) : IsPlain b := by
  by_cases ascii : c.toNat < 128
  · rw [Text.utf8EncodeChar_ascii ascii, List.mem_singleton] at mem
    have value : b.toNat = c.toNat := by
      rw [mem]
      exact UInt8.toNat_ofNat_of_lt' (Nat.lt_trans ascii (by decide))
    refine ⟨by omega, ?_, ?_⟩
    · rintro rfl
      exact noQuote (Char.toNat_inj.1 value.symm)
    · rintro rfl
      exact noEscape (Char.toNat_inj.1 value.symm)
  · have high := Text.high_of_mem_utf8EncodeChar (Nat.le_of_not_lt ascii) mem
    refine ⟨by omega, ?_, ?_⟩ <;> rintro rfl <;> exact absurd high (by decide)

/-- A character below 32 that is written by its number. -/
theorem stringParts?_number {n : Nat} (control : n < 0x20) (done : List StringPart) (rest : Bytes) :
    stringParts? done (0x5C :: 0x75 :: 0x30 :: 0x30 ::
      (charBytes [Hex.digit (n / 16), Hex.digit (n % 16)] ++ rest)) =
      stringParts? (.unit n :: done) rest := by
  have upper : n / 16 < 16 := by omega
  have lower : n % 16 < 16 := by omega
  have zero : hexDigit? 0x30 = some 0 := by decide
  have whole : ((16 * 0 + 0) * 16 + n / 16) * 16 + n % 16 = n := by omega
  rw [charBytes_ascii (digit_ascii upper), charBytes_ascii (digit_ascii lower)]
  show stringParts? done (0x5C :: 0x75 :: 0x30 :: 0x30 :: _ :: _ :: rest) = _
  simp only [stringParts?, zero, hexDigit?_digit upper, hexDigit?_digit lower, whole]

theorem escapeChar_parts (c : Char) : ∃ parts, Denote parts c ∧ ∀ done rest,
    stringParts? done (charBytes (escapeChar c) ++ rest) =
      stringParts? (parts.reverse ++ done) rest := by
  unfold escapeChar
  split
  -- The seven characters with an escape of their own.
  iterate 7 exact ⟨_, denote_bytes _, fun done rest => rfl⟩
  next noQuote noEscape _ _ _ _ _ =>
    by_cases control : c.toNat < 0x20
    · rw [if_pos control]
      exact ⟨_, denote_unit (Nat.lt_trans control (by decide)), stringParts?_number control⟩
    · rw [if_neg control, charBytes, List.flatMap_singleton]
      have plain : ∀ b ∈ String.utf8EncodeChar c, IsPlain b := fun b =>
        plain_of_mem (Nat.le_of_not_lt control) noQuote noEscape
      exact ⟨_, denote_bytes c, stringParts?_bytes plain⟩

theorem stringParts?_chars (cs : List Char) : ∃ parts, partBytes? parts = some (charBytes cs) ∧
    ∀ done rest, stringParts? done (charBytes (cs.flatMap escapeChar) ++ 0x22 :: rest) =
      some (done.reverse ++ parts, rest) := by
  induction cs with
  | nil => exact ⟨[], rfl, fun done rest => by simp [charBytes, stringParts?]⟩
  | cons c more ih =>
    obtain ⟨parts, bytes, read⟩ := ih
    obtain ⟨first, denote, readFirst⟩ := escapeChar_parts c
    refine ⟨first ++ parts, ?_, fun done rest => ?_⟩
    · rw [denote, bytes]
      rfl
    · rw [List.flatMap_cons, charBytes_append, List.append_assoc, readFirst, read]
      simp

theorem stringParts?_string (s : String) : ∃ parts, partsText? parts = some s ∧
    ∀ rest, stringParts? [] (charBytes (s.toList.flatMap escapeChar) ++ 0x22 :: rest) =
      some (parts, rest) := by
  obtain ⟨parts, bytes, read⟩ := stringParts?_chars s.toList
  refine ⟨parts, ?_, read []⟩
  have whole : charBytes s.toList = Text.utf8 s := (Text.utf8_eq_flatMap s).symm
  rw [partsText?, bytes, whole]
  exact Text.ofUtf8?_utf8 s

/-! ## Whole numbers -/

def digitByte (d : Nat) : UInt8 := UInt8.ofNat (48 + d)

theorem toNat_digitByte {d : Nat} (small : d < 10) : (digitByte d).toNat = 48 + d :=
  UInt8.toNat_ofNat_of_lt' (Nat.lt_of_lt_of_le (Nat.add_lt_add_left small 48) (by decide))

theorem isDigitByte_digitByte {d : Nat} (small : d < 10) : isDigitByte (digitByte d) = true := by
  have all : ∀ m : Fin 10, isDigitByte (digitByte m.val) = true := by decide
  exact all ⟨d, small⟩

theorem digitByte_ne {d : Nat} (small : d < 10) {b : UInt8} (other : isDigitByte b = false) :
    digitByte d ≠ b := by
  rintro rfl
  rw [isDigitByte_digitByte small] at other
  cases other

theorem charBytes_digitChar {d : Nat} (small : d < 10) :
    charBytes [d.digitChar] = [digitByte d] := by
  have all : ∀ m : Fin 10, charBytes [m.val.digitChar] = [digitByte m.val] := by decide
  exact all ⟨d, small⟩

def digitBytes (n : Nat) : Bytes := charBytes (Nat.toDigits 10 n)

theorem digitBytes_of_lt {n : Nat} (small : n < 10) : digitBytes n = [digitByte n] := by
  rw [digitBytes, Nat.toDigits_of_lt_base small, charBytes_digitChar small]

theorem digitBytes_of_le {n : Nat} (large : 10 ≤ n) :
    digitBytes n = digitBytes (n / 10) ++ [digitByte (n % 10)] := by
  rw [digitBytes, Nat.toDigits_of_base_le (by decide) large, charBytes_append,
    charBytes_digitChar (Nat.mod_lt n (by decide))]
  rfl

theorem isDigitByte_of_mem_digitBytes (n : Nat) : ∀ b ∈ digitBytes n, isDigitByte b = true := by
  induction n using Nat.strongRecOn with
  | ind n ih =>
    by_cases small : n < 10
    · rw [digitBytes_of_lt small]
      simp [isDigitByte_digitByte small]
    · rw [digitBytes_of_le (Nat.le_of_not_lt small)]
      intro b mem
      rcases List.mem_append.1 mem with front | last
      · exact ih (n / 10) (by omega) b front
      · rw [List.mem_singleton.1 last]
        exact isDigitByte_digitByte (Nat.mod_lt n (by decide))

theorem digitBytes_pos {n : Nat} (pos : 0 < n) :
    ∃ d rest, digitBytes n = digitByte d :: rest ∧ 0 < d ∧ d < 10 := by
  induction n using Nat.strongRecOn with
  | ind n ih =>
    by_cases small : n < 10
    · exact ⟨n, [], digitBytes_of_lt small, pos, small⟩
    · obtain ⟨d, rest, digits, bounds⟩ := ih (n / 10) (by omega) (by omega)
      refine ⟨d, rest ++ [digitByte (n % 10)], ?_, bounds⟩
      rw [digitBytes_of_le (Nat.le_of_not_lt small), digits, List.cons_append]

theorem digitBytes_cons (n : Nat) : ∃ d rest, digitBytes n = digitByte d :: rest ∧ d < 10 := by
  rcases Nat.eq_zero_or_pos n with rfl | pos
  · exact ⟨0, [], rfl, by decide⟩
  · obtain ⟨d, rest, cons, _, small⟩ := digitBytes_pos pos
    exact ⟨d, rest, cons, small⟩

theorem takeDigits_digitBytes {limit n : Nat} (small : n < limit) (more : List Nat) :
    Numeral.takeDigits limit 0 (digitValues (digitBytes n) ++ more) =
      Numeral.takeDigits limit n more := by
  induction n using Nat.strongRecOn generalizing more with
  | ind n ih =>
    by_cases digit : n < 10
    · rw [digitBytes_of_lt digit]
      simp [digitValues, toNat_digitByte digit, Numeral.takeDigits, small]
    · have last := toNat_digitByte (Nat.mod_lt n (by decide : 0 < 10))
      have whole : 10 * (n / 10) + n % 10 = n := by omega
      rw [digitBytes_of_le (Nat.le_of_not_lt digit), digitValues, List.map_append,
        List.append_assoc]
      show Numeral.takeDigits limit 0 (digitValues (digitBytes (n / 10)) ++ _) = _
      rw [ih (n / 10) (by omega) (by omega)]
      simp [last, Numeral.takeDigits, whole, small]

theorem takeDigits_whole {n : Nat} (small : n < Numeral.wordLimit) :
    Numeral.takeDigits Numeral.wordLimit 0 (digitValues (digitBytes n)) = (n, []) := by
  have taken := takeDigits_digitBytes small []
  rwa [List.append_nil] at taken

/-- What may stand behind a value: nothing, or the sign that goes on or ends around it. -/
def Closes (rest : Bytes) : Prop :=
  ∀ b more, rest = b :: more → b = 0x2C ∨ b = 0x5D ∨ b = 0x7D

theorem takeWhile_closes {rest : Bytes} (closes : Closes rest) :
    rest.takeWhile isDigitByte = [] := by
  cases rest with
  | nil => rfl
  | cons b more => rcases closes b more rfl with rfl | rfl | rfl <;> rfl

theorem dropWhile_closes {rest : Bytes} (closes : Closes rest) :
    rest.dropWhile isDigitByte = rest := by
  cases rest with
  | nil => rfl
  | cons b more => rcases closes b more rfl with rfl | rfl | rfl <;> rfl

theorem wholeDigits?_digitBytes (n : Nat) {rest : Bytes} (closes : Closes rest) :
    wholeDigits? (digitBytes n ++ rest) = some (digitValues (digitBytes n), rest) := by
  have digits := isDigitByte_of_mem_digitBytes n
  unfold wholeDigits?
  rw [List.takeWhile_append_of_pos digits, List.dropWhile_append_of_pos digits,
    takeWhile_closes closes, dropWhile_closes closes, List.append_nil]
  rcases Nat.eq_zero_or_pos n with rfl | pos
  · rfl
  · obtain ⟨d, more, cons, positive, small⟩ := digitBytes_pos pos
    have nonzero : digitByte d ≠ 0x30 := by
      intro zero
      have value := toNat_digitByte small
      rw [zero] at value
      exact absurd value (Nat.ne_of_lt (Nat.lt_add_of_pos_right positive))
    rw [cons]
    cases more with
    | nil => rfl
    | cons e more => exact if_neg nonzero

def sign (bytes : Bytes) : Bool × Bytes :=
  match bytes with
  | 0x2D :: rest => (true, rest)
  | _ => (false, bytes)

def unsigned? (negative : Bool) (bytes : Bytes) : Option (Numeral × Bytes) := do
  let (whole, rest) ← wholeDigits? bytes
  let (fraction, rest) ←
    match rest with
    | 0x2E :: more => someDigits? more
    | _ => some ([], rest)
  let (exponent, rest) ← exponentPart? rest
  return (⟨negative, whole, fraction, exponent⟩, rest)

theorem numeral?_eq (bytes : Bytes) :
    numeral? bytes = unsigned? (sign bytes).1 (sign bytes).2 := rfl

theorem sign_digitBytes (n : Nat) (rest : Bytes) :
    sign (digitBytes n ++ rest) = (false, digitBytes n ++ rest) := by
  obtain ⟨d, more, cons, digit⟩ := digitBytes_cons n
  unfold sign
  split
  · next same =>
    rw [cons] at same
    exact absurd (List.cons.inj same).1 (digitByte_ne digit (by decide))
  · rfl

def wholeNumeral (negative : Bool) (n : Nat) : Numeral :=
  ⟨negative, digitValues (digitBytes n), [], none⟩

theorem value?_wholeNumeral (negative : Bool) {n : Nat} (small : n < Numeral.wordLimit)
    (signed : negative = true → 0 < n ∧ n ≤ 1 <<< 63) :
    (wholeNumeral negative n).value? = some (.integer (if negative then -n else n)) := by
  rw [Numeral.value?, wholeNumeral, takeDigits_whole small]
  apply if_pos
  refine ⟨rfl, rfl, rfl, ?_⟩
  cases negative with
  | false => exact .inl rfl
  | true => exact .inr (signed rfl)

theorem unsigned?_digitBytes (n : Nat) {rest : Bytes} (closes : Closes rest) (negative : Bool) :
    unsigned? negative (digitBytes n ++ rest) = some (wholeNumeral negative n, rest) := by
  rw [unsigned?, wholeDigits?_digitBytes n closes]
  cases rest with
  | nil => rfl
  | cons b more => rcases closes b more rfl with rfl | rfl | rfl <;> rfl

/-- The whole numbers that a text carries exactly: sixty-four bits, with or without a sign. -/
def IsWord (i : Int) : Prop := -0x8000000000000000 ≤ i ∧ i < 0x10000000000000000

theorem numeral?_int {i : Int} (word : IsWord i) {rest : Bytes} (closes : Closes rest) :
    ∃ x : Numeral, x.value? = some (.integer i) ∧
      numeral? (charBytes (intChars i) ++ rest) = some (x, rest) := by
  obtain ⟨low, high⟩ := word
  have small : i.natAbs < Numeral.wordLimit := by
    simp only [Numeral.wordLimit, UInt64.size]
    omega
  unfold intChars
  by_cases negative : i < 0
  · refine ⟨wholeNumeral true i.natAbs, ?_, ?_⟩
    · have value : -(i.natAbs : Int) = i := by omega
      have bounds : 0 < i.natAbs ∧ i.natAbs ≤ 1 <<< 63 := by omega
      rw [value?_wholeNumeral true small fun _ => bounds, if_pos rfl, value]
    · rw [if_pos negative, numeral?_eq]
      exact unsigned?_digitBytes _ closes true
  · refine ⟨wholeNumeral false i.natAbs, ?_, ?_⟩
    · have value : (i.natAbs : Int) = i := by omega
      rw [value?_wholeNumeral false small nofun, if_neg Bool.false_ne_true, value]
    · rw [if_neg negative, numeral?_eq]
      show unsigned? (sign (digitBytes i.natAbs ++ rest)).1
        (sign (digitBytes i.natAbs ++ rest)).2 = _
      rw [sign_digitBytes]
      exact unsigned?_digitBytes _ closes false

/-! ## Values -/

mutual
def IsWhole : Json → Prop
  | .number (.integer i) => IsWord i
  | .number (.float _) => False
  | .array items => AreWhole items
  | .object members => MembersWhole members
  | _ => True

def AreWhole : List Json → Prop
  | [] => True
  | item :: rest => item.IsWhole ∧ AreWhole rest

def MembersWhole : List (String × Json) → Prop
  | [] => True
  | (_, value) :: rest => value.IsWhole ∧ MembersWhole rest
end

def StartsNumber (b : UInt8) : Prop := isDigitByte b = true ∨ b = 0x2D

instance (b : UInt8) : Decidable (StartsNumber b) :=
  inferInstanceAs (Decidable (isDigitByte b = true ∨ b = 0x2D))

theorem isSpace_of_start {b : UInt8} (start : StartsNumber b) : isSpace b = false := by
  rw [Bool.eq_false_iff]
  intro space
  simp only [isSpace, Bool.or_eq_true, beq_iff_eq] at space
  rcases space with ((rfl | rfl) | rfl) | rfl <;> exact absurd start (by decide)

theorem skipSpaces_cons {b : UInt8} (visible : isSpace b = false) (more : Bytes) :
    skipSpaces (b :: more) = b :: more :=
  List.dropWhile_cons_of_neg (by rw [visible]; decide)

theorem read?_numeral (fuel : Nat) {b : UInt8} (start : StartsNumber b) (more : Bytes) :
    Node.read? (fuel + 1) (b :: more) =
      (numeral? (b :: more)).map fun r => (.number r.1.value?, r.2) := by
  rw [Node.read?, skipSpaces_cons (isSpace_of_start start)]
  split
  · contradiction
  iterate 6
    · next same =>
      obtain ⟨rfl, _⟩ := List.cons.inj same
      exact absurd start (by decide)
  · rfl

theorem intChars_cons (i : Int) :
    ∃ b more, charBytes (intChars i) = b :: more ∧ StartsNumber b := by
  obtain ⟨d, more, cons, digit⟩ := digitBytes_cons i.natAbs
  unfold intChars
  by_cases negative : i < 0
  · rw [if_pos negative]
    exact ⟨0x2D, _, rfl, .inr rfl⟩
  · rw [if_neg negative]
    exact ⟨_, more, cons, .inl (isDigitByte_digitByte digit)⟩

/-- What a value starts with is neither a blank nor the end of a list. -/
theorem compactChars_cons {v : Json} (whole : v.IsWhole) : ∃ b more,
    charBytes v.compactChars = b :: more ∧ isSpace b = false ∧ b ≠ 0x5D := by
  cases v with
  | null => exact ⟨0x6E, _, rfl, by decide⟩
  | bool b => cases b <;> exact ⟨_, _, rfl, by decide⟩
  | string s => exact ⟨0x22, _, rfl, by decide⟩
  | array items => cases items <;> exact ⟨0x5B, _, rfl, by decide⟩
  | object members =>
    rcases members with _ | ⟨⟨name, value⟩, rest⟩ <;> exact ⟨0x7B, _, rfl, by decide⟩
  | number n =>
    cases n with
    | float x => cases whole
    | integer i =>
      obtain ⟨b, more, cons, start⟩ := intChars_cons i
      refine ⟨b, more, cons, isSpace_of_start start, ?_⟩
      rintro rfl
      exact absurd start (by decide)

theorem length_compactChars_pos {v : Json} (whole : v.IsWhole) : 0 < v.compactChars.length := by
  obtain ⟨b, more, cons, _⟩ := compactChars_cons whole
  rw [List.length_pos_iff]
  intro empty
  rw [empty] at cons
  cases cons

theorem charBytes_stringChars (s : String) (tail : Bytes) : charBytes (stringChars s) ++ tail =
    0x22 :: (charBytes (s.toList.flatMap escapeChar) ++ 0x22 :: tail) := by
  show 0x22 :: (charBytes (s.toList.flatMap escapeChar ++ ['"']) ++ tail) = _
  rw [charBytes_append, List.append_assoc]
  rfl

theorem read?_string (fuel : Nat) (s : String) (tail : Bytes) :
    Node.read? (fuel + 1) (charBytes (stringChars s) ++ tail) = some (.string (some s), tail) := by
  obtain ⟨parts, text, string⟩ := stringParts?_string s
  rw [charBytes_stringChars]
  show (stringParts? [] _).map _ = _
  rw [string, ← text]
  rfl

theorem length_compactItems_pos (items : List Json) : 0 < (compactItems items).length := by
  cases items <;> exact Nat.zero_lt_succ _

theorem closes_compactItems (items : List Json) (tail : Bytes) :
    Closes (charBytes (compactItems items) ++ tail) := by
  cases items with
  | nil =>
    rintro b more ⟨⟩
    decide
  | cons item rest =>
    rintro b more ⟨⟩
    decide

theorem closes_compactMembers (members : List (String × Json)) (tail : Bytes) :
    Closes (charBytes (compactMembers members) ++ tail) := by
  cases members with
  | nil =>
    rintro b more ⟨⟩
    decide
  | cons member rest =>
    rintro b more ⟨⟩
    decide

theorem read?_items (fuel : Nat) {item : Json} (whole : item.IsWhole) (more : Bytes) :
    Node.read? (fuel + 1) (0x5B :: (charBytes item.compactChars ++ more)) =
      (Node.readItems? fuel [] (charBytes item.compactChars ++ more)).map
        fun r => (.array r.1, r.2) := by
  obtain ⟨b, rest, cons, visible, goesOn⟩ := compactChars_cons whole
  rw [cons, List.cons_append, Node.read?, skipSpaces_cons (by decide)]
  simp only [skipSpaces_cons visible]
  split
  · next same => exact absurd (List.cons.inj same).1 goesOn
  · rfl

def afterItem? (fuel : Nat) (done : List Node) (bytes : Bytes) : Option (List Node × Bytes) :=
  match skipSpaces bytes with
  | 0x2C :: rest => Node.readItems? fuel done rest
  | 0x5D :: rest => some (done.reverse, rest)
  | _ => none

def afterMember? (fuel : Nat) (done : List (Option String × Node)) (bytes : Bytes) :
    Option (List (Option String × Node) × Bytes) :=
  match skipSpaces bytes with
  | 0x2C :: rest => Node.readMembers? fuel done rest
  | 0x7D :: rest => some (done.reverse, rest)
  | _ => none

theorem readItems?_of {fuel : Nat} {bytes mid : Bytes} {item : Node}
    (read : Node.read? fuel bytes = some (item, mid)) (done : List Node) :
    Node.readItems? (fuel + 1) done bytes = afterItem? fuel (item :: done) mid := by
  rw [Node.readItems?, read]
  rfl

theorem readMembers?_of {fuel : Nat} {bytes mid : Bytes} {node : Node}
    (read : Node.read? fuel bytes = some (node, mid)) (done : List (Option String × Node))
    (name : String) :
    Node.readMembers? (fuel + 1) done (charBytes (stringChars name) ++ 0x3A :: bytes) =
      afterMember? fuel ((some name, node) :: done) mid := by
  obtain ⟨parts, text, string⟩ := stringParts?_string name
  rw [charBytes_stringChars, Node.readMembers?, skipSpaces_cons (by decide)]
  simp only [string, skipSpaces_cons (by decide : isSpace 0x3A = false), read, text]
  rfl

/-- The items of an array behind its bracket. -/
def itemsChars : List Json → List Char
  | [] => [']']
  | item :: rest => item.compactChars ++ compactItems rest

/-- The members of an object behind its brace. -/
def membersChars : List (String × Json) → List Char
  | [] => ['\x7d']
  | (name, value) :: rest =>
      stringChars name ++ ':' :: (value.compactChars ++ compactMembers rest)

-- By recursion on the value.  An item and the items after it share the fuel that is left, and
-- both are shorter than the text that they are read from.
mutual
theorem read?_compact (v : Json) (whole : v.IsWhole) {fuel : Nat}
    (enough : v.compactChars.length ≤ fuel) {tail : Bytes} (closes : Closes tail) :
    Node.read? fuel (charBytes v.compactChars ++ tail) = some (Node.ofValue v, tail) := by
  have some := length_compactChars_pos whole
  obtain ⟨fuel, rfl⟩ := Nat.exists_eq_succ_of_ne_zero (by omega : fuel ≠ 0)
  match v with
  | .null => rfl
  | .bool true => rfl
  | .bool false => rfl
  | .string s => exact read?_string fuel s tail
  | .number (.integer i) =>
    obtain ⟨b, more, cons, start⟩ := intChars_cons i
    obtain ⟨x, value, read⟩ := numeral?_int whole closes
    show Node.read? (fuel + 1) (charBytes (intChars i) ++ tail) = _
    rw [cons, List.cons_append] at read ⊢
    rw [read?_numeral fuel start, read, Option.map_some, value]
    rfl
  | .array [] => rfl
  | .object [] => rfl
  | .array (item :: rest) =>
    have items := readItems?_compact (item :: rest) whole nofun (Nat.le_of_succ_le_succ enough) []
      tail
    rw [itemsChars, charBytes_append, List.append_assoc] at items
    show Node.read? (fuel + 1)
      (0x5B :: (charBytes (item.compactChars ++ compactItems rest) ++ tail)) = _
    rw [charBytes_append, List.append_assoc, read?_items fuel whole.1, items]
    rfl
  | .object ((name, value) :: rest) =>
    have members := readMembers?_compact ((name, value) :: rest) whole nofun
      (Nat.le_of_succ_le_succ enough) [] tail
    exact congrArg (Option.map fun r => (Node.object r.1, r.2)) members

theorem readItems?_compact (items : List Json) (whole : AreWhole items) (nonempty : items ≠ [])
    {fuel : Nat} (enough : (itemsChars items).length ≤ fuel) (done : List Node) (tail : Bytes) :
    Node.readItems? fuel done (charBytes (itemsChars items) ++ tail) =
      some (done.reverse ++ Node.ofValues items, tail) := by
  match items with
  | [] => contradiction
  | item :: rest =>
    have first := length_compactChars_pos whole.1
    have last := length_compactItems_pos rest
    rw [itemsChars, List.length_append] at enough
    obtain ⟨fuel, rfl⟩ := Nat.exists_eq_succ_of_ne_zero (by omega : fuel ≠ 0)
    have read := read?_compact item whole.1 (by omega : _ ≤ fuel) (closes_compactItems rest tail)
    rw [itemsChars, charBytes_append, List.append_assoc, readItems?_of read]
    match rest with
    | [] =>
      simp only [Node.ofValues, ← List.reverse_cons]
      rfl
    | next :: more =>
      have shorter : (compactItems (next :: more)).length =
        (itemsChars (next :: more)).length + 1 := rfl
      have others := readItems?_compact (next :: more) whole.2 nofun (by omega : _ ≤ fuel)
        (.ofValue item :: done) tail
      rw [List.reverse_cons, List.append_assoc] at others
      exact others

theorem readMembers?_compact (members : List (String × Json)) (whole : MembersWhole members)
    (nonempty : members ≠ []) {fuel : Nat} (enough : (membersChars members).length ≤ fuel)
    (done : List (Option String × Node)) (tail : Bytes) :
    Node.readMembers? fuel done (charBytes (membersChars members) ++ tail) =
      some (done.reverse ++ Node.ofMemberValues members, tail) := by
  match members with
  | [] => contradiction
  | (name, value) :: rest =>
    simp only [membersChars, List.length_append, List.length_cons] at enough
    obtain ⟨fuel, rfl⟩ := Nat.exists_eq_succ_of_ne_zero (by omega : fuel ≠ 0)
    have read := read?_compact value whole.1 (by omega : _ ≤ fuel)
      (closes_compactMembers rest tail)
    have text : charBytes (membersChars ((name, value) :: rest)) ++ tail =
        charBytes (stringChars name) ++
          0x3A :: (charBytes value.compactChars ++ (charBytes (compactMembers rest) ++ tail)) := by
      rw [← List.append_assoc (charBytes value.compactChars), ← charBytes_append, membersChars,
        charBytes_append, List.append_assoc]
      rfl
    rw [text, readMembers?_of read]
    match rest with
    | [] =>
      simp only [Node.ofMemberValues, ← List.reverse_cons]
      rfl
    | (next, other) :: more =>
      have shorter : (compactMembers ((next, other) :: more)).length =
        (membersChars ((next, other) :: more)).length + 1 := rfl
      have others := readMembers?_compact ((next, other) :: more) whole.2 nofun
        (by omega : _ ≤ fuel) ((some name, .ofValue value) :: done) tail
      rw [List.reverse_cons, List.append_assoc] at others
      exact others
end

theorem parse?_compact {v : Json} (whole : v.IsWhole) :
    Node.parse? (Text.utf8 v.compact) = some (Node.ofValue v) := by
  have bytes : Text.utf8 v.compact = charBytes v.compactChars := Text.utf8_ofList _
  have long := Text.length_le_charBytes v.compactChars
  have enough : v.compactChars.length ≤ 2 * (charBytes v.compactChars).length + 2 := by omega
  have closes : Closes [] := nofun
  have read := read?_compact v whole enough closes
  rw [List.append_nil] at read
  rw [bytes, Node.parse?, read]
  rfl

end SecureInbox.Json
