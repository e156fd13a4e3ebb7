import SecureInbox.Proofs.Instant.Text
import SecureInbox.Proofs.Text.Lines
import SecureInbox.Proofs.Wire.Content

/-! # Places read back

A place is written in lines, and what a line means hangs on how many lines follow it.  The line
of the numbers is read as it was written (`parse_render`), so what comes back of a place is
what its name and its address are as lines (`readLines`).  An empty last line is no line: a name
without an address after it is read as the address, and an empty address is lost
(`placeOfLines_bare`).  The places that come back are those that are `Kept`
(`decode_encode_eq_iff`), and `location_of_encode` says which these are among the places that are
free of stray line ends, and among those that were read. -/
set_option autoImplicit false

namespace SecureInbox

namespace Location

open Text (isBlank lines splitOn dropLast? trimChars)

/-! ## The line of the numbers -/

/-- Whether characters can stand in a field between commas, where they are not trimmed away. -/
def InField (cs : List Char) : Prop := ∀ c ∈ cs, isBlank c = false ∧ c ≠ ','

instance (cs : List Char) : Decidable (InField cs) :=
  List.decidableBAll (fun c : Char => isBlank c = false ∧ c ≠ ',') cs

namespace InField

theorem append {front back : List Char} (first : InField front) (second : InField back) :
    InField (front ++ back) := by
  intro c mem
  rcases List.mem_append.1 mem with mem | mem
  · exact first c mem
  · exact second c mem

theorem cons {c : Char} {cs : List Char} (first : isBlank c = false ∧ c ≠ ',')
    (rest : InField cs) : InField (c :: cs) := List.forall_mem_cons.2 ⟨first, rest⟩

theorem digits {cs : List Char} (all : ∀ c ∈ cs, Digits.isDigit c = true) : InField cs := by
  intro c mem
  refine ⟨Instant.isBlank_of_isDigit (all c mem), ?_⟩
  rintro rfl
  exact absurd (all ',' mem) (by decide)

theorem positional (d : Decimal) : InField d.positional := by
  have written : ∀ c ∈ d.digitChars, Digits.isDigit c = true := fun c mem =>
    Instant.isDigit_of_mem_toDigits mem
  have zeros (n : Nat) : InField (List.replicate n '0') := digits fun c mem => by
    rw [List.eq_of_mem_replicate mem]
    rfl
  unfold Decimal.positional
  split
  · exact (digits written).append (zeros _)
  · split
    · exact .cons (by decide) (.cons (by decide) ((zeros _).append (digits written)))
    · exact (digits fun c mem => written c (List.mem_of_mem_take mem)).append
        (.cons (by decide) (digits fun c mem => written c (List.mem_of_mem_drop mem)))

theorem plainText (x : Binary64) : InField x.plainText.toList := by
  have sign : InField (if x.isNegative then "-" else "").toList := by
    split <;> decide
  unfold Binary64.plainText
  by_cases number : x.isNaN = true
  · rw [if_pos number]
    decide
  · rw [if_neg number]
    by_cases infinite : x.isInfinite = true
    · rw [if_pos infinite, String.toList_append]
      exact sign.append (by decide)
    · rw [if_neg infinite, String.toList_append, String.toList_ofList]
      exact sign.append (positional _)

theorem free {cs : List Char} (field : InField cs) {c : Char} (blank : isBlank c = true) :
    c ∉ cs := by
  intro mem
  rw [(field c mem).1] at blank
  cases blank

theorem trim {cs : List Char} (field : InField cs) : trimChars cs = cs :=
  Text.trimChars_of_visible fun c mem => (field c mem).1

theorem splitOn_append {cs : List Char} (field : InField cs) (rest : List Char) :
    splitOn ',' (cs ++ ',' :: rest) = cs :: splitOn ',' rest :=
  Text.splitOn_append (fun mem => (field ',' mem).2 rfl) rest

theorem splitOn {cs : List Char} (field : InField cs) : splitOn ',' cs = [cs] :=
  Text.splitOn_of_free fun mem => (field ',' mem).2 rfl

end InField

def firstLine (l : Location) : List Char :=
  l.latitude.plainText.toList ++ ',' :: (l.longitude.plainText.toList ++
    match l.accuracy with
    | some a => ',' :: a.plainText.toList
    | none => [])

theorem free_firstLine (l : Location) {c : Char} (blank : isBlank c = true) : c ∉ l.firstLine := by
  have comma : c ≠ ',' := by
    rintro rfl
    exact absurd blank (by decide)
  have number (x : Binary64) : c ∉ x.plainText.toList := (InField.plainText x).free blank
  cases accuracy : l.accuracy <;> simp [firstLine, accuracy, comma, number]

def numbers (l : Location) : List Binary64 := l.latitude :: l.longitude :: l.accuracy.toList

def NumbersReadBack (l : Location) : Prop :=
  ∀ x ∈ l.numbers, Binary64.ofText? x.plainText.toList = some x

instance (l : Location) : Decidable l.NumbersReadBack :=
  List.decidableBAll (fun x : Binary64 => Binary64.ofText? x.plainText.toList = some x) l.numbers

theorem fields_firstLine (l : Location) :
    (splitOn ',' l.firstLine).map trimChars = l.numbers.map fun x => x.plainText.toList := by
  have field := InField.plainText
  have trim (x : Binary64) : trimChars x.plainText.toList = x.plainText.toList := (field x).trim
  rw [firstLine, (field l.latitude).splitOn_append]
  cases accuracy : l.accuracy with
  | none =>
    rw [List.append_nil, (field l.longitude).splitOn]
    simp [numbers, accuracy, trim]
  | some a =>
    rw [(field l.longitude).splitOn_append, (field a).splitOn]
    simp [numbers, accuracy, trim]

theorem coordinate_plainText {l : Location} (back : l.NumbersReadBack) {x : Binary64}
    (mem : x ∈ l.numbers) : coordinate x.plainText.toList = .ok x := by
  rw [coordinate, back x mem]

/-! ## The lines of the name and the address -/

/-- The lines after the first, as they are read from what is written. -/
def readLines : Option String → Option String → List (List Char)
  | none, none => []
  | none, some address => lines address.toList
  | some name, address => lines (name.toList ++ '\n' :: (address.getD "").toList)

theorem lines_render (l : Location) :
    lines l.render.toList = l.firstLine :: readLines l.name l.address := by
  have noFeed : '\n' ∉ l.firstLine := l.free_firstLine (by decide)
  have noReturn : dropLast? '\r' l.firstLine = l.firstLine := by
    exact Text.dropLast?_eq_self_iff.2 fun last =>
      l.free_firstLine (by decide) (List.mem_of_getLast? last)
  have text : l.render.toList = l.firstLine ++ (placeText l.name l.address).toList := by
    cases accuracy : l.accuracy <;> simp [render, firstLine, accuracy]
  have given : l.firstLine ≠ [] := List.append_ne_nil_of_right_ne_nil _ (List.cons_ne_nil _ _)
  rw [text]
  rcases l.name with _ | name
  · rcases l.address with _ | address
    · show lines (l.firstLine ++ []) = [l.firstLine]
      rw [List.append_nil, Text.lines_of_free noFeed, if_neg given]
    · have written : (placeText none (some address)).toList = '\n' :: address.toList := by
        simp [placeText]
      rw [written, Text.lines_append noFeed, noReturn]
      rfl
  · have written : (placeText (some name) l.address).toList =
        '\n' :: (name.toList ++ '\n' :: (l.address.getD "").toList) := by
      simp [placeText]
    rw [written, Text.lines_append noFeed, noReturn]
    rfl

/-- Numbers that are read back let the whole place be read, with the name and the address that
its lines stand for. -/
theorem parse_render {l : Location} (back : l.NumbersReadBack) :
    parse l.render = .ok { l with
      name := (placeOfLines (readLines l.name l.address)).1
      address := (placeOfLines (readLines l.name l.address)).2 } := by
  have latitude := coordinate_plainText back (x := l.latitude) (by simp [numbers])
  have longitude := coordinate_plainText back (x := l.longitude) (by simp [numbers])
  rw [parse, lines_render]
  dsimp only
  rw [fields_firstLine, numbers]
  cases accuracy : l.accuracy with
  | none =>
    show (do return ⟨← coordinate _, ← coordinate _, none, _, _⟩ : Except DecodeError Location) = _
    rw [latitude, longitude]
    rfl
  | some a =>
    have third := coordinate_plainText back (x := a) (by simp [numbers, accuracy])
    show (do return ⟨← coordinate _, ← coordinate _, some (← coordinate _), _, _⟩ :
      Except DecodeError Location) = _
    rw [latitude, longitude, third]
    rfl

/-! ## Lines that are joined again -/

/-- A text whose lines give it back when they are joined: it does not end with a line feed, and
no line feed stands behind a carriage return. -/
structure Rejoins (cs : List Char) : Prop where
  last : cs.getLast? ≠ some '\n'
  feeds : ∀ front back, cs ≠ front ++ '\r' :: '\n' :: back

theorem rejoins_of_free {cs : List Char} (free : '\n' ∉ cs) : Rejoins cs where
  last := fun last => free (List.mem_of_getLast? last)
  feeds := by
    rintro front back rfl
    exact free (by simp)

/-- A line feed stands behind a carriage return at the end of the first line, or in what
follows. -/
theorem feed_behind_return {line : List Char} (free : '\n' ∉ line) (rest : List Char) :
    (∃ front back, line ++ '\n' :: rest = front ++ '\r' :: '\n' :: back) ↔
      line.getLast? = some '\r' ∨ ∃ front back, rest = front ++ '\r' :: '\n' :: back := by
  constructor
  · rintro ⟨front, back, same⟩
    by_cases inside : '\n' ∈ front
    · obtain ⟨first, more, rfl, free'⟩ := List.eq_append_cons_of_mem inside
      rw [List.append_assoc, List.cons_append] at same
      exact .inr ⟨more, back, (Text.append_inj_of_free free free' same).2⟩
    · have free' : '\n' ∉ front ++ ['\r'] := by simp [inside]
      have same : line ++ '\n' :: rest = (front ++ ['\r']) ++ '\n' :: back := by simp [same]
      refine .inl ?_
      rw [(Text.append_inj_of_free free free' same).1, List.getLast?_concat]
  · rintro (last | ⟨front, back, rfl⟩)
    · obtain ⟨front, rfl⟩ := List.getLast?_eq_some_iff.1 last
      exact ⟨front, rest, by simp⟩
    · exact ⟨line ++ '\n' :: front, back, by simp⟩

theorem rejoins_append {line : List Char} (free : '\n' ∉ line) {rest : List Char}
    (more : rest ≠ []) :
    Rejoins (line ++ '\n' :: rest) ↔ line.getLast? ≠ some '\r' ∧ Rejoins rest := by
  have last : (line ++ '\n' :: rest).getLast? = rest.getLast? := by
    simp [List.getLast?_append, List.getLast?_cons, List.getLast?_eq_some_getLast more]
  have feeds := not_congr (feed_behind_return free rest)
  simp only [not_or, not_exists] at feeds
  constructor
  · rintro ⟨ends, plain⟩
    obtain ⟨first, others⟩ := feeds.1 plain
    exact ⟨first, last ▸ ends, others⟩
  · rintro ⟨first, ends, others⟩
    exact ⟨last ▸ ends, feeds.2 ⟨first, others⟩⟩

theorem joinLines_cons (line : List Char) {rest : List (List Char)} (more : rest ≠ []) :
    joinLines (line :: rest) = line ++ '\n' :: joinLines rest := by
  obtain ⟨next, others, rfl⟩ := List.exists_cons_of_ne_nil more
  rw [joinLines, lineBreak, List.append_assoc]
  · rfl
  · exact more

theorem joinLines_lines {cs : List Char} : joinLines (lines cs) = cs ↔ Rejoins cs := by
  induction cs using Text.pieces_induction '\n' with
  | last line free =>
    refine iff_of_true ?_ (rejoins_of_free free)
    rw [Text.lines_of_free free]
    split
    · next none => exact none.symm
    · rfl
  | more line rest free ih =>
    rw [Text.lines_append free]
    by_cases none : rest = []
    · subst none
      refine iff_of_false (fun same => ?_) fun rejoins => rejoins.last (by simp)
      have feed : '\n' ∈ dropLast? '\r' line := by
        rw [show dropLast? '\r' line = line ++ ['\n'] from same]
        simp
      exact free (Text.mem_of_mem_dropLast? feed)
    · have some : lines rest ≠ [] := fun empty => none (Text.lines_eq_nil.1 empty)
      rw [joinLines_cons _ some, rejoins_append free none, ← ih, ← Text.dropLast?_eq_self_iff]
      constructor
      · exact Text.append_inj_of_free (fun mem => free (Text.mem_of_mem_dropLast? mem)) free
      · rintro ⟨first, others⟩
        rw [first, others]

/-! ## The places that come back -/

/-- A place that can be told from its lines: a name stands in one line, with an address behind
it, and an address is there, has the lines that it is read in, and has one line if no name is
in front of it. -/
structure Kept (l : Location) : Prop where
  name : ∀ name, l.name = some name →
    '\n' ∉ name.toList ∧ name.toList.getLast? ≠ some '\r' ∧ l.address ≠ none
  address : ∀ address, l.address = some address →
    address ≠ "" ∧ Rejoins address.toList ∧ (l.name = none → '\n' ∉ address.toList)

theorem free_of_mem_readLines {name address : Option String} {line : List Char}
    (mem : line ∈ readLines name address) : '\n' ∉ line := by
  rcases name with _ | name
  · rcases address with _ | address
    · cases mem
    · exact Text.free_of_mem_lines mem
  · exact Text.free_of_mem_lines mem

/-- A name in one line is that line, less a carriage return, if another line follows. -/
theorem readLines_name {name : String} (free : '\n' ∉ name.toList) (address : Option String) :
    readLines (some name) address =
      dropLast? '\r' name.toList :: lines (address.getD "").toList :=
  Text.lines_append free _

/-- The name and the address that lines stand for have no line feeds but between their lines. -/
theorem placeOfLines_free {rest : List (List Char)} (free : ∀ line ∈ rest, '\n' ∉ line)
    {name address : Option String} (place : placeOfLines rest = (name, address)) :
    (∀ n, name = some n → '\n' ∉ n.toList ∧ address ≠ none) ∧
      (name = none → ∀ a, address = some a → '\n' ∉ a.toList) := by
  match rest with
  | [] =>
    cases place
    exact ⟨nofun, nofun⟩
  | [line] =>
    cases place
    refine ⟨nofun, fun _ a held => ?_⟩
    obtain rfl := Option.some.inj held
    rw [String.toList_ofList]
    exact free line List.mem_cons_self
  | line :: next :: others =>
    cases place
    refine ⟨fun n held => ⟨?_, nofun⟩, nofun⟩
    obtain rfl := Option.some.inj held
    rw [String.toList_ofList]
    exact free line List.mem_cons_self

theorem ofList_eq_iff {cs : List Char} {text : String} :
    String.ofList cs = text ↔ cs = text.toList :=
  ⟨fun same => by rw [← same, String.toList_ofList], fun same => by rw [same, String.ofList_toList]⟩

theorem toList_ne_nil {text : String} : text.toList ≠ [] ↔ text ≠ "" :=
  not_congr String.toList_eq_nil_iff

theorem placeOfLines_eq_address {rest : List (List Char)} {address : String} :
    placeOfLines rest = (none, some address) ↔ rest = [address.toList] := by
  match rest with
  | [] => exact ⟨nofun, nofun⟩
  | [line] => simp [placeOfLines, ofList_eq_iff]
  | line :: next :: others => exact ⟨nofun, nofun⟩

theorem placeOfLines_eq_name {line cs : List Char} {name address : String} :
    placeOfLines (line :: lines cs) = (some name, some address) ↔
      line = name.toList ∧ cs ≠ [] ∧ joinLines (lines cs) = address.toList := by
  by_cases none : cs = []
  · rw [Text.lines_eq_nil.2 none]
    exact ⟨nofun, fun ⟨_, given, _⟩ => absurd none given⟩
  · obtain ⟨next, others, same⟩ := List.exists_cons_of_ne_nil (mt Text.lines_eq_nil.1 none)
    rw [same]
    simp [placeOfLines, ofList_eq_iff, none]

theorem lines_eq_single {cs : List Char} : lines cs = [cs] ↔ cs ≠ [] ∧ '\n' ∉ cs := by
  constructor
  · intro same
    have free : '\n' ∉ cs := Text.free_of_mem_lines (same ▸ List.mem_singleton_self cs)
    refine ⟨?_, free⟩
    rintro rfl
    cases same
  · rintro ⟨given, free⟩
    rw [Text.lines_of_free free, if_neg given]

theorem kept_of_absent {l : Location} (unnamed : l.name = none) (absent : l.address = none) :
    l.Kept :=
  ⟨fun _ held => (nomatch unnamed.symm.trans held), fun _ held => (nomatch absent.symm.trans held)⟩

theorem kept_of_address {l : Location} (unnamed : l.name = none) {address : String}
    (given : l.address = some address) :
    l.Kept ↔ address ≠ "" ∧ '\n' ∉ address.toList := by
  constructor
  · rintro ⟨-, kept⟩
    obtain ⟨some, -, free⟩ := kept address given
    exact ⟨some, free unnamed⟩
  · rintro ⟨some, free⟩
    refine ⟨fun name named => (nomatch unnamed.symm.trans named), fun a held => ?_⟩
    obtain rfl := Option.some.inj (given.symm.trans held)
    exact ⟨some, rejoins_of_free free, fun _ => free⟩

theorem kept_of_name {l : Location} {name address : String} (named : l.name = some name)
    (given : l.address = some address) : l.Kept ↔
      ('\n' ∉ name.toList ∧ name.toList.getLast? ≠ some '\r') ∧
        address ≠ "" ∧ Rejoins address.toList := by
  constructor
  · rintro ⟨first, kept⟩
    obtain ⟨free, plain, -⟩ := first name named
    obtain ⟨some, rejoins, -⟩ := kept address given
    exact ⟨⟨free, plain⟩, some, rejoins⟩
  · rintro ⟨⟨free, plain⟩, some, rejoins⟩
    constructor
    · intro n held
      obtain rfl := Option.some.inj (named.symm.trans held)
      exact ⟨free, plain, fun none => nomatch given.symm.trans none⟩
    · intro a held
      obtain rfl := Option.some.inj (given.symm.trans held)
      exact ⟨some, rejoins, fun none => nomatch named.symm.trans none⟩

/-- Of a place that is written just the kept ones come back. -/
theorem placeOfLines_readLines_iff (l : Location) :
    placeOfLines (readLines l.name l.address) = (l.name, l.address) ↔ l.Kept := by
  have lined (place : placeOfLines (readLines l.name l.address) = (l.name, l.address)) :=
    (placeOfLines_free (fun _ mem => free_of_mem_readLines mem) place).1
  rcases named : l.name with _ | name
  · rcases given : l.address with _ | address
    · exact iff_of_true rfl (kept_of_absent named given)
    · rw [kept_of_address named given, placeOfLines_eq_address, ← toList_ne_nil]
      exact lines_eq_single
  · rw [named] at lined
    rcases given : l.address with _ | address
    · rw [given] at lined
      exact iff_of_false (fun place => (lined place name rfl).2 rfl)
        fun kept => (kept.name name named).2.2 given
    · rw [kept_of_name named given, ← toList_ne_nil]
      by_cases free : '\n' ∈ name.toList
      · rw [given] at lined
        exact iff_of_false (fun place => (lined place name rfl).1 free) fun kept => kept.1.1 free
      · rw [readLines_name free, placeOfLines_eq_name, Text.dropLast?_eq_self_iff,
          Option.getD_some, joinLines_lines, and_iff_right free]

/-! ## Places on the wire -/

/-- A place that is free of stray line ends: a name in one line, and an address that ends with no
line feed and goes over several lines only behind a name. -/
structure IsLined (l : Location) : Prop where
  name : ∀ name, l.name = some name → '\n' ∉ name.toList ∧ '\r' ∉ name.toList
  address : ∀ address, l.address = some address → '\r' ∉ address.toList ∧
    address.toList.getLast? ≠ some '\n' ∧ (l.name = none → '\n' ∉ address.toList)

/-- Without an address the line of the name is the last one, and is read as the address. -/
theorem placeOfLines_bare {l : Location} (lined : l.IsLined) (bare : l.address.getD "" = "") :
    placeOfLines (readLines l.name l.address) = (none, l.name) := by
  rcases named : l.name with _ | name
  · rcases given : l.address with _ | address
    · rfl
    · obtain rfl : address = "" := by rw [given] at bare; exact bare
      rfl
  · obtain ⟨free, plain⟩ := lined.name name named
    have whole : dropLast? '\r' name.toList = name.toList :=
      Text.dropLast?_eq_self_iff.2 fun last => plain (List.mem_of_getLast? last)
    rw [readLines_name free, bare, whole]
    exact placeOfLines_eq_address.2 rfl

theorem IsLined.kept_iff {l : Location} (lined : l.IsLined) :
    l.Kept ↔ l.name = none ∧ l.address = none ∨ l.address.getD "" ≠ "" := by
  constructor
  · intro kept
    rcases given : l.address with _ | address
    · refine .inl ⟨?_, rfl⟩
      rcases named : l.name with _ | name
      · rfl
      · exact absurd given (kept.name name named).2.2
    · exact .inr (kept.address address given).1
  · rintro (⟨unnamed, absent⟩ | present)
    · exact kept_of_absent unnamed absent
    · constructor
      · intro name named
        obtain ⟨free, plain⟩ := lined.name name named
        refine ⟨free, fun last => plain (List.mem_of_getLast? last), fun absent => ?_⟩
        rw [absent] at present
        exact present rfl
      · intro address given
        obtain ⟨plain, last, single⟩ := lined.address address given
        rw [given] at present
        refine ⟨present, ⟨last, ?_⟩, single⟩
        intro front back same
        exact plain (by simp [same])

theorem bind_eq_ok {α β : Type} {result : Except DecodeError α} {f : α → Except DecodeError β}
    {b : β} : (result >>= f) = .ok b ↔ ∃ a, result = .ok a ∧ f a = .ok b := by
  cases result with
  | error e => exact ⟨nofun, fun ⟨_, same, _⟩ => nomatch same⟩
  | ok a => simp [bind, Except.bind]

/-- A place that was read has the name and the address that some lines stand for. -/
theorem exists_lines_of_parse {text : String} {l : Location} (read : parse text = .ok l) :
    ∃ rest, (∀ line ∈ rest, '\n' ∉ line) ∧ placeOfLines rest = (l.name, l.address) := by
  unfold parse at read
  split at read
  · cases read
  · next first rest all =>
    have free : ∀ line ∈ rest, '\n' ∉ line := fun line mem =>
      Text.free_of_mem_lines (all ▸ List.mem_cons_of_mem first mem)
    refine ⟨rest, free, ?_⟩
    rcases place : placeOfLines rest with ⟨name, address⟩
    rw [place] at read
    dsimp only at read
    split at read
    · obtain ⟨latitude, -, read⟩ := bind_eq_ok.1 read
      obtain ⟨longitude, -, read⟩ := bind_eq_ok.1 read
      obtain rfl := Except.ok.inj read
      rfl
    · obtain ⟨latitude, -, read⟩ := bind_eq_ok.1 read
      obtain ⟨longitude, -, read⟩ := bind_eq_ok.1 read
      obtain ⟨accuracy, -, read⟩ := bind_eq_ok.1 read
      obtain rfl := Except.ok.inj read
      rfl
    · cases read

/-- A place that was read stands in its lines, so it is only their ends that can change. -/
theorem kept_of_parse {text : String} {l : Location} (read : parse text = .ok l) :
    l.Kept ↔ (∀ name, l.name = some name → name.toList.getLast? ≠ some '\r') ∧
      ∀ address, l.address = some address → address ≠ "" ∧ Rejoins address.toList := by
  obtain ⟨rest, free, place⟩ := exists_lines_of_parse read
  obtain ⟨named, unnamed⟩ := placeOfLines_free free place
  constructor
  · rintro ⟨name, address⟩
    exact ⟨fun n held => (name n held).2.1,
      fun a held => ⟨(address a held).1, (address a held).2.1⟩⟩
  · rintro ⟨plain, rejoins⟩
    exact ⟨fun n held => ⟨(named n held).1, plain n held, (named n held).2⟩,
      fun a held => ⟨(rejoins a held).1, (rejoins a held).2, fun none => unnamed none a held⟩⟩

end Location

namespace Body

theorem locatedReader_eq_ok {bytes left : Bytes} {inGroup : Bool} {m : Body} :
    locatedReader inGroup bytes = .ok (m, left) ↔
      ∃ g l text, m = .location g l ∧ g.isSome = inGroup ∧ bytes = groupBytes g ++ Text.utf8 text ∧
        Location.parse text = .ok l ∧ left = [] := by
  simp only [locatedReader, locationReader, Reader.bind_eq_ok, groupReader_eq_ok,
    Reader.text_eq_ok, Reader.lift_eq_ok, Reader.pure_eq_ok]
  constructor
  · rintro ⟨g, _, ⟨placed, rfl⟩, l, _, ⟨text, _, ⟨rfl, rfl⟩, parsed, rfl⟩, rfl, rfl⟩
    exact ⟨g, l, text, rfl, placed, rfl, parsed, rfl⟩
  · rintro ⟨g, l, text, rfl, placed, rfl, parsed, rfl⟩
    exact ⟨g, _, ⟨placed, rfl⟩, l, _, ⟨text, _, ⟨rfl, rfl⟩, parsed, rfl⟩, rfl, rfl⟩

theorem decode_location {t : UInt8} {bytes : Bytes} {g : Option GroupRef} {l : Location} :
    decode t bytes = .ok (.location g l) ↔ t = typeByte (.location g l) ∧
      ∃ text, bytes = groupBytes g ++ Text.utf8 text ∧ Location.parse text = .ok l := by
  have kind : kind? (.location g l) = some (placed g .location .groupLocation) := rfl
  have reads : reader (placed g .location .groupLocation) = locatedReader g.isSome := by
    cases g <;> rfl
  rw [typeByte_of_kind? kind]
  constructor
  · intro decoded
    have known := (kind?_of_decode decoded).symm.trans kind
    obtain ⟨left, read⟩ := (decode_eq_ok known).1 decoded
    rw [reads] at read
    obtain ⟨g', l', text, same, -, written, parsed, -⟩ := locatedReader_eq_ok.1 read
    obtain ⟨rfl, rfl⟩ := Body.location.inj same
    exact ⟨(Kind.byte_of_ofByte? known).symm, text, written, parsed⟩
  · rintro ⟨rfl, text, written, parsed⟩
    refine (decode_eq_ok (Kind.ofByte?_byte _)).2 ⟨[], ?_⟩
    rw [reads]
    exact locatedReader_eq_ok.2 ⟨g, l, text, rfl, rfl, written, parsed, rfl⟩

/-- A place whose numbers are read back comes back with them and with its group, and with the
name and the address that its lines stand for. -/
theorem decode_encode_location (g : Option GroupRef) {l : Location} (back : l.NumbersReadBack) :
    decode (encode (.location g l)).1 (encode (.location g l)).2 = .ok (.location g { l with
      name := (Location.placeOfLines (Location.readLines l.name l.address)).1
      address := (Location.placeOfLines (Location.readLines l.name l.address)).2 }) :=
  decode_location.2 ⟨by cases g <;> rfl, l.render, rfl, Location.parse_render back⟩

theorem decode_encode_eq_iff (g : Option GroupRef) {l : Location} (back : l.NumbersReadBack) :
    decode (encode (.location g l)).1 (encode (.location g l)).2 = .ok (.location g l) ↔
      l.Kept := by
  rw [decode_encode_location g back, ← Location.placeOfLines_readLines_iff]
  rcases Location.placeOfLines (Location.readLines l.name l.address) with ⟨name, address⟩
  rcases l
  simp

/-- A place whose numbers are read back is accepted once it is written, and only its name and
its address can change.  If it is free of stray line ends, it comes back just if it has neither
of them or an address that is not empty, and without such an address its name becomes the
address.  If it was read from a body, it comes back just if its name does not end with a
carriage return and its address is not empty and joins its own lines again. -/
theorem location_of_encode (g : Option GroupRef) (l : Location) (back : l.NumbersReadBack) :
    ∃ name address,
      decode (encode (.location g l)).1 (encode (.location g l)).2 =
        .ok (.location g { l with name, address }) ∧
      (l.IsLined →
        (name = l.name ∧ address = l.address ↔
          l.name = none ∧ l.address = none ∨ l.address.getD "" ≠ "") ∧
        (l.address.getD "" = "" → name = none ∧ address = l.name)) ∧
      ∀ t bytes, decode t bytes = .ok (.location g l) →
        (name = l.name ∧ address = l.address ↔
          (∀ n, l.name = some n → n.toList.getLast? ≠ some '\r') ∧
            ∀ a, l.address = some a → a ≠ "" ∧ Location.Rejoins a.toList) := by
  refine ⟨_, _, decode_encode_location g back, fun lined => ⟨?_, fun bare => ?_⟩,
    fun t bytes decoded => ?_⟩
  · rw [← Prod.mk.injEq, Location.placeOfLines_readLines_iff]
    exact lined.kept_iff
  · rw [Location.placeOfLines_bare lined bare]
    exact ⟨rfl, rfl⟩
  · obtain ⟨-, text, -, parsed⟩ := decode_location.1 decoded
    rw [← Prod.mk.injEq, Location.placeOfLines_readLines_iff]
    exact Location.kept_of_parse parsed

def kiosk : Location where
  latitude := ⟨0x4047A00000000000⟩
  longitude := ⟨0x4021000000000000⟩
  accuracy := none
  name := some "Kiosk"
  address := some ""

theorem location_of_encode_kiosk :
    kiosk.NumbersReadBack ∧ kiosk.IsLined ∧
      decode 0x10 (Text.utf8 "47.25,8.5\nKiosk\n\n") = .ok (.location none kiosk) ∧
      decode (encode (.location none kiosk)).1 (encode (.location none kiosk)).2 =
        .ok (.location none { kiosk with name := none, address := some "Kiosk" }) := by
  have back : kiosk.NumbersReadBack := by decide +kernel
  have lined : kiosk.IsLined := ⟨by decide, by decide⟩
  obtain ⟨name, address, read, ofLined, -⟩ := location_of_encode none kiosk back
  obtain ⟨rfl, rfl⟩ := (ofLined lined).2 rfl
  have parsed : Location.parse "47.25,8.5\nKiosk\n\n" = .ok kiosk := by decide +kernel
  exact ⟨back, lined, decode_location.2 ⟨rfl, _, rfl, parsed⟩, read⟩

end Body

end SecureInbox
