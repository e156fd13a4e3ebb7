import SecureInbox.Proofs.Json.Reading
import SecureInbox.Proofs.Text.Lines

/-! # What stands at the front of a text

What was read from the front of a text is read from there just as well when more stands behind
the text, and with more fuel (`Node.read?_append`).  Only a number that the text ends with may
go on.  So a whole text with more behind it is not one text any more, unless the rest is blank
(`Node.parse?_append`).  Blanks in front change nothing (`Node.parse?_blank`). -/
set_option autoImplicit false

namespace SecureInbox.Json

/-! ## Digits and blanks -/

section While

variable {α : Type} {p : α → Bool} {xs : List α}

theorem dropWhile_append (stops : xs.dropWhile p ≠ []) (more : List α) :
    (xs ++ more).dropWhile p = xs.dropWhile p ++ more := by
  rw [List.dropWhile_append, if_neg (by simpa using stops)]

theorem takeWhile_append (stops : xs.dropWhile p ≠ []) (more : List α) :
    (xs ++ more).takeWhile p = xs.takeWhile p := by
  have whole := congrArg List.length (List.takeWhile_append_dropWhile (p := p) (l := xs))
  have some := List.length_pos_iff.2 stops
  rw [List.length_append] at whole
  rw [List.takeWhile_append, if_neg (by omega)]

end While

theorem skipSpaces_append {bytes rest : Bytes} {b : UInt8} (skipped : skipSpaces bytes = b :: rest)
    (more : Bytes) : skipSpaces (bytes ++ more) = b :: (rest ++ more) := by
  have stops : bytes.dropWhile isSpace ≠ [] := by
    rw [show bytes.dropWhile isSpace = _ from skipped]
    exact List.cons_ne_nil b rest
  rw [skipSpaces, dropWhile_append stops, show bytes.dropWhile isSpace = _ from skipped,
    List.cons_append]

/-- What is not blank has a first byte that is none. -/
theorem exists_visible : ∀ {bytes : Bytes}, bytes.all isSpace = false → ∃ blank b rest,
    bytes = blank ++ b :: rest ∧ (∀ c ∈ blank, isSpace c = true) ∧ isSpace b = false := by
  intro bytes visible
  induction bytes with
  | nil => cases visible
  | cons b more ih =>
    cases space : isSpace b with
    | false => exact ⟨[], b, more, rfl, nofun, space⟩
    | true =>
      rw [List.all_cons, space, Bool.true_and] at visible
      obtain ⟨blank, c, rest, rfl, spaces, found⟩ := ih visible
      exact ⟨b :: blank, c, rest, rfl, List.forall_mem_cons.2 ⟨space, spaces⟩, found⟩

theorem skipSpaces_blank {blank : Bytes} (spaces : ∀ b ∈ blank, isSpace b = true) (more : Bytes) :
    skipSpaces (blank ++ more) = skipSpaces more := List.dropWhile_append_of_pos spaces

section Numbers

variable {bytes rest : Bytes} (stops : rest ≠ []) (more : Bytes)

include stops

theorem wholeDigits?_append {digits : List Nat} (read : wholeDigits? bytes = some (digits, rest)) :
    wholeDigits? (bytes ++ more) = some (digits, rest ++ more) := by
  unfold wholeDigits? at read ⊢
  dsimp only at read ⊢
  have left : bytes.dropWhile isDigitByte = rest := by
    split at read
    · cases read
    · exact (Prod.mk.inj (Option.some.inj read)).2
    · split at read
      · cases read
      · exact (Prod.mk.inj (Option.some.inj read)).2
  rw [← left] at stops
  rw [takeWhile_append stops, dropWhile_append stops, left]
  rw [left] at read
  split at read
  · cases read
  · cases read
    rfl
  · next first _ _ taken =>
    split at read
    · cases read
    · next nonzero =>
      cases read
      simp only [taken, if_neg nonzero]

theorem someDigits?_append {digits : List Nat} (read : someDigits? bytes = some (digits, rest)) :
    someDigits? (bytes ++ more) = some (digits, rest ++ more) := by
  unfold someDigits? at read ⊢
  split at read
  · cases read
  · next some =>
    obtain ⟨rfl, rfl⟩ := Prod.mk.inj (Option.some.inj read)
    rw [takeWhile_append stops, dropWhile_append stops, if_neg some]

def powerSign (bytes : Bytes) : Bool × Bytes :=
  match bytes with
  | 0x2B :: more => (false, more)
  | 0x2D :: more => (true, more)
  | _ => (false, bytes)

omit stops in
theorem exponentPart?_cons (e : UInt8) (bytes : Bytes) : exponentPart? (e :: bytes) =
    if e = 0x65 ∨ e = 0x45 then
      (someDigits? (powerSign bytes).2).map fun r => (some ((powerSign bytes).1, r.1), r.2)
    else some (none, e :: bytes) := by
  show (if e = 0x65 ∨ e = 0x45 then
    (someDigits? (powerSign bytes).2 >>= fun r => some (some ((powerSign bytes).1, r.1), r.2))
    else some (none, e :: bytes)) = _
  rw [Option.map_eq_bind]
  rfl

omit stops in
theorem powerSign_append (b : UInt8) (bytes : Bytes) :
    powerSign (b :: bytes ++ more) = ((powerSign (b :: bytes)).1, (powerSign (b :: bytes)).2 ++ more) := by
  by_cases plus : b = 0x2B
  · subst plus
    rfl
  · by_cases minus : b = 0x2D
    · subst minus
      rfl
    · have unsigned : ∀ bytes : Bytes, powerSign (b :: bytes) = (false, b :: bytes) := by
        intro bytes
        unfold powerSign
        split
        · next same => exact absurd (List.cons.inj same).1 plus
        · next same => exact absurd (List.cons.inj same).1 minus
        · rfl
      rw [List.cons_append, unsigned, unsigned]
      rfl

theorem exponentPart?_append {exponent : Option (Bool × List Nat)}
    (read : exponentPart? bytes = some (exponent, rest)) :
    exponentPart? (bytes ++ more) = some (exponent, rest ++ more) := by
  cases bytes with
  | nil =>
    cases read
    contradiction
  | cons e bytes =>
    rw [exponentPart?_cons] at read
    rw [List.cons_append, exponentPart?_cons]
    split at read
    · next letter =>
      rw [if_pos letter]
      cases bytes with
      | nil => cases read
      | cons b bytes =>
        obtain ⟨⟨digits, left⟩, power, same⟩ := Option.map_eq_some_iff.1 read
        cases same
        rw [powerSign_append, someDigits?_append stops more power]
        rfl
    · next other =>
      cases read
      rw [if_neg other]
      rfl

def fraction? (bytes : Bytes) : Option (List Nat × Bytes) :=
  match bytes with
  | 0x2E :: more => someDigits? more
  | _ => some ([], bytes)

theorem fraction?_append {digits : List Nat} (read : fraction? bytes = some (digits, rest)) :
    fraction? (bytes ++ more) = some (digits, rest ++ more) := by
  cases bytes with
  | nil =>
    cases read
    contradiction
  | cons b tail =>
    by_cases point : b = 0x2E
    · subst point
      exact someDigits?_append stops more read
    · have whole : ∀ tail : Bytes, fraction? (b :: tail) = some ([], b :: tail) := by
        intro tail
        unfold fraction?
        split
        · next same => exact absurd (List.cons.inj same).1 point
        · rfl
      rw [whole] at read
      cases read
      exact whole (tail ++ more)

omit stops in
theorem sign_append {b : UInt8} {tail : Bytes} :
    sign (b :: tail ++ more) = ((sign (b :: tail)).1, (sign (b :: tail)).2 ++ more) := by
  by_cases minus : b = 0x2D
  · subst minus
    rfl
  · have unsigned : ∀ tail : Bytes, sign (b :: tail) = (false, b :: tail) := by
      intro tail
      unfold sign
      split
      · next same => exact absurd (List.cons.inj same).1 minus
      · rfl
    rw [List.cons_append, unsigned, unsigned]
    rfl

omit stops in
theorem unsigned?_eq (negative : Bool) (bytes : Bytes) : unsigned? negative bytes =
    (wholeDigits? bytes).bind fun w => (fraction? w.2).bind fun f =>
      (exponentPart? f.2).map fun e => (⟨negative, w.1, f.1, e.1⟩, e.2) := by
  refine congrArg (wholeDigits? bytes).bind (funext fun w => ?_)
  obtain ⟨whole, rest⟩ := w
  unfold fraction?
  dsimp only
  split
  · simp only [Option.map_eq_bind]
    rfl
  · simp only [Option.map_eq_bind]
    rfl

theorem numeral?_append {n : Numeral} (read : numeral? bytes = some (n, rest)) :
    numeral? (bytes ++ more) = some (n, rest ++ more) := by
  cases bytes with
  | nil => cases read
  | cons b tail =>
    rw [numeral?_eq] at read ⊢
    rw [sign_append, unsigned?_eq]
    rw [unsigned?_eq] at read
    obtain ⟨⟨whole, left⟩, wholeRead, read⟩ := Option.bind_eq_some_iff.1 read
    obtain ⟨⟨digits, left'⟩, fractionRead, read⟩ := Option.bind_eq_some_iff.1 read
    obtain ⟨⟨exponent, _⟩, exponentRead, same⟩ := Option.map_eq_some_iff.1 read
    cases same
    -- Nothing comes to its end before the last part does.
    have stops' : left' ≠ [] := by
      rintro rfl
      cases exponentRead
      contradiction
    have stops'' : left ≠ [] := by
      rintro rfl
      cases fractionRead
      contradiction
    simp only [wholeDigits?_append stops'' more wholeRead, Option.bind_some,
      fraction?_append stops' more fractionRead, exponentPart?_append stops more exponentRead,
      Option.map_some]

end Numbers

/-! ## Words and strings -/

theorem afterWord?_append {word bytes rest : Bytes} (read : afterWord? word bytes = some rest)
    (more : Bytes) : afterWord? word (bytes ++ more) = some (rest ++ more) := by
  unfold afterWord? at read ⊢
  split at read
  · next here =>
    obtain ⟨behind, rfl⟩ := List.isPrefixOf_iff_prefix.1 here
    obtain rfl := Option.some.inj read
    rw [if_pos (List.isPrefixOf_iff_prefix.2 ⟨behind ++ more, (List.append_assoc _ _ _).symm⟩)]
    rw [List.append_assoc, List.drop_left, List.drop_left]
  · cases read

theorem stringParts?_escape {letter b : UInt8} (escape : letterEscape? letter = some b)
    (done : List StringPart) (rest : Bytes) :
    stringParts? done (0x5C :: letter :: rest) = stringParts? (.byte b :: done) rest := by
  rw [stringParts?.eq_def]
  split
  · contradiction
  · next same => cases same
  · next same =>
    cases same
    cases escape
  · next same =>
    cases same
    simp only [escape]
  · next noLetter same =>
    obtain ⟨rfl, rfl⟩ := List.cons.inj same
    exact (noLetter letter rest rfl rfl).elim

theorem stringParts?_append {done parts : List StringPart} {bytes rest : Bytes}
    (read : stringParts? done bytes = some (parts, rest)) (more : Bytes) :
    stringParts? done (bytes ++ more) = some (parts, rest ++ more) := by
  fun_induction stringParts? done bytes with
  | case1 => cases read
  | case2 =>
    cases read
    rfl
  | case3 done a b c d tail w x y z d' c' b' a' ih =>
    simp only [List.cons_append, stringParts?, a', b', c', d']
    exact ih read
  | case4 => cases read
  | case5 done letter tail _ b escape ih =>
    rw [List.cons_append, List.cons_append, stringParts?_escape escape]
    exact ih read
  | case6 => cases read
  | case7 => cases read
  | case8 done b tail noQuote _ _ visible ih =>
    obtain ⟨low, noEscape⟩ := not_or.1 visible
    have plain : IsPlain b := ⟨UInt8.le_iff_toNat_le.1 (UInt8.not_lt.1 low), noQuote, noEscape⟩
    rw [List.cons_append, stringParts?_plain plain]
    exact ih read

/-! ## Values -/

namespace Node

/-- Whether a node is written as a number, which may go on with what stands behind it. -/
def isNumber : Node → Bool
  | .number _ => true
  | _ => false

theorem skipSpaces_of_read? {fuel : Nat} {bytes rest : Bytes} {node : Node}
    (read : read? fuel bytes = some (node, rest)) : ∃ b tail, skipSpaces bytes = b :: tail := by
  cases fuel with
  | zero => cases read
  | succ fuel =>
    cases skipped : skipSpaces bytes with
    | nil =>
      rw [read?, skipped] at read
      cases read
    | cons b tail => exact ⟨b, tail, rfl⟩

theorem skipSpaces_of_readItems? {fuel : Nat} {done items : List Node} {bytes rest : Bytes}
    (read : readItems? fuel done bytes = some (items, rest)) :
    ∃ b tail, skipSpaces bytes = b :: tail := by
  cases fuel with
  | zero => cases read
  | succ fuel =>
    rw [readItems?] at read
    split at read
    · cases read
    · next first => exact skipSpaces_of_read? first

theorem skipSpaces_of_readMembers? {fuel : Nat} {done members : List (Option String × Node)}
    {bytes rest : Bytes} (read : readMembers? fuel done bytes = some (members, rest)) :
    ∃ b tail, skipSpaces bytes = b :: tail := by
  cases fuel with
  | zero => cases read
  | succ fuel =>
    rw [readMembers?] at read
    split at read
    · next quote => exact ⟨_, _, quote⟩
    · cases read

/-- What reading with some fuel gives is given with more fuel and more text as well. -/
structure Continues (fuel : Nat) : Prop where
  node : ∀ {bytes rest : Bytes} {node : Node} {fuel' : Nat} (more : Bytes), fuel ≤ fuel' →
    read? fuel bytes = some (node, rest) → rest ≠ [] ∨ node.isNumber = false →
      read? fuel' (bytes ++ more) = some (node, rest ++ more)
  items : ∀ {done items : List Node} {bytes rest : Bytes} {fuel' : Nat} (more : Bytes),
    fuel ≤ fuel' → readItems? fuel done bytes = some (items, rest) →
      readItems? fuel' done (bytes ++ more) = some (items, rest ++ more)
  members : ∀ {done members : List (Option String × Node)} {bytes rest : Bytes} {fuel' : Nat}
    (more : Bytes), fuel ≤ fuel' → readMembers? fuel done bytes = some (members, rest) →
      readMembers? fuel' done (bytes ++ more) = some (members, rest ++ more)

section Step

variable {fuel : Nat} (continues : Continues fuel) {bytes rest : Bytes} {fuel' : Nat}
  (more : Bytes) (enough : fuel ≤ fuel')

include continues enough

theorem readItems?_append {done items : List Node}
    (read : readItems? (fuel + 1) done bytes = some (items, rest)) :
    readItems? (fuel' + 1) done (bytes ++ more) = some (items, rest ++ more) := by
  rw [readItems?] at read ⊢
  split at read
  · cases read
  · next item mid first =>
    have goesOn : mid ≠ [] := by
      rintro rfl
      cases read
    rw [continues.node more enough first (.inl goesOn)]
    dsimp only
    split at read
    · next comma =>
      simp only [skipSpaces_append comma]
      exact continues.items more enough read
    · next bracket =>
      cases read
      simp only [skipSpaces_append bracket]
    · cases read

theorem readMembers?_append {done members : List (Option String × Node)}
    (read : readMembers? (fuel + 1) done bytes = some (members, rest)) :
    readMembers? (fuel' + 1) done (bytes ++ more) = some (members, rest ++ more) := by
  rw [readMembers?] at read ⊢
  split at read
  · next quote =>
    simp only [skipSpaces_append quote]
    split at read
    · cases read
    · next string =>
      rw [stringParts?_append string]
      dsimp only
      split at read
      · next colon =>
        simp only [skipSpaces_append colon]
        split at read
        · cases read
        · next node mid value =>
          have goesOn : mid ≠ [] := by
            rintro rfl
            cases read
          rw [continues.node more enough value (.inl goesOn)]
          dsimp only
          split at read
          · next comma =>
            simp only [skipSpaces_append comma]
            exact continues.members more enough read
          · next brace =>
            cases read
            simp only [skipSpaces_append brace]
          · cases read
      · cases read
  · cases read

theorem read?_append_succ {node : Node} (read : read? (fuel + 1) bytes = some (node, rest))
    (ended : rest ≠ [] ∨ node.isNumber = false) :
    read? (fuel' + 1) (bytes ++ more) = some (node, rest ++ more) := by
  rw [read?] at read ⊢
  split at read
  · cases read
  · next quote =>
    simp only [skipSpaces_append quote]
    obtain ⟨⟨parts, left⟩, string, same⟩ := Option.map_eq_some_iff.1 read
    cases same
    rw [stringParts?_append string]
    rfl
  · next bracket =>
    simp only [skipSpaces_append bracket]
    split at read
    · next close =>
      cases read
      simp only [skipSpaces_append close]
    · next tail notClosed =>
      obtain ⟨⟨items, left⟩, inside, same⟩ := Option.map_eq_some_iff.1 read
      cases same
      obtain ⟨b, behind, visible⟩ := skipSpaces_of_readItems? inside
      rw [skipSpaces_append visible]
      split
      · next same =>
        cases same
        exact (notClosed _ visible).elim
      · rw [continues.items more enough inside]
        rfl
  · next brace =>
    simp only [skipSpaces_append brace]
    split at read
    · next close =>
      cases read
      simp only [skipSpaces_append close]
    · next tail notClosed =>
      obtain ⟨⟨members, left⟩, inside, same⟩ := Option.map_eq_some_iff.1 read
      cases same
      obtain ⟨b, behind, visible⟩ := skipSpaces_of_readMembers? inside
      rw [skipSpaces_append visible]
      split
      · next same =>
        cases same
        exact (notClosed _ visible).elim
      · rw [continues.members more enough inside]
        rfl
  · next word =>
    simp only [skipSpaces_append word]
    obtain ⟨left, here, same⟩ := Option.map_eq_some_iff.1 read
    cases same
    rw [afterWord?_append here]
    rfl
  · next word =>
    simp only [skipSpaces_append word]
    obtain ⟨left, here, same⟩ := Option.map_eq_some_iff.1 read
    cases same
    rw [afterWord?_append here]
    rfl
  · next word =>
    simp only [skipSpaces_append word]
    obtain ⟨left, here, same⟩ := Option.map_eq_some_iff.1 read
    cases same
    rw [afterWord?_append here]
    rfl
  · next notNil notQuote notBracket notBrace notN notT notF =>
    obtain ⟨⟨number, left⟩, here, same⟩ := Option.map_eq_some_iff.1 read
    cases same
    have stops : left ≠ [] := ended.resolve_right nofun
    cases skipped : skipSpaces bytes with
    | nil => exact (notNil skipped).elim
    | cons b tail =>
      rw [skipped] at here
      rw [skipSpaces_append skipped]
      have number := numeral?_append stops more here
      split
      · next same => cases same
      · next same =>
        cases same
        exact (notQuote _ skipped).elim
      · next same =>
        cases same
        exact (notBracket _ skipped).elim
      · next same =>
        cases same
        exact (notBrace _ skipped).elim
      · next same =>
        cases same
        exact (notN _ skipped).elim
      · next same =>
        cases same
        exact (notT _ skipped).elim
      · next same =>
        cases same
        exact (notF _ skipped).elim
      · rw [← List.cons_append, number]
        rfl

end Step

/-- By induction on the fuel that is enough for the text as it is. -/
theorem continues (fuel : Nat) : Continues fuel := by
  induction fuel with
  | zero =>
    constructor
    · exact fun _ _ read => nomatch read
    · exact fun _ _ read => nomatch read
    · exact fun _ _ read => nomatch read
  | succ fuel ih =>
    have spare {fuel' : Nat} (enough : fuel + 1 ≤ fuel') : ∃ k, fuel' = k + 1 ∧ fuel ≤ k :=
      ⟨fuel' - 1, by omega, by omega⟩
    constructor
    · intro bytes rest node fuel' more enough read ended
      obtain ⟨k, rfl, enough'⟩ := spare enough
      exact read?_append_succ ih more enough' read ended
    · intro done items bytes rest fuel' more enough read
      obtain ⟨k, rfl, enough'⟩ := spare enough
      exact readItems?_append ih more enough' read
    · intro done members bytes rest fuel' more enough read
      obtain ⟨k, rfl, enough'⟩ := spare enough
      exact readMembers?_append ih more enough' read

/-- What was read from the front of a text is read from it with more behind it, unless it is a
number that the text ends with. -/
theorem read?_append {fuel fuel' : Nat} (enough : fuel ≤ fuel') {bytes rest : Bytes} {node : Node}
    (read : read? fuel bytes = some (node, rest)) (ended : rest ≠ [] ∨ node.isNumber = false)
    (more : Bytes) : read? fuel' (bytes ++ more) = some (node, rest ++ more) :=
  (continues fuel).node more enough read ended

/-! ## Whole texts -/

/-- A text is not whole any more when something else than blanks is put behind it. -/
theorem parse?_append {bytes : Bytes} {node : Node} (whole : parse? bytes = some node)
    (ended : node.isNumber = false) {more : Bytes} {b : UInt8} (mem : b ∈ more)
    (visible : isSpace b = false) : parse? (bytes ++ more) = none := by
  unfold parse? at whole ⊢
  split at whole
  · next node' rest read =>
    split at whole
    · obtain rfl := Option.some.inj whole
      have enough : 2 * bytes.length + 2 ≤ 2 * (bytes ++ more).length + 2 := by
        rw [List.length_append]
        omega
      rw [read?_append enough read (.inr ended)]
      have left : skipSpaces (rest ++ more) ≠ [] :=
        Text.dropWhile_ne_nil (List.mem_append_right rest mem) visible
      exact if_neg (by simpa using left)
    · cases whole
  · cases whole

theorem read?_blank {blank : Bytes} (spaces : ∀ b ∈ blank, isSpace b = true) (fuel : Nat)
    (bytes : Bytes) : read? (fuel + 1) (blank ++ bytes) = read? (fuel + 1) bytes := by
  rw [read?, read?, skipSpaces_blank spaces]

/-- Blanks alone are no text. -/
theorem parse?_of_spaces {bytes : Bytes} (spaces : ∀ b ∈ bytes, isSpace b = true) :
    parse? bytes = none := by
  have none : read? (2 * bytes.length + 2) bytes = none := by
    rw [← List.append_nil bytes, read?_blank spaces]
    rfl
  rw [parse?, none]

/-- Blanks in front of a text are skipped. -/
theorem parse?_blank {blank bytes : Bytes} {node : Node} (spaces : ∀ b ∈ blank, isSpace b = true)
    (whole : parse? bytes = some node) (ended : node.isNumber = false) :
    parse? (blank ++ bytes) = some node := by
  unfold parse? at whole ⊢
  split at whole
  · next node' rest read =>
    split at whole
    · next blank' =>
      obtain rfl := Option.some.inj whole
      have enough : 2 * bytes.length + 2 ≤ 2 * (blank ++ bytes).length + 2 := by
        rw [List.length_append]
        omega
      have more := read?_append enough read (.inr ended) []
      rw [List.append_nil, List.append_nil] at more
      rw [read?_blank spaces, more]
      exact if_pos blank'
    · cases whole
  · cases whole

def StartsValue (b : UInt8) : Prop := b ∈ [0x22, 0x5B, 0x7B, 0x6E, 0x74, 0x66] ∨ StartsNumber b

instance (b : UInt8) : Decidable (StartsValue b) :=
  inferInstanceAs (Decidable (b ∈ [0x22, 0x5B, 0x7B, 0x6E, 0x74, 0x66] ∨ StartsNumber b))

theorem StartsValue.ascii {b : UInt8} (start : StartsValue b) : b.toNat < 128 := by
  rcases start with sign | digit | rfl
  · have all : ∀ c ∈ ([0x22, 0x5B, 0x7B, 0x6E, 0x74, 0x66] : Bytes), c.toNat < 128 := by simp
    exact all b sign
  · simp only [isDigitByte, Bool.and_eq_true, decide_eq_true_eq] at digit
    exact Nat.lt_of_le_of_lt (UInt8.le_iff_toNat_le.1 digit.2) (by decide)
  · decide

theorem numeral?_of_start {b : UInt8} (other : ¬ StartsNumber b) (bytes : Bytes) :
    numeral? (b :: bytes) = none := by
  obtain ⟨noDigit, noSign⟩ := not_or.1 other
  have unsigned : sign (b :: bytes) = (false, b :: bytes) := by
    unfold sign
    split
    · next same => exact absurd (List.cons.inj same).1 noSign
    · rfl
  rw [numeral?_eq, unsigned, unsigned?_eq, wholeDigits?, List.takeWhile_cons_of_neg noDigit]
  rfl

/-- What starts with a byte that no value starts with is no text. -/
theorem parse?_of_start {blank bytes : Bytes} {b : UInt8} (spaces : ∀ b ∈ blank, isSpace b = true)
    (visible : isSpace b = false) (other : ¬ StartsValue b) : parse? (blank ++ b :: bytes) = none := by
  obtain ⟨noSign, noNumber⟩ := not_or.1 other
  have none : ∀ fuel, read? (fuel + 1) (b :: bytes) = none := by
    intro fuel
    rw [read?, skipSpaces_cons visible]
    split
    · rfl
    iterate 6
      · next same =>
        cases same
        exact (noSign (by decide)).elim
    · rw [numeral?_of_start noNumber]
      rfl
  unfold parse?
  rw [read?_blank spaces, none]

end Node

end SecureInbox.Json
