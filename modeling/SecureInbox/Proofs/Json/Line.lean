import SecureInbox.Proofs.Json.Reading

/-! # A value on one line

The text of a value has no control characters: strings escape them, and nothing else that is
written is one.  So none of its bytes is a line end (`visible_utf8_compact`). -/
set_option autoImplicit false

namespace SecureInbox.Json

def Visible (cs : List Char) : Prop := ∀ c ∈ cs, 0x20 ≤ c.toNat

instance (cs : List Char) : Decidable (Visible cs) :=
  List.decidableBAll (fun c : Char => 0x20 ≤ c.toNat) cs

namespace Visible

theorem append {front back : List Char} (first : Visible front) (second : Visible back) :
    Visible (front ++ back) := by
  intro c mem
  rcases List.mem_append.1 mem with mem | mem
  · exact first c mem
  · exact second c mem

theorem cons {c : Char} {cs : List Char} (first : 0x20 ≤ c.toNat) (rest : Visible cs) :
    Visible (c :: cs) := List.forall_mem_cons.2 ⟨first, rest⟩

theorem single {c : Char} (visible : 0x20 ≤ c.toNat) : Visible [c] := cons visible nofun

end Visible

theorem visible_digit {n : Nat} (small : n < 16) : 0x20 ≤ (Hex.digit n).toNat := by
  have all : ∀ m : Fin 16, 0x20 ≤ (Hex.digit m.val).toNat := by decide
  exact all ⟨n, small⟩

theorem visible_escapeChar (c : Char) : Visible (escapeChar c) := by
  unfold escapeChar
  split
  iterate 7 decide
  by_cases control : c.toNat < 0x20
  · rw [if_pos control]
    exact .cons (by decide) (.cons (by decide) (.cons (by decide) (.cons (by decide)
      (.cons (visible_digit (by omega)) (.single (visible_digit (by omega)))))))
  · rw [if_neg control]
    exact .single (Nat.le_of_not_lt control)

theorem visible_stringChars (s : String) : Visible (stringChars s) := by
  refine .cons (by decide) (.append ?_ (.single (by decide)))
  intro c mem
  obtain ⟨d, _, mem⟩ := List.mem_flatMap.1 mem
  exact visible_escapeChar d c mem

theorem visible_intChars (i : Int) : Visible (intChars i) := by
  have digits : Visible (Nat.toDigits 10 i.natAbs) := by
    intro c mem
    have digit := Nat.isDigit_of_mem_toDigits (by decide) (by decide) mem
    simp only [Char.isDigit, Bool.and_eq_true, decide_eq_true_eq, ge_iff_le,
      UInt32.le_iff_toNat_le] at digit
    exact Nat.le_trans (by decide) digit.1
  unfold intChars
  split
  · exact .cons (by decide) digits
  · exact digits

mutual
theorem visible_compactChars (v : Json) (whole : v.IsWhole) : Visible v.compactChars := by
  match v with
  | .null => decide
  | .bool true => decide
  | .bool false => decide
  | .string s => exact visible_stringChars s
  | .number (.integer i) => exact visible_intChars i
  | .array [] => decide
  | .array (item :: rest) =>
    exact .cons (by decide)
      (.append (visible_compactChars item whole.1) (visible_compactItems rest whole.2))
  | .object [] => decide
  | .object ((name, value) :: rest) =>
    exact .cons (by decide) (.append (visible_stringChars name) (.cons (by decide)
      (.append (visible_compactChars value whole.1) (visible_compactMembers rest whole.2))))

theorem visible_compactItems (items : List Json) (whole : AreWhole items) :
    Visible (compactItems items) := by
  match items with
  | [] => exact .single (by decide)
  | item :: rest =>
    exact .cons (by decide)
      (.append (visible_compactChars item whole.1) (visible_compactItems rest whole.2))

theorem visible_compactMembers (members : List (String × Json)) (whole : MembersWhole members) :
    Visible (compactMembers members) := by
  match members with
  | [] => exact .single (by decide)
  | (name, value) :: rest =>
    exact .cons (by decide) (.append (visible_stringChars name) (.cons (by decide)
      (.append (visible_compactChars value whole.1) (visible_compactMembers rest whole.2))))
end

theorem visible_utf8_compact {v : Json} (whole : v.IsWhole) {b : UInt8}
    (mem : b ∈ Text.utf8 v.compact) : 0x20 ≤ b.toNat := by
  rw [compact, Text.utf8_ofList] at mem
  obtain ⟨c, written, mem⟩ := List.mem_flatMap.1 mem
  have visible := visible_compactChars v whole c written
  by_cases ascii : c.toNat < 128
  · rw [Text.utf8EncodeChar_ascii ascii, List.mem_singleton] at mem
    rw [mem, UInt8.toNat_ofNat_of_lt' (Nat.lt_trans ascii (by decide))]
    exact visible
  · exact Nat.le_trans (by decide) (Text.high_of_mem_utf8EncodeChar (Nat.le_of_not_lt ascii) mem)

end SecureInbox.Json
