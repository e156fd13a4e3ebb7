import SecureInbox.Text.Utf8

/-! # The bytes of characters

A text is encoded character by character (`utf8_ofList`).  A character below 128 is a
single byte, and every byte of any other character is at least 128
(`utf8EncodeChar_ascii`, `high_of_mem_utf8EncodeChar`), so a byte below 128 always stands
for itself. -/
set_option autoImplicit false

namespace SecureInbox.Text

theorem ofUtf8?_eq_some {bytes : Bytes} {text : String} :
    ofUtf8? bytes = some text ↔ bytes = utf8 text := by
  constructor
  · intro read
    exact (utf8_of_ofUtf8? read).symm
  · rintro rfl
    exact ofUtf8?_utf8 text

theorem utf8_ofList (cs : List Char) :
    utf8 (String.ofList cs) = cs.flatMap String.utf8EncodeChar := by
  simp [utf8, List.utf8Encode]

theorem utf8_eq_flatMap (text : String) :
    utf8 text = text.toList.flatMap String.utf8EncodeChar := by
  rw [← utf8_ofList, String.ofList_toList]

theorem utf8EncodeChar_ascii {c : Char} (ascii : c.toNat < 128) :
    String.utf8EncodeChar c = [UInt8.ofNat c.toNat] := by
  have small : c.val.toNat ≤ 127 := Nat.le_of_lt_succ ascii
  simp only [String.utf8EncodeChar, small, if_true]
  rfl

def charBytes (cs : List Char) : Bytes := cs.flatMap String.utf8EncodeChar

theorem charBytes_append (front back : List Char) :
    charBytes (front ++ back) = charBytes front ++ charBytes back := List.flatMap_append

theorem charBytes_ascii {c : Char} (ascii : c.toNat < 128) (cs : List Char) :
    charBytes (c :: cs) = UInt8.ofNat c.toNat :: charBytes cs := by
  rw [charBytes, List.flatMap_cons, utf8EncodeChar_ascii ascii]
  rfl

theorem length_le_charBytes (cs : List Char) : cs.length ≤ (charBytes cs).length := by
  induction cs with
  | nil => exact Nat.le_refl 0
  | cons c rest ih =>
    have one := c.utf8Size_pos
    rw [charBytes] at ih ⊢
    rw [List.flatMap_cons, List.length_append, String.length_utf8EncodeChar, List.length_cons]
    omega

theorem high_of_mem_utf8EncodeChar {c : Char} (high : 128 ≤ c.toNat) {b : UInt8}
    (mem : b ∈ String.utf8EncodeChar c) : 128 ≤ b.toNat := by
  have large : ¬ c.val.toNat ≤ 127 := Nat.not_le_of_lt high
  simp only [String.utf8EncodeChar, large, if_false] at mem
  -- One case for each length: every byte is `n % m` above a tag of at least 128.
  split at mem
  · simp only [List.mem_cons, List.not_mem_nil, or_false] at mem
    rcases mem with rfl | rfl <;> simp only [UInt8.toNat_ofNat'] <;> omega
  · split at mem
    · simp only [List.mem_cons, List.not_mem_nil, or_false] at mem
      rcases mem with rfl | rfl | rfl <;> simp only [UInt8.toNat_ofNat'] <;> omega
    · simp only [List.mem_cons, List.not_mem_nil, or_false] at mem
      rcases mem with rfl | rfl | rfl | rfl <;> simp only [UInt8.toNat_ofNat'] <;> omega

end SecureInbox.Text
