import SecureInbox.Bytes.Basic

/-! # UTF-8

`utf8` is the encoding of a text and `ofUtf8?` its inverse on well-formed octet
strings (`ofUtf8?_utf8`, `utf8_of_ofUtf8?`).  `lossy` reads any octet string:
each maximal ill-formed piece becomes one replacement character. -/
set_option autoImplicit false

namespace SecureInbox.Text

/-- The UTF-8 encoding of a text. -/
def utf8 (text : String) : Bytes := text.toByteArray.data.toList

/-- The text that `bytes` encode, if they are well-formed UTF-8. -/
def ofUtf8? (bytes : Bytes) : Option String := String.fromUTF8? ⟨bytes.toArray⟩

@[simp] theorem ofUtf8?_utf8 (text : String) : ofUtf8? (utf8 text) = some text := by
  have whole : (⟨(utf8 text).toArray⟩ : ByteArray) = text.toByteArray := by simp [utf8]
  rw [ofUtf8?, whole, String.fromUTF8?, dif_pos text.isValidUTF8]
  rfl

theorem utf8_of_ofUtf8? {bytes : Bytes} {text : String} (h : ofUtf8? bytes = some text) :
    utf8 text = bytes := by
  unfold ofUtf8? String.fromUTF8? at h
  split at h
  · cases h; simp [utf8, String.fromUTF8]
  · exact nomatch h

/-- How many bytes a text takes. -/
def size (text : String) : Nat := text.utf8ByteSize

/-- The piece at the front of an octet string: a character, or an ill-formed
piece; `extra` counts its bytes after the first. -/
inductive Piece where
  | char (c : Char) (extra : Nat)
  | broken (extra : Nat)

def isTail (b : UInt8) : Bool := 0x80 ≤ b && b ≤ 0xBF

def tailBits (b : UInt8) : Nat := b.toNat % 64

/-- The bytes that may follow `lead` in a well-formed character. -/
def secondRange (lead : UInt8) : UInt8 × UInt8 :=
  if lead = 0xE0 then (0xA0, 0xBF)
  else if lead = 0xED then (0x80, 0x9F)
  else if lead = 0xF0 then (0x90, 0xBF)
  else if lead = 0xF4 then (0x80, 0x8F)
  else (0x80, 0xBF)

def isSecond (lead b : UInt8) : Bool := (secondRange lead).1 ≤ b && b ≤ (secondRange lead).2

/-- The piece that starts with `lead` and goes on in `rest`. -/
def Piece.front (lead : UInt8) (rest : Bytes) : Piece :=
  if lead < 0x80 then .char (Char.ofNat lead.toNat) 0
  else if 0xC2 ≤ lead ∧ lead ≤ 0xDF then
    match rest with
    | b :: _ => if isTail b then .char (Char.ofNat (lead.toNat % 32 * 64 + tailBits b)) 1 else .broken 0
    | [] => .broken 0
  else if 0xE0 ≤ lead ∧ lead ≤ 0xEF then
    match rest with
    | b :: tail =>
      if isSecond lead b then
        match tail with
        | c :: _ =>
          if isTail c then
            .char (Char.ofNat (lead.toNat % 16 * 4096 + tailBits b * 64 + tailBits c)) 2
          else .broken 1
        | [] => .broken 1
      else .broken 0
    | [] => .broken 0
  else if 0xF0 ≤ lead ∧ lead ≤ 0xF4 then
    match rest with
    | b :: tail =>
      if isSecond lead b then
        match tail with
        | c :: tail =>
          if isTail c then
            match tail with
            | d :: _ =>
              if isTail d then
                .char (Char.ofNat (lead.toNat % 8 * 262144 + tailBits b * 4096
                  + tailBits c * 64 + tailBits d)) 3
              else .broken 2
            | [] => .broken 2
          else .broken 1
        | [] => .broken 1
      else .broken 0
    | [] => .broken 0
  else .broken 0

/-- The characters of an octet string, one replacement character for each
maximal ill-formed piece. -/
def lossyChars : Bytes → List Char
  | [] => []
  | lead :: rest =>
    match Piece.front lead rest with
    | .char c extra => c :: lossyChars (rest.drop extra)
    | .broken extra => '\uFFFD' :: lossyChars (rest.drop extra)
termination_by bytes => bytes.length
decreasing_by all_goals simp only [List.length_drop, List.length_cons]; omega

def lossy (bytes : Bytes) : String := String.ofList (lossyChars bytes)

end SecureInbox.Text
