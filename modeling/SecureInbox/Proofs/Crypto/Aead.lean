import SecureInbox.Crypto.Suite

/-! # Encryption that opens

Each block of a text is combined with the key stream of its counter, so that combining twice
gives the text again (`applyStream_applyStream`).  The tag covers the ciphertext alone, and
decryption finds it behind a ciphertext of the same length as the plaintext.  So the standard
suite decrypts what it encrypts (`Suite.standard_opens`), and a ciphertext is longer than its
plaintext by the tag (`Suite.standard_tags`). -/
set_option autoImplicit false

namespace SecureInbox

namespace ChaCha

theorem length_rowBytes (x : Row) : x.bytes.length = 16 := by
  simp [Row.bytes]

theorem length_block (key nonce : Bytes) (counter : Nat) :
    (block key nonce counter).length = 64 := by
  simp [block, length_rowBytes]

theorem zipWith_xor_xor (text stream : Bytes) (covered : text.length ≤ stream.length) :
    (text.zipWith (· ^^^ ·) stream).zipWith (· ^^^ ·) stream = text := by
  induction text generalizing stream with
  | nil => rfl
  | cons b rest ih =>
    cases stream with
    | nil => cases covered
    | cons k more =>
      have again : b ^^^ k ^^^ k = b := by rw [UInt8.xor_assoc, UInt8.xor_self, UInt8.xor_zero]
      rw [List.zipWith_cons_cons, List.zipWith_cons_cons, again,
        ih more (Nat.le_of_succ_le_succ covered)]

/-- A block of the stream is as long as the part of the text that it is combined with. -/
theorem length_zipWith_block (key nonce : Bytes) (counter : Nat) (text : Bytes) :
    ((text.take 64).zipWith (· ^^^ ·) (block key nonce counter)).length =
      (text.take 64).length := by
  rw [List.length_zipWith, length_block, List.length_take]
  omega

theorem length_applyStream (key nonce : Bytes) {blocks : Nat} (counter : Nat) {text : Bytes}
    (enough : text.length ≤ 64 * blocks) :
    (applyStream key nonce blocks counter text).length = text.length := by
  induction blocks generalizing counter text with
  | zero => exact (Nat.le_zero.1 enough).symm
  | succ blocks ih =>
    have rest : (text.drop 64).length ≤ 64 * blocks := by rw [List.length_drop]; omega
    rw [applyStream, List.length_append, length_zipWith_block, ih _ rest, ← List.length_append,
      List.take_append_drop]

/-- Each block goes on its own: the stream over the first block of a combined text is the first
block of the text, whether it is whole or the last one. -/
theorem applyStream_applyStream (key nonce : Bytes) {blocks : Nat} (counter : Nat) {text : Bytes}
    (enough : text.length ≤ 64 * blocks) :
    applyStream key nonce blocks counter (applyStream key nonce blocks counter text) = text := by
  induction blocks generalizing counter text with
  | zero => exact (List.length_eq_zero_iff.1 (Nat.le_zero.1 enough)).symm
  | succ blocks ih =>
    have rest : (text.drop 64).length ≤ 64 * blocks := by rw [List.length_drop]; omega
    have covered : (text.take 64).length ≤ (block key nonce counter).length := by
      rw [length_block]
      exact List.length_take_le _ _
    have first := zipWith_xor_xor (text.take 64) (block key nonce counter) covered
    have length := length_zipWith_block key nonce counter text
    rcases Nat.le_total 64 text.length with whole | last
    · have exact64 : ((text.take 64).zipWith (· ^^^ ·) (block key nonce counter)).length = 64 := by
        rw [length, List.length_take_of_le whole]
      rw [applyStream, applyStream, List.take_left' exact64, List.drop_left' exact64, first,
        ih _ rest, List.take_append_drop]
    · have none : text.drop 64 = [] := List.drop_of_length_le last
      have small : ((text.take 64).zipWith (· ^^^ ·) (block key nonce counter)).length ≤ 64 := by
        rw [length]
        exact List.length_take_le _ _
      have nothing : applyStream key nonce blocks (counter + 1) [] = [] :=
        List.length_eq_zero_iff.1 (length_applyStream key nonce (counter + 1) (Nat.zero_le _))
      rw [applyStream, applyStream, none, nothing, List.append_nil, List.take_of_length_le small,
        List.drop_of_length_le small, nothing, List.append_nil, first,
        List.take_of_length_le last]

end ChaCha

namespace Aead

theorem length_crypt (key nonce text : Bytes) : (crypt key nonce text).length = text.length :=
  ChaCha.length_applyStream key nonce 1 (by omega)

theorem crypt_crypt (key nonce text : Bytes) : crypt key nonce (crypt key nonce text) = text := by
  rw [crypt, length_crypt]
  exact ChaCha.applyStream_applyStream key nonce 1 (by omega)

theorem length_tagOf (key nonce aad ciphertext : Bytes) :
    (tagOf key nonce aad ciphertext).length = tagLength := by
  simp [tagOf, Poly1305.tag, tagLength]

theorem length_encrypt (key : Block 32) (nonce : Block 24) (plaintext aad : Bytes) :
    (encrypt key nonce plaintext aad).length = plaintext.length + tagLength := by
  rw [encrypt, List.length_append, length_crypt, length_tagOf]

theorem decrypt?_encrypt (key : Block 32) (nonce : Block 24) (plaintext aad : Bytes) :
    decrypt? key nonce (encrypt key nonce plaintext aad) aad = some plaintext := by
  have long : ¬ (encrypt key nonce plaintext aad).length < tagLength := by
    rw [length_encrypt]
    omega
  have front : (encrypt key nonce plaintext aad).length - tagLength =
      (crypt (inner key nonce).1 (inner key nonce).2 plaintext).length := by
    rw [length_encrypt, Nat.add_sub_cancel, length_crypt]
  rw [decrypt?, if_neg long, front, encrypt, List.take_left, List.drop_left]
  simp only [if_pos, crypt_crypt]

end Aead

namespace Suite

theorem standard_opens : standard.Opens := Aead.decrypt?_encrypt

theorem standard_tags : standard.Tags := Aead.length_encrypt

end Suite

end SecureInbox
