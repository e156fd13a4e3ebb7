import SecureInbox.Intake.Endpoint

/-! # Padding comes off again

A plaintext that was padded with a drawn number of bytes gives back its type byte and
its body (`Padding.decode_encode`), and a text that unpads at all is a text with its
padding behind it (`Padding.unpads_exactly`).  So a message inside a frame is the one that
was put there if its body survives its own encoding (`innerMessage_toPlaintext`). -/
set_option autoImplicit false

namespace SecureInbox

namespace Padding

theorem lengthFor_bounds {drawn : Nat} (plain : Nat) (positive : 0 < drawn) (small : drawn < 256) :
    0 < lengthFor drawn plain ∧ lengthFor drawn plain < 256 := by
  unfold lengthFor minimum
  split <;> omega

theorem unpad_append (text : Bytes) {n : Nat} (positive : 0 < n) (small : n < 256) :
    unpad (text ++ List.replicate n (UInt8.ofNat n)) = .ok text := by
  have value : (UInt8.ofNat n).toNat = n := UInt8.toNat_ofNat_of_lt' small
  have last : (text ++ List.replicate n (UInt8.ofNat n)).getLast? = some (UInt8.ofNat n) := by
    obtain ⟨k, rfl⟩ : ∃ k, n = k + 1 := ⟨n - 1, by omega⟩
    rw [List.replicate_succ', ← List.append_assoc, List.getLast?_concat]
  have length : (text ++ List.replicate n (UInt8.ofNat n)).length = text.length + n := by simp
  have rest : text.length + n - n = text.length := Nat.add_sub_cancel ..
  unfold unpad
  rw [last]
  dsimp only
  rw [value, length, rest, List.drop_left', List.take_left', if_neg, if_pos]
  · simp
  · omega
  · rfl
  · rfl

/-- What comes off a padded text is all of it: `n` bytes of value `n`, and at least one. -/
theorem eq_append_of_unpad {padded text : Bytes} (unpadded : unpad padded = .ok text) :
    ∃ n, 1 ≤ n ∧ n ≤ 255 ∧ padded = text ++ List.replicate n (UInt8.ofNat n) := by
  cases ends : padded.getLast? with
  | none => simp [unpad, ends] at unpadded
  | some last =>
    simp only [unpad, ends] at unpadded
    split at unpadded
    · cases unpadded
    · rename_i fits
      obtain ⟨positive, within⟩ : last.toNat ≠ 0 ∧ last.toNat ≤ padded.length := by omega
      split at unpadded
      · rename_i alike
        cases unpadded
        have rest : padded.drop (padded.length - last.toNat) =
            List.replicate last.toNat last := by
          refine List.eq_replicate_iff.mpr ⟨?_, fun b hb => ?_⟩
          · rw [List.length_drop, Nat.sub_sub_self within]
          · exact beq_iff_eq.mp (List.all_eq_true.mp alike b hb)
        refine ⟨last.toNat, by omega, Nat.le_of_lt_succ last.toNat_lt, ?_⟩
        rw [UInt8.ofNat_toNat, ← rest, List.take_append_drop]
      · cases unpadded

theorem unpad_eq_ok_iff (padded text : Bytes) :
    unpad padded = .ok text ↔
      ∃ n, 1 ≤ n ∧ n ≤ 255 ∧ padded = text ++ List.replicate n (UInt8.ofNat n) := by
  refine ⟨eq_append_of_unpad, ?_⟩
  rintro ⟨n, positive, small, rfl⟩
  exact unpad_append text positive (Nat.lt_succ_of_le small)

theorem minimum_le_length_encode (drawn : Nat) (typeByte : UInt8) (body : Bytes) :
    minimum ≤ (encode drawn typeByte body).length := by
  have length : (encode drawn typeByte body).length =
      body.length + lengthFor drawn (body.length + 1) + 1 := by simp [encode, pad]
  rw [length]
  unfold lengthFor
  split <;> omega

theorem decode_encode {drawn : Nat} (positive : 0 < drawn) (small : drawn < 256) (typeByte : UInt8)
    (body : Bytes) : decode (encode drawn typeByte body) = .ok (typeByte, body) := by
  obtain ⟨some, fits⟩ := lengthFor_bounds (typeByte :: body).length positive small
  unfold decode encode pad
  dsimp only
  rw [unpad_append _ some fits]
  rfl

/-- Padding is exact: a text unpads to what stands before `n` bytes of value `n`, whatever
the text before them ends in, and to nothing else.  What is padded for the wire has at least
32 bytes, of which from 1 to 255 are padding, and it gives back its type byte and its body. -/
theorem unpads_exactly :
    (∀ padded text : Bytes, unpad padded = .ok text ↔
      ∃ n, 1 ≤ n ∧ n ≤ 255 ∧ padded = text ++ List.replicate n (UInt8.ofNat n)) ∧
    ∀ (drawn : Fin 255) (typeByte : UInt8) (body : Bytes),
      (∃ n, 1 ≤ n ∧ n ≤ 255 ∧ encode (drawn.val + 1) typeByte body =
        (typeByte :: body) ++ List.replicate n (UInt8.ofNat n)) ∧
      32 ≤ (encode (drawn.val + 1) typeByte body).length ∧
      decode (encode (drawn.val + 1) typeByte body) = .ok (typeByte, body) := by
  refine ⟨unpad_eq_ok_iff, fun drawn typeByte body => ⟨?_, ?_, ?_⟩⟩
  · obtain ⟨some, fits⟩ :=
      lengthFor_bounds (typeByte :: body).length (Nat.succ_pos drawn.val) (Nat.succ_lt_succ drawn.isLt)
    exact ⟨_, some, Nat.le_of_lt_succ fits, rfl⟩
  · exact minimum_le_length_encode (drawn.val + 1) typeByte body
  · exact decode_encode (Nat.succ_pos drawn.val) (Nat.succ_lt_succ drawn.isLt) typeByte body

/-- A body that ends as padding does keeps that end. -/
example : decode (encode 2 1 (List.replicate 40 2)) = .ok (1, List.replicate 40 2) := rfl

end Padding

/-! ## What a padded plaintext holds -/

section Unpadded

variable {plaintext : Bytes} {typeByte : UInt8} {content : Bytes}

theorem Body.ofPlaintext_of_unpadded (unpadded : Padding.decode plaintext = .ok (typeByte, content)) :
    Body.ofPlaintext plaintext = Body.decode typeByte content := by
  unfold Body.ofPlaintext
  rw [unpadded]
  rfl

theorem Boxed.message_of_unpadded {suite : Suite} {secret key : Key} {b : Boxed}
    (opened : suite.boxOpen secret key b.nonce b.content = .ok plaintext)
    (unpadded : Padding.decode plaintext = .ok (typeByte, content)) :
    b.message suite secret key =
      ((Body.decode typeByte content).mapError OpenError.format).map b.withBody := by
  unfold Boxed.message
  rw [opened]
  show (do return b.withBody (← (Body.ofPlaintext plaintext).mapError .format) :
    Except OpenError Message) = _
  rw [Body.ofPlaintext_of_unpadded unpadded]
  cases Body.decode typeByte content <;> rfl

theorem Endpoint.innerMessage_of_unpadded {outer : Message} {group : Option GroupRef}
    (unpadded : Padding.decode plaintext = .ok (typeByte, content)) :
    innerMessage outer plaintext group =
      match Body.decode typeByte content with
      | .error e => .error (.innerBody e)
      | .ok body =>
        if ({ outer with body } : Message).group? = group then .ok { outer with body }
        else .error .otherGroup := by
  unfold innerMessage
  rw [unpadded]
  show (do
    let body ← (Body.decode typeByte content).mapError FormatFault.innerBody
    let inner := { outer with body }
    if inner.group? = group then return inner else throw .otherGroup :
      Except FormatFault Message) = _
  cases Body.decode typeByte content <;> rfl

end Unpadded

def Body.Survives (body : Body) : Prop := Body.decode body.encode.1 body.encode.2 = .ok body

theorem innerMessage_toPlaintext (m : Message) (around : Body) (padding : Fin 255)
    (survives : m.body.Survives) :
    Endpoint.innerMessage { m with body := around } (m.body.toPlaintext (padding.val + 1)) m.group? =
      .ok m := by
  have small : padding.val + 1 < 256 := by omega
  have unpadded : Padding.decode (m.body.toPlaintext (padding.val + 1)) =
      .ok (m.body.encode.1, m.body.encode.2) :=
    Padding.decode_encode (Nat.succ_pos _) small _ _
  rw [Endpoint.innerMessage_of_unpadded unpadded,
    show Body.decode m.body.encode.1 m.body.encode.2 = .ok m.body from survives]
  exact if_pos rfl

end SecureInbox
