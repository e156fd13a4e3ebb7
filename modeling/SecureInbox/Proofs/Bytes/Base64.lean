import SecureInbox.Bytes.Base64

/-! # Base64 read back

Three bytes are four numbers below sixty-four, and one or two bytes at the end are two or three
of them with zeros below (`sextets`).  Each number has its letter (`value?_letter`), so that what
is written is read as it was (`decode?_encode`). -/
set_option autoImplicit false

namespace SecureInbox.Base64

def sextets : Bytes → List Nat
  | [] => []
  | [a] => [a.toNat / 4, a.toNat % 4 * 16]
  | [a, b] => [a.toNat / 4, a.toNat % 4 * 16 + b.toNat / 16, b.toNat % 16 * 4]
  | a :: b :: c :: rest =>
      a.toNat / 4 :: (a.toNat % 4 * 16 + b.toNat / 16) :: (b.toNat % 16 * 4 + c.toNat / 64) ::
        c.toNat % 64 :: sextets rest

theorem encodeChars_eq (bytes : Bytes) : encodeChars bytes = (sextets bytes).map letter := by
  induction bytes using sextets.induct with
  | case1 => rfl
  | case2 a => rfl
  | case3 a b => rfl
  | case4 a b c rest ih => simp [encodeChars, sextets, ih]

theorem sextets_lt (bytes : Bytes) : ∀ n ∈ sextets bytes, n < 64 := by
  induction bytes using sextets.induct with
  | case1 => simp [sextets]
  | case2 a =>
      have small := a.toNat_lt
      simp only [sextets, List.forall_mem_cons, List.not_mem_nil]
      exact ⟨by omega, by omega, by simp⟩
  | case3 a b =>
      have smallA := a.toNat_lt
      have smallB := b.toNat_lt
      simp only [sextets, List.forall_mem_cons, List.not_mem_nil]
      exact ⟨by omega, by omega, by omega, by simp⟩
  | case4 a b c rest ih =>
      have smallA := a.toNat_lt
      have smallB := b.toNat_lt
      have smallC := c.toNat_lt
      simp only [sextets, List.forall_mem_cons]
      exact ⟨by omega, by omega, by omega, by omega, ih⟩

theorem value?_letter : ∀ n < 64, value? (letter n) = some n := by
  decide

theorem mapM_value?_letter {values : List Nat} (small : ∀ n ∈ values, n < 64) :
    (values.map letter).mapM value? = some values := by
  induction values with
  | nil => rfl
  | cons n rest ih =>
      obtain ⟨first, others⟩ := List.forall_mem_cons.mp small
      simp [List.mapM_cons, value?_letter n first, ih others]

theorem decodeValues?_sextets (bytes : Bytes) : decodeValues? (sextets bytes) = some bytes := by
  have same : ∀ (a : UInt8) (n : Nat), n = a.toNat → UInt8.ofNat n = a := by
    rintro a n rfl
    exact UInt8.ofNat_toNat
  induction bytes using sextets.induct with
  | case1 => rfl
  | case2 a =>
      have first := same a (a.toNat / 4 * 4 + a.toNat % 4 * 16 / 16) (by omega)
      have zeros : a.toNat % 4 * 16 % 16 = 0 := by omega
      simp only [sextets, decodeValues?, first, zeros, if_true]
  | case3 a b =>
      have smallB := b.toNat_lt
      have first := same a (a.toNat / 4 * 4 + (a.toNat % 4 * 16 + b.toNat / 16) / 16) (by omega)
      have second := same b ((a.toNat % 4 * 16 + b.toNat / 16) % 16 * 16 + b.toNat % 16 * 4 / 4) (by omega)
      have zeros : b.toNat % 16 * 4 % 4 = 0 := by omega
      simp only [sextets, decodeValues?, first, second, zeros, if_true]
  | case4 a b c rest ih =>
      have smallB := b.toNat_lt
      have smallC := c.toNat_lt
      have first := same a (a.toNat / 4 * 4 + (a.toNat % 4 * 16 + b.toNat / 16) / 16) (by omega)
      have second := same b ((a.toNat % 4 * 16 + b.toNat / 16) % 16 * 16 +
        (b.toNat % 16 * 4 + c.toNat / 64) / 4) (by omega)
      have third := same c ((b.toNat % 16 * 4 + c.toNat / 64) % 4 * 64 + c.toNat % 64) (by omega)
      simp only [sextets, decodeValues?, ih, Option.bind_eq_bind, Option.bind_some, Option.pure_def,
        first, second, third]

theorem decode?_encode (bytes : Bytes) : decode? (encode bytes) = some bytes := by
  rw [decode?, encode, String.toList_ofList, encodeChars_eq, mapM_value?_letter (sextets_lt bytes)]
  exact decodeValues?_sextets bytes

end SecureInbox.Base64
