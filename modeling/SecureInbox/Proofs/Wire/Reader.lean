import Mathlib.Tactic.Simproc.ExistsAndEq
import SecureInbox.Proofs.Text.Utf8
import SecureInbox.Wire.Envelope

/-! # What readers accept

For each reader of a field, the octet strings on which it gives a value and a rest: the
bytes that the value is written as, with the rest behind them (`block_eq_ok`,
`word16_eq_ok`, `group_eq_ok` and their like), or, for a field without an end of its own,
all of the bytes and no rest (`text_eq_ok`, `pieces_eq_ok`).  `bind_eq_ok` carries these
statements through readers that are put together. -/
set_option autoImplicit false

namespace SecureInbox

namespace Block

theorem littleEndian_toNat {n : Nat} (b : Block n) : littleEndian n b.toNat = b.bytes := by
  obtain ⟨bytes, rfl⟩ := b
  exact littleEndian_ofLittleEndian bytes

theorem toNat_lt {n : Nat} (b : Block n) : b.toNat < Nat.pow 256 n := by
  obtain ⟨bytes, rfl⟩ := b
  exact ofLittleEndian_lt bytes

end Block

theorem bytes16_ofNat (b : Block 2) : bytes16 (UInt16.ofNat b.toNat) = b.bytes := by
  rw [bytes16, UInt16.toNat_ofNat_of_lt' b.toNat_lt, b.littleEndian_toNat]

theorem bytes32_ofNat (b : Block 4) : bytes32 (UInt32.ofNat b.toNat) = b.bytes := by
  rw [bytes32, UInt32.toNat_ofNat_of_lt' b.toNat_lt, b.littleEndian_toNat]

theorem bytes64_ofNat (b : Block 8) : bytes64 (UInt64.ofNat b.toNat) = b.bytes := by
  rw [bytes64, UInt64.toNat_ofNat_of_lt' b.toNat_lt, b.littleEndian_toNat]

/-- In a table of values and their bytes, a byte is found under one value only. -/
theorem find?_byte_eq_some {α : Type} {all : List α} {byte : α → UInt8}
    (known : ∀ a, all.find? (fun x => byte x == byte a) = some a) {b : UInt8} {a : α} :
    all.find? (fun x => byte x == b) = some a ↔ b = byte a := by
  constructor
  · intro found
    have same := List.find?_some found
    exact (beq_iff_eq.1 same).symm
  · rintro rfl
    exact known a

namespace Reader

section Steps

variable {α β : Type} {bytes rest : Bytes}

@[simp] theorem pure_eq_ok {a b : α} :
    (pure a : Reader α) bytes = .ok (b, rest) ↔ b = a ∧ bytes = rest := by
  show Except.ok (a, bytes) = .ok (b, rest) ↔ _
  simp only [Except.ok.injEq, Prod.mk.injEq]
  exact and_congr_left fun _ => eq_comm

@[simp] theorem bind_eq_ok {reader : Reader α} {f : α → Reader β} {b : β} :
    (reader >>= f) bytes = .ok (b, rest) ↔
      ∃ a mid, reader bytes = .ok (a, mid) ∧ f a mid = .ok (b, rest) := by
  show (reader bytes >>= fun x => f x.1 x.2) = .ok (b, rest) ↔ _
  cases reader bytes with
  | error e => simp [bind, Except.bind]
  | ok x => simp [bind, Except.bind, Prod.ext_iff]

@[simp] theorem throw_eq_ok {e : DecodeError} {b : α} :
    (throw e : Reader α) bytes = .ok (b, rest) ↔ False := by
  simp [throw, throwThe, MonadExceptOf.throw, StateT.lift, bind, Except.bind]

@[simp] theorem lift_eq_ok {result : Except DecodeError α} {b : α} :
    (liftM result : Reader α) bytes = .ok (b, rest) ↔ result = .ok b ∧ bytes = rest := by
  cases result with
  | error e => simp [liftM, monadLift, MonadLift.monadLift, StateT.lift, bind, Except.bind]
  | ok a =>
      simp [liftM, monadLift, MonadLift.monadLift, StateT.lift, bind, Except.bind, pure,
        Except.pure]

@[simp] theorem ite_eq_ok {c : Prop} [Decidable c] {first second : Reader α} {a : α} :
    (if c then first else second) bytes = .ok (a, rest) ↔
      c ∧ first bytes = .ok (a, rest) ∨ ¬ c ∧ second bytes = .ok (a, rest) := by
  by_cases holds : c <;> simp [holds]

theorem bind_ok {reader : Reader α} {f : α → Reader β} {mid : Bytes} {a : α} {b : β}
    (first : reader bytes = .ok (a, mid)) (next : f a mid = .ok (b, rest)) :
    (reader >>= f) bytes = .ok (b, rest) := bind_eq_ok.2 ⟨a, mid, first, next⟩

theorem give_eq_ok {reader : Reader α} {f : α → β} {b : β} :
    (reader >>= fun a => pure (f a)) bytes = .ok (b, rest) ↔
      ∃ a, b = f a ∧ reader bytes = .ok (a, rest) := by
  simp only [bind_eq_ok, pure_eq_ok]
  constructor
  · rintro ⟨a, _, read, rfl, rfl⟩
    exact ⟨a, rfl, read⟩
  · rintro ⟨a, rfl, read⟩
    exact ⟨a, rest, read, rfl, rfl⟩

theorem result_eq_ok {reader : Reader α} {a : α} :
    reader.result bytes = .ok a ↔ ∃ rest, reader bytes = .ok (a, rest) := by
  unfold result
  cases reader bytes with
  | error e => simp [Except.map]
  | ok x => simp [Except.map, Prod.ext_iff]

theorem result_eq_error {reader : Reader α} {e : DecodeError} :
    reader.result bytes = .error e ↔ reader bytes = .error e := by
  unfold result
  cases reader bytes with
  | error e' => simp [Except.map]
  | ok x => simp [Except.map]

theorem bind_of_ok {reader : Reader α} {f : α → Reader β} {mid : Bytes} {a : α}
    (read : reader bytes = .ok (a, mid)) : (reader >>= f) bytes = f a mid := by
  show (reader bytes >>= fun x => f x.1 x.2) = _
  rw [read]
  rfl

theorem bind_of_error {reader : Reader α} {f : α → Reader β} {e : DecodeError}
    (failed : reader bytes = .error e) : (reader >>= f) bytes = .error e := by
  show (reader bytes >>= fun x => f x.1 x.2) = _
  rw [failed]
  rfl

end Steps

section Fields

variable {bytes left : Bytes} {what : String}

@[simp] theorem require_eq_ok {n : Nat} {u : Unit} :
    require n what bytes = .ok (u, left) ↔ n ≤ bytes.length ∧ bytes = left := by
  unfold require
  split <;> simp <;> omega

theorem require_of_le {n : Nat} (long : n ≤ bytes.length) :
    require n what bytes = .ok ((), bytes) :=
  require_eq_ok.2 ⟨long, rfl⟩

@[simp] theorem block_eq_ok {n : Nat} {b : Block n} :
    block n what bytes = .ok (b, left) ↔ bytes = b.bytes ++ left := by
  constructor
  · intro read
    unfold block at read
    split at read
    · obtain ⟨rfl, rfl⟩ := Prod.mk.inj (Except.ok.inj read)
      exact (List.take_append_drop n bytes).symm
    · cases read
  · rintro rfl
    exact block_append what b left

@[simp] theorem byte_eq_ok {b : UInt8} : byte what bytes = .ok (b, left) ↔ bytes = b :: left := by
  cases bytes <;> simp [byte]

@[simp] theorem word16_eq_ok {w : UInt16} :
    word16 what bytes = .ok (w, left) ↔ bytes = bytes16 w ++ left := by
  constructor
  · intro read
    simp only [word16, bind_eq_ok, block_eq_ok, pure_eq_ok] at read
    obtain ⟨b, _, rfl, rfl, rfl⟩ := read
    rw [bytes16_ofNat]
  · rintro rfl
    exact word16_append what w left

@[simp] theorem word32_eq_ok {w : UInt32} :
    word32 what bytes = .ok (w, left) ↔ bytes = bytes32 w ++ left := by
  constructor
  · intro read
    simp only [word32, bind_eq_ok, block_eq_ok, pure_eq_ok] at read
    obtain ⟨b, _, rfl, rfl, rfl⟩ := read
    rw [bytes32_ofNat]
  · rintro rfl
    exact word32_append what w left

@[simp] theorem word64_eq_ok {w : UInt64} :
    word64 what bytes = .ok (w, left) ↔ bytes = bytes64 w ++ left := by
  constructor
  · intro read
    simp only [word64, bind_eq_ok, block_eq_ok, pure_eq_ok] at read
    obtain ⟨b, _, rfl, rfl, rfl⟩ := read
    rw [bytes64_ofNat]
  · rintro rfl
    exact word64_append what w left

@[simp] theorem taken_eq_ok {n : Nat} {front : Bytes} :
    taken n what bytes = .ok (front, left) ↔ bytes = front ++ left ∧ front.length = n := by
  unfold taken
  constructor
  · intro read
    split at read
    · cases read
    · obtain ⟨rfl, rfl⟩ := Prod.mk.inj (Except.ok.inj read)
      exact ⟨(List.take_append_drop n bytes).symm, by rw [List.length_take]; omega⟩
  · rintro ⟨rfl, rfl⟩
    simp

@[simp] theorem rest_eq_ok {front : Bytes} :
    rest bytes = .ok (front, left) ↔ front = bytes ∧ left = [] := by
  unfold rest
  simp only [Except.ok.injEq, Prod.mk.injEq]
  exact and_congr eq_comm eq_comm

@[simp] theorem someRest_eq_ok {front : Bytes} :
    someRest what bytes = .ok (front, left) ↔ bytes = front ∧ front ≠ [] ∧ left = [] := by
  cases bytes with
  | nil => simp +contextual [someRest, eq_comm]
  | cons b more =>
    simp only [someRest, List.isEmpty_cons]
    constructor
    · rintro ⟨⟩
      simp
    · rintro ⟨rfl, _, rfl⟩
      rfl

@[simp] theorem toIdentity_eq_ok {i : Identity} : toIdentity bytes = .ok i ↔ bytes = i.bytes := by
  unfold toIdentity
  constructor
  · intro read
    split at read
    · obtain rfl := Except.ok.inj read
      exact (Identity.bytes_of_ofBytes? ‹_›).symm
    · cases read
  · rintro rfl
    rw [Identity.ofBytes?_bytes]

@[simp] theorem identity_eq_ok {i : Identity} :
    identity what bytes = .ok (i, left) ↔ bytes = i.bytes ++ left := by
  simp only [identity, bind_eq_ok, block_eq_ok, lift_eq_ok, toIdentity_eq_ok]
  constructor
  · rintro ⟨b, _, rfl, same, rfl⟩
    rw [same]
  · rintro rfl
    exact ⟨i.handle, left, rfl, rfl, rfl⟩

@[simp] theorem group_eq_ok {g : GroupRef} :
    group bytes = .ok (g, left) ↔ bytes = Frame.groupBytes g ++ left := by
  simp only [group, bind_eq_ok, identity_eq_ok, block_eq_ok, pure_eq_ok, Frame.groupBytes,
    List.append_assoc]
  constructor
  · rintro ⟨creator, _, rfl, id, _, rfl, rfl, rfl⟩
    rfl
  · rintro rfl
    exact ⟨_, _, rfl, _, _, rfl, rfl, rfl⟩

@[simp] theorem coded_eq_ok {α : Type} {field : String} {ofByte? : UInt8 → Option α} {a : α} :
    coded field what ofByte? bytes = .ok (a, left) ↔
      ∃ b, ofByte? b = some a ∧ bytes = b :: left := by
  simp only [coded, bind_eq_ok, byte_eq_ok]
  refine exists_congr fun b => ?_
  cases known : ofByte? b with
  | none => simp
  | some held =>
      simp only [pure_eq_ok, Option.some.injEq]
      constructor
      · rintro ⟨_, rfl, rfl, rfl⟩
        exact ⟨rfl, rfl⟩
      · rintro ⟨rfl, rfl⟩
        exact ⟨_, rfl, rfl, rfl⟩

@[simp] theorem text_eq_ok {s : String} :
    text what bytes = .ok (s, left) ↔ bytes = Text.utf8 s ∧ left = [] := by
  simp only [text, bind_eq_ok, rest_eq_ok, existsAndEq, true_and]
  rw [← Text.ofUtf8?_eq_some]
  cases Text.ofUtf8? bytes with
  | none => simp
  | some held =>
      simp only [pure_eq_ok, Option.some.injEq]
      exact and_congr eq_comm eq_comm

@[simp] theorem json_eq_ok {α : Type} {read : Json.Node → Option α} {a : α} :
    json read bytes = .ok (a, left) ↔ Json.Node.parse? bytes >>= read = some a ∧ left = [] := by
  simp only [json, bind_eq_ok, rest_eq_ok, existsAndEq, true_and]
  cases Json.Node.parse? bytes >>= read with
  | none => simp
  | some held =>
      simp only [pure_eq_ok, Option.some.injEq]
      exact and_congr eq_comm eq_comm

end Fields

/-! ## Pieces of eight bytes -/

theorem flatMap_eights {bytes : Bytes} (whole : bytes.length % 8 = 0) :
    (eights bytes).flatMap Block.bytes = bytes := by
  fun_induction eights bytes with
  | case1 a b c d e f g h more ih =>
    simp only [List.length_cons] at whole
    simp [ih (by omega)]
  | case2 short other =>
    have few : ¬ 8 ≤ short.length := by
      intro many
      match short, many with
      | a :: b :: c :: d :: e :: f :: g :: h :: more, _ => exact other a b c d e f g h more rfl
    have none : short = [] := List.length_eq_zero_iff.1 (by omega)
    rw [none]
    rfl

theorem eights_flatMap (ids : List (Block 8)) : eights (ids.flatMap Block.bytes) = ids := by
  induction ids with
  | nil => rfl
  | cons id rest ih =>
    obtain ⟨bytes, eight⟩ := id
    match bytes, eight with
    | [a, b, c, d, e, f, g, h], _ => simp [eights, ih]

theorem length_flatMap_pieces (ids : List (Block 8)) :
    (ids.flatMap Block.bytes).length % 8 = 0 := by
  induction ids with
  | nil => rfl
  | cons id rest ih =>
    have eight := id.length_eq
    simp only [List.flatMap_cons, List.length_append]
    omega

@[simp] theorem pieces_eq_ok {field : String} {ids : List (Block 8)} {bytes left : Bytes} :
    pieces field bytes = .ok (ids, left) ↔ bytes = ids.flatMap Block.bytes ∧ left = [] := by
  simp only [pieces, bind_eq_ok, rest_eq_ok, existsAndEq, true_and]
  simp only [ite_eq_ok, bind_eq_ok, throw_eq_ok, false_and, exists_false, and_false, false_or,
    Decidable.not_not, pure_eq_ok]
  constructor
  · rintro ⟨whole, rfl, rfl⟩
    exact ⟨(flatMap_eights whole).symm, rfl⟩
  · rintro ⟨rfl, rfl⟩
    exact ⟨length_flatMap_pieces ids, (eights_flatMap ids).symm, rfl⟩

end Reader

end SecureInbox
