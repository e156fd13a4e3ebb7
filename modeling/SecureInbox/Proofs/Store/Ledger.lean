import Mathlib.Data.Finset.Card
import Mathlib.Data.List.Nodup
import Mathlib.Data.Nat.Find
import Mathlib.Logic.Function.Basic
import SecureInbox.Store.Sessions

/-! # The ledger of a store

A `Ledger` has what was filed under each key last, and the number of that writing.  The best
entry of a pair is the one with the largest number (`IsBest`).

`Lists` says that rows stand for a ledger, one row for each key that has an entry, in any order.
What is asked of the rows is then answered from the ledger, and what is done to the rows is done to
the ledger: one lemma for each kind of question and change. -/
set_option autoImplicit false

namespace SecureInbox

structure Ledger (α : Type) where
  /-- What was filed under a key, after the number of the writing. -/
  entry : SessionKey → Option (Nat × α)
  /-- How often something was written. -/
  written : Nat

namespace Ledger

variable {α ρ : Type}

def empty : Ledger α := ⟨fun _ => none, 0⟩

def put (l : Ledger α) (key : SessionKey) (value : α) : Ledger α :=
  ⟨Function.update l.entry key (some (l.written + 1, value)), l.written + 1⟩

def remove (l : Ledger α) (gone : SessionKey → Bool) : Ledger α :=
  ⟨fun key => if gone key = true then none else l.entry key, l.written⟩

def find? (l : Ledger α) (key : SessionKey) : Option α := (l.entry key).map Prod.snd

/-- Whether a value is the one of a pair that was written last, among those that are there. -/
def IsBest (l : Ledger α) (mine peer : String) : Option α → Prop
  | none => ∀ key, key.isOfPair mine peer = true → l.entry key = none
  | some value => ∃ key n, key.isOfPair mine peer = true ∧ l.entry key = some (n, value) ∧
      ∀ other m value', other.isOfPair mine peer = true → l.entry other = some (m, value') → m ≤ n

def HasCount (l : Ledger α) (mine peer : String) (count : Nat) : Prop :=
  ∃ keys : Finset SessionKey, keys.card = count ∧
    ∀ key, key ∈ keys ↔ key.isOfPair mine peer = true ∧ (l.entry key).isSome = true

/-! ## Numbers -/

/-- Writings are numbered one after the other. -/
structure Sound (l : Ledger α) : Prop where
  within : ∀ key n value, l.entry key = some (n, value) → n ≤ l.written
  single : ∀ key other n value value', l.entry key = some (n, value) →
    l.entry other = some (n, value') → key = other

theorem Sound.empty : (empty : Ledger α).Sound := ⟨nofun, nofun⟩

theorem entry_put (l : Ledger α) (key other : SessionKey) (value : α) :
    (l.put key value).entry other =
      if other = key then some (l.written + 1, value) else l.entry other := by
  simp only [put, Function.update_apply]

theorem Sound.put {l : Ledger α} (sound : l.Sound) (key : SessionKey) (value : α) :
    (l.put key value).Sound where
  within other n value' entered := by
    rw [entry_put] at entered
    split at entered
    · cases entered
      exact Nat.le_refl _
    · exact Nat.le_succ_of_le (sound.within other n value' entered)
  single first second n a b one two := by
    rw [entry_put] at one two
    split at one <;> split at two
    · next here there => rw [here, there]
    · cases one
      exact absurd (sound.within second _ b two) (Nat.not_succ_le_self _)
    · cases two
      exact absurd (sound.within first _ a one) (Nat.not_succ_le_self _)
    · exact sound.single first second n a b one two

theorem entry_of_remove {l : Ledger α} {gone : SessionKey → Bool} {key : SessionKey} {e : Nat × α}
    (entered : (l.remove gone).entry key = some e) : l.entry key = some e := by
  simp only [remove] at entered
  split at entered
  · cases entered
  · exact entered

theorem Sound.remove {l : Ledger α} (sound : l.Sound) (gone : SessionKey → Bool) :
    (l.remove gone).Sound where
  within key n value entered := sound.within key n value (entry_of_remove entered)
  single key other n a b one two :=
    sound.single key other n a b (entry_of_remove one) (entry_of_remove two)

/-- There is only one best value. -/
theorem Sound.best_unique {l : Ledger α} (sound : l.Sound) {mine peer : String} {a b : Option α}
    (first : l.IsBest mine peer a) (second : l.IsBest mine peer b) : a = b := by
  cases a with
  | none =>
      cases b with
      | none => rfl
      | some b =>
          obtain ⟨key, n, ofPair, entered, -⟩ := second
          rw [first key ofPair] at entered
          cases entered
  | some a =>
      obtain ⟨key, n, ofPair, entered, largest⟩ := first
      cases b with
      | none =>
          rw [second key ofPair] at entered
          cases entered
      | some b =>
          obtain ⟨other, m, ofPair', entered', largest'⟩ := second
          obtain rfl : n = m :=
            Nat.le_antisymm (largest' key n a ofPair entered) (largest other m b ofPair' entered')
          obtain rfl := sound.single key other n a b entered entered'
          rw [entered] at entered'
          cases entered'
          rfl

/-- One value of a pair was written last, or there is none. -/
theorem Sound.exists_best {l : Ledger α} (sound : l.Sound) (mine peer : String) :
    ∃ best, l.IsBest mine peer best := by
  classical
  let Used (n : Nat) : Prop := ∃ key value, key.isOfPair mine peer = true ∧ l.entry key = some (n, value)
  by_cases some : ∃ n, Used n
  · obtain ⟨n, used⟩ := some
    have within : ∀ m, Used m → m ≤ l.written := fun m ⟨key, value, _, entered⟩ =>
      sound.within key m value entered
    obtain ⟨key, value, ofPair, entered⟩ := Nat.findGreatest_spec (within n used) used
    refine ⟨.some value, key, _, ofPair, entered, fun other m value' ofPair' entered' => ?_⟩
    have used' : Used m := ⟨other, value', ofPair', entered'⟩
    exact Nat.le_findGreatest (within m used') used'
  · refine ⟨none, fun key ofPair => Option.eq_none_iff_forall_ne_some.mpr fun e entered => ?_⟩
    exact some ⟨e.1, key, e.2, ofPair, entered⟩

/-- What is written is the best of its pair from then on. -/
theorem Sound.isBest_put {l : Ledger α} (sound : l.Sound) {mine peer : String} {key : SessionKey}
    (ofPair : key.isOfPair mine peer = true) (value : α) :
    (l.put key value).IsBest mine peer (some value) := by
  refine ⟨key, l.written + 1, ofPair, ?_, fun other m value' _ entered => ?_⟩
  · rw [entry_put, if_pos rfl]
  · exact (sound.put key value).within other m value' entered

theorem count_unique {l : Ledger α} {mine peer : String} {m n : Nat}
    (first : l.HasCount mine peer m) (second : l.HasCount mine peer n) : m = n := by
  obtain ⟨keys, rfl, mem⟩ := first
  obtain ⟨keys', rfl, mem'⟩ := second
  have same : keys = keys' := Finset.ext fun key => (mem key).trans (mem' key).symm
  rw [same]

def number (l : Ledger α) (key : SessionKey) : Nat := ((l.entry key).map Prod.fst).getD 0

theorem Sound.number_le {l : Ledger α} (sound : l.Sound) (key : SessionKey) :
    l.number key ≤ l.written := by
  unfold number
  cases entered : l.entry key with
  | none => exact Nat.zero_le _
  | some e => exact sound.within key e.1 e.2 entered

theorem number_put_self (l : Ledger α) (key : SessionKey) (value : α) :
    (l.put key value).number key = l.written + 1 := by
  simp [number, entry_put]

theorem number_put_of_ne (l : Ledger α) {key other : SessionKey} (value : α) (ne : other ≠ key) :
    (l.put key value).number other = l.number other := by
  simp [number, entry_put, ne]

theorem number_remove_of_kept (l : Ledger α) {gone : SessionKey → Bool} {key : SessionKey}
    (kept : gone key = false) : (l.remove gone).number key = l.number key := by
  simp [number, remove, kept]

/-! ## Values -/

theorem find?_put (l : Ledger α) (key other : SessionKey) (value : α) :
    (l.put key value).find? other = if other = key then some value else l.find? other := by
  simp only [find?, entry_put]
  split <;> rfl

theorem find?_remove (l : Ledger α) (gone : SessionKey → Bool) (key : SessionKey) :
    (l.remove gone).find? key = if gone key = true then none else l.find? key := by
  simp only [find?, remove]
  split <;> rfl

theorem isSome_find? (l : Ledger α) (key : SessionKey) :
    (l.find? key).isSome = (l.entry key).isSome := by
  rw [find?, Option.isSome_map]

/-- The best value of a pair is filed under one of its keys. -/
theorem IsBest.filed {l : Ledger α} {mine peer : String} {value : α}
    (best : l.IsBest mine peer (some value)) :
    ∃ key, key.isOfPair mine peer = true ∧ l.find? key = some value := by
  obtain ⟨key, n, ofPair, entered, -⟩ := best
  exact ⟨key, ofPair, by rw [find?, entered, Option.map_some]⟩

theorem IsBest.unfiled {l : Ledger α} {mine peer : String} (best : l.IsBest mine peer none)
    {key : SessionKey} (ofPair : key.isOfPair mine peer = true) : l.find? key = none := by
  rw [find?, best key ofPair, Option.map_none]

/-! ## Rows for a ledger -/

/-- Whether rows, with their keys and what they hold, stand for a ledger. -/
structure Lists (l : Ledger α) (key : ρ → SessionKey) (holds : ρ → α → Prop) (rows : List ρ) :
    Prop where
  distinct : (rows.map key).Nodup
  entered : ∀ r ∈ rows, ∃ value, l.find? (key r) = some value ∧ holds r value
  listed : ∀ k value, l.find? k = some value → ∃ r ∈ rows, key r = k

namespace Lists

variable {l : Ledger α} {key : ρ → SessionKey} {holds : ρ → α → Prop} {rows : List ρ}

theorem empty : (Ledger.empty : Ledger α).Lists key holds [] := ⟨List.nodup_nil, nofun, nofun⟩

/-- The row that is found for a key holds the value that is filed under it. -/
theorem found (lists : l.Lists key holds rows) (k : SessionKey) :
    (∃ r value, rows.find? (fun r => key r == k) = some r ∧ r ∈ rows ∧ l.find? k = some value ∧
      holds r value) ∨ rows.find? (fun r => key r == k) = none ∧ l.find? k = none := by
  cases looked : rows.find? fun r => key r == k with
  | some r =>
      have mem := List.mem_of_find?_eq_some looked
      have named := List.find?_some looked
      obtain rfl : key r = k := beq_iff_eq.mp named
      obtain ⟨value, filed, held⟩ := lists.entered r mem
      exact .inl ⟨r, value, rfl, mem, filed, held⟩
  | none =>
      refine .inr ⟨rfl, Option.eq_none_iff_forall_ne_some.mpr fun value filed => ?_⟩
      obtain ⟨r, mem, same⟩ := lists.listed k value filed
      exact List.find?_eq_none.mp looked r mem (beq_iff_eq.mpr same)

theorem isSome_find? (lists : l.Lists key holds rows) (k : SessionKey) :
    (rows.find? fun r => key r == k).isSome = (l.find? k).isSome := by
  obtain ⟨r, value, looked, -, filed, -⟩ | ⟨looked, filed⟩ := lists.found k <;> rw [looked, filed] <;> rfl

theorem count (lists : l.Lists key holds rows) (mine peer : String) :
    l.HasCount mine peer (rows.countP fun r => (key r).isOfPair mine peer) := by
  have distinct : ((rows.filter fun r => (key r).isOfPair mine peer).map key).Nodup :=
    lists.distinct.sublist (List.filter_sublist.map key)
  refine ⟨((rows.filter fun r => (key r).isOfPair mine peer).map key).toFinset, ?_, fun k => ?_⟩
  · rw [List.toFinset_card_of_nodup distinct, List.length_map, List.countP_eq_length_filter]
  · rw [List.mem_toFinset, List.mem_map, ← l.isSome_find?, Option.isSome_iff_exists]
    constructor
    · rintro ⟨r, mem, rfl⟩
      obtain ⟨mem, ofPair⟩ := List.mem_filter.mp mem
      obtain ⟨value, filed, -⟩ := lists.entered r mem
      exact ⟨ofPair, value, filed⟩
    · rintro ⟨ofPair, value, filed⟩
      obtain ⟨r, mem, rfl⟩ := lists.listed k value filed
      exact ⟨r, List.mem_filter.mpr ⟨mem, ofPair⟩, rfl⟩

/-- The row with the largest number holds the best value. -/
theorem isBest (lists : l.Lists key holds rows) {mine peer : String} {r : ρ} (mem : r ∈ rows)
    (ofPair : (key r).isOfPair mine peer = true)
    (largest : ∀ s ∈ rows, (key s).isOfPair mine peer = true → l.number (key s) ≤ l.number (key r)) :
    ∃ value, holds r value ∧ l.IsBest mine peer (some value) := by
  obtain ⟨value, filed, held⟩ := lists.entered r mem
  obtain ⟨⟨n, _⟩, entered, rfl⟩ := Option.map_eq_some_iff.mp filed
  refine ⟨_, held, key r, n, ofPair, entered, fun other m value' ofPair' entered' => ?_⟩
  have filed' : l.find? other = some value' := by rw [find?, entered', Option.map_some]
  obtain ⟨s, mem', rfl⟩ := lists.listed other value' filed'
  have le := largest s mem' ofPair'
  rw [number, number, entered, entered'] at le
  exact le

theorem isBest_none (lists : l.Lists key holds rows) {mine peer : String}
    (without : ∀ r ∈ rows, (key r).isOfPair mine peer = false) : l.IsBest mine peer none := by
  intro k ofPair
  refine Option.eq_none_iff_forall_ne_some.mpr fun e entered => ?_
  have filed : l.find? k = some e.2 := by rw [find?, entered, Option.map_some]
  obtain ⟨r, mem, rfl⟩ := lists.listed k e.2 filed
  rw [without r mem] at ofPair
  cases ofPair

theorem remove (lists : l.Lists key holds rows) (gone : SessionKey → Bool) :
    (l.remove gone).Lists key holds (rows.filter fun r => !gone (key r)) where
  distinct := lists.distinct.sublist (List.filter_sublist.map key)
  entered r mem := by
    obtain ⟨mem, kept⟩ := List.mem_filter.mp mem
    rw [find?_remove, if_neg (by simpa using kept)]
    exact lists.entered r mem
  listed k value filed := by
    rw [find?_remove] at filed
    split at filed
    · cases filed
    · next kept =>
      obtain ⟨r, mem, rfl⟩ := lists.listed k value filed
      exact ⟨r, List.mem_filter.mpr ⟨mem, by simpa using kept⟩, rfl⟩

/-- Rows of which one is new and the others are those of the other keys. -/
theorem put (lists : l.Lists key holds rows) {after : List ρ} {new : ρ} {value : α}
    (distinct : (after.map key).Nodup) (held : holds new value)
    (mem : ∀ r, r ∈ after ↔ r = new ∨ r ∈ rows ∧ key r ≠ key new) :
    (l.put (key new) value).Lists key holds after where
  distinct := distinct
  entered r member := by
    rw [find?_put]
    rcases (mem r).mp member with rfl | ⟨old, ne⟩
    · exact ⟨value, if_pos rfl, held⟩
    · rw [if_neg ne]
      exact lists.entered r old
  listed k value' filed := by
    rw [find?_put] at filed
    split at filed
    · next here => exact ⟨new, (mem new).mpr (.inl rfl), here.symm⟩
    · next ne =>
      obtain ⟨r, old, rfl⟩ := lists.listed k value' filed
      exact ⟨r, (mem r).mpr (.inr ⟨old, ne⟩), rfl⟩

end Lists

end Ledger

end SecureInbox
