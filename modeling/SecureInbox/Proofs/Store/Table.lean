import SecureInbox.Proofs.Store.Ledger

/-! # A table of sessions and its ledger

A row of a table keeps its place when it is written again, so that the order of the rows does not
tell what was written last; the times of writing do, as long as each writing is at a later time
than the one before.  `SessionTable.Follows` says so of a table and a ledger, for all times of
writing that are still to come.  What a row holds is left open, and may be a sealed value. -/
set_option autoImplicit false

namespace SecureInbox

namespace Instant

def Before (a b : Instant) : Prop := b.le a = false

instance (a b : Instant) : Decidable (a.Before b) := inferInstanceAs (Decidable (_ = _))

theorem le_iff {a b : Instant} :
    a.le b = true ↔ a.seconds < b.seconds ∨ a.seconds = b.seconds ∧ a.nanos ≤ b.nanos := by
  simp [le]

theorem le_refl (a : Instant) : a.le a = true := le_iff.mpr (.inr ⟨rfl, Nat.le_refl _⟩)

theorem le_trans {a b c : Instant} (first : a.le b = true) (second : b.le c = true) :
    a.le c = true := by
  rw [le_iff] at first second ⊢
  omega

theorem Before.le {a b : Instant} (before : a.Before b) : a.le b = true := by
  rw [Before, Bool.eq_false_iff, ne_eq, le_iff] at before
  rw [le_iff]
  omega

end Instant

namespace SessionTable

/-- The row that is taken out of some is the latest of them. -/
theorem foldl_later (rows : List SessionRow) (first : SessionRow) :
    ∃ r, rows.foldl later (some first) = some r ∧ r ∈ first :: rows ∧
      ∀ s ∈ first :: rows, s.updated.le r.updated = true := by
  induction rows generalizing first with
  | nil => exact ⟨first, rfl, List.mem_cons_self, by simp [Instant.le_refl]⟩
  | cons row rest ih =>
      rw [List.foldl_cons, later]
      split
      · next le =>
        obtain ⟨r, folded, mem, latest⟩ := ih row
        refine ⟨r, folded, List.mem_cons_of_mem _ mem, List.forall_mem_cons.mpr ⟨?_, latest⟩⟩
        exact Instant.le_trans le (latest row List.mem_cons_self)
      · next not =>
        have before : row.updated.Before first.updated := Bool.eq_false_iff.mpr not
        obtain ⟨r, folded, mem, latest⟩ := ih first
        obtain ⟨ofFirst, ofRest⟩ := List.forall_mem_cons.mp latest
        refine ⟨r, folded, ?_, ?_⟩
        · rcases List.mem_cons.mp mem with rfl | inRest
          · exact List.mem_cons_self
          · exact List.mem_cons_of_mem _ (List.mem_cons_of_mem _ inRest)
        · refine List.forall_mem_cons.mpr ⟨ofFirst, List.forall_mem_cons.mpr ⟨?_, ofRest⟩⟩
          exact Instant.le_trans before.le ofFirst

theorem best_cases (t : SessionTable) (mine peer : String) :
    (∃ r, t.best mine peer = some r ∧ r ∈ t.rows ∧ r.key.isOfPair mine peer = true ∧
      ∀ s ∈ t.rows, s.key.isOfPair mine peer = true → s.updated.le r.updated = true) ∨
    t.best mine peer = none ∧ ∀ r ∈ t.rows, r.key.isOfPair mine peer = false := by
  unfold best
  cases pair : t.rows.filter fun r => r.key.isOfPair mine peer with
  | nil =>
      refine .inr ⟨rfl, fun r mem => ?_⟩
      exact Bool.eq_false_iff.mpr (List.filter_eq_nil_iff.mp pair r mem)
  | cons first rest =>
      obtain ⟨r, folded, mem, latest⟩ := foldl_later rest first
      rw [← pair] at mem latest
      obtain ⟨mem, ofPair⟩ := List.mem_filter.mp mem
      exact .inl ⟨r, folded, mem, ofPair, fun s inRows ofPair' =>
        latest s (List.mem_filter.mpr ⟨inRows, ofPair'⟩)⟩

/-- Writing a row leaves the rows of other keys, and one row of its key. -/
theorem put_rows (t : SessionTable) (distinct : (t.rows.map SessionRow.key).Nodup) (row : SessionRow) :
    ∃ new : SessionRow, new.key = row.key ∧ new.value = row.value ∧ new.updated = row.updated ∧
      ((t.put row).rows.map SessionRow.key).Nodup ∧
      ∀ r, r ∈ (t.put row).rows ↔ r = new ∨ r ∈ t.rows ∧ r.key ≠ new.key := by
  unfold put
  cases looked : t.find? row.key with
  | none =>
      have others : ∀ r ∈ t.rows, r.key ≠ row.key := fun r mem same =>
        List.find?_eq_none.mp looked r mem (beq_iff_eq.mpr same)
      refine ⟨row, rfl, rfl, rfl, ?_, fun r => ?_⟩
      · rw [List.map_append, List.map_singleton, List.nodup_append]
        refine ⟨distinct, List.nodup_singleton _, fun k mem k' mem' same => ?_⟩
        obtain ⟨r, inRows, rfl⟩ := List.mem_map.mp mem
        exact others r inRows (same.trans (List.mem_singleton.mp mem'))
      · rw [List.mem_append, List.mem_singleton, or_comm]
        exact or_congr_right ⟨fun mem => ⟨mem, others r mem⟩, And.left⟩
  | some old =>
      have mem := List.mem_of_find?_eq_some looked
      have named : old.key = row.key := by
        have here := List.find?_some looked
        exact beq_iff_eq.mp here
      have only : ∀ r ∈ t.rows, r.key = row.key → r = old := fun r inRows same =>
        List.inj_on_of_nodup_map distinct inRows mem (same.trans named.symm)
      refine ⟨{ old with state := row.state, value := row.value, updated := row.updated }, named, rfl,
        rfl, ?_, fun r => ?_⟩
      · rw [List.map_map]
        refine (congrArg List.Nodup (List.map_congr_left fun r _ => ?_)).mpr distinct
        simp only [Function.comp_apply]
        split <;> rfl
      · simp only [List.mem_map, beq_iff_eq]
        constructor
        · rintro ⟨r, inRows, rfl⟩
          by_cases same : r.key = row.key
          · obtain rfl := only r inRows same
            exact .inl (if_pos same)
          · rw [if_neg same]
            exact .inr ⟨inRows, fun here => same (here.trans named)⟩
        · rintro (rfl | ⟨inRows, ne⟩)
          · exact ⟨old, mem, if_pos named⟩
          · exact ⟨r, inRows, if_neg fun here => ne (here.trans named.symm)⟩

/-- Whether the rows of a table are those of a ledger, dated in the order of the writings and before
the times that are to come.  `opens` tells what a value in a row stands for. -/
structure Follows {α : Type} (opens : String → α → Prop) (times : List Instant) (l : Ledger α)
    (t : SessionTable) : Prop where
  lists : l.Lists SessionRow.key (fun r => opens r.value) t.rows
  dated : ∀ r ∈ t.rows, ∀ s ∈ t.rows, l.number r.key < l.number s.key → r.updated.Before s.updated
  past : ∀ r ∈ t.rows, ∀ now ∈ times, r.updated.Before now

namespace Follows

variable {α : Type} {opens : String → α → Prop} {times : List Instant} {l : Ledger α}
  {t : SessionTable}

theorem empty : SessionTable.empty.Follows opens times (.empty : Ledger α) := ⟨.empty, nofun, nofun⟩

theorem best (follows : t.Follows opens times l) (mine peer : String) :
    (∃ r value, t.best mine peer = some r ∧ opens r.value value ∧ l.IsBest mine peer (some value)) ∨
      t.best mine peer = none ∧ l.IsBest mine peer none := by
  obtain ⟨r, best, mem, ofPair, latest⟩ | ⟨best, without⟩ := t.best_cases mine peer
  · have largest : ∀ s ∈ t.rows, s.key.isOfPair mine peer = true → l.number s.key ≤ l.number r.key := by
      intro s inRows ofPair'
      refine Nat.le_of_not_lt fun less => ?_
      have before := follows.dated r mem s inRows less
      rw [Instant.Before, latest s inRows ofPair'] at before
      cases before
    obtain ⟨value, held, isBest⟩ := follows.lists.isBest mem ofPair largest
    exact .inl ⟨r, value, best, held, isBest⟩
  · exact .inr ⟨best, follows.lists.isBest_none without⟩

theorem remove (follows : t.Follows opens times l) (gone : SessionKey → Bool) :
    Follows opens times (l.remove gone) ⟨t.rows.filter fun r => !gone r.key⟩ where
  lists := follows.lists.remove gone
  dated r mem s mem' less := by
    obtain ⟨inRows, kept⟩ := List.mem_filter.mp mem
    obtain ⟨inRows', kept'⟩ := List.mem_filter.mp mem'
    rw [l.number_remove_of_kept (by simpa using kept), l.number_remove_of_kept (by simpa using kept')]
      at less
    exact follows.dated r inRows s inRows' less
  past r mem := follows.past r (List.mem_filter.mp mem).1

theorem put (follows : t.Follows opens times l) (sound : l.Sound) (row : SessionRow) {value : α}
    {after : List Instant} (now : row.updated ∈ times) (held : opens row.value value)
    (later : ∀ time ∈ after, time ∈ times ∧ row.updated.Before time) :
    (t.put row).Follows opens after (l.put row.key value) := by
  obtain ⟨new, named, valued, dated, distinct, mem⟩ := t.put_rows follows.lists.distinct row
  have number : ∀ r ∈ t.rows, r.key ≠ new.key →
      (l.put new.key value).number r.key = l.number r.key := fun r _ ne => l.number_put_of_ne value ne
  rw [← named]
  refine ⟨follows.lists.put distinct (valued ▸ held) mem, fun r inRows s inRows' less => ?_,
    fun r inRows time coming => ?_⟩
  · rcases (mem s).mp inRows' with rfl | ⟨old', ne'⟩
    · rcases (mem r).mp inRows with rfl | ⟨old, ne⟩
      · exact absurd less (Nat.lt_irrefl _)
      · rw [dated]
        exact follows.past r old _ now
    · rw [number s old' ne'] at less
      rcases (mem r).mp inRows with rfl | ⟨old, ne⟩
      · have small := sound.number_le s.key
        rw [l.number_put_self] at less
        omega
      · rw [number r old ne] at less
        exact follows.dated r old s old' less
  · rcases (mem r).mp inRows with rfl | ⟨old, -⟩
    · rw [dated]
      exact (later time coming).2
    · exact follows.past r old time (later time coming).1

end Follows

end SessionTable

end SecureInbox
