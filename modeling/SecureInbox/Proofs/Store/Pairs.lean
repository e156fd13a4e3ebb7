import Mathlib.Data.List.Basic
import SecureInbox.Proofs.Store.Seal

/-! # The sessions of one pair

`SessionStore.ofPair` leaves the sessions of one pair in a store.  What is asked about a pair is
answered from these, what is done for a pair is done to these, and what is done for another pair
leaves them as they are.

In a store that is `Filed`, each session that can be read is found under its own key.  Whatever
is done to it, it stays so. -/
set_option autoImplicit false

namespace SecureInbox

theorem SessionKey.isOfPair_iff {mine peer : String} {k : SessionKey} :
    k.isOfPair mine peer = true ↔ k.mine = mine ∧ k.peer = peer := by
  simp [SessionKey.isOfPair]

namespace SessionStore

/-! ## Filters -/

theorem find?_filter_of_imp {ρ : Type} {kept sought : ρ → Bool} (rows : List ρ)
    (imp : ∀ r, sought r = true → kept r = true) :
    (rows.filter kept).find? sought = rows.find? sought := by
  rw [List.find?_filter]
  congr 1
  funext r
  by_cases here : sought r = true
  · simp [here, imp r here]
  · simp [here]

theorem filter_filter_of_imp {ρ : Type} {kept gone : ρ → Bool} {rows : List ρ}
    (apart : ∀ r, kept r = true → gone r = false) :
    (rows.filter fun r => !gone r).filter kept = rows.filter kept := by
  rw [List.filter_filter]
  apply List.filter_congr
  intro r _
  by_cases here : kept r = true
  · simp [here, apart r here]
  · simp [here]

/-! ## Of the pair -/

def ofPair (mine peer : String) : SessionStore → SessionStore
  | .memory book => .memory ⟨book.sessions.filter fun s => s.fileKey.isOfPair mine peer⟩
  | .table vault rows => .table vault ⟨rows.rows.filter fun r => r.key.isOfPair mine peer⟩

variable {suite : Suite} {mine peer : String} {store : SessionStore}

theorem imp_of_ofPair {ρ : Type} (keyOf : ρ → SessionKey) {key : SessionKey}
    (ofPair : key.isOfPair mine peer = true) (r : ρ) (here : (keyOf r == key) = true) :
    (keyOf r).isOfPair mine peer = true := by
  rw [beq_iff_eq.mp here]
  exact ofPair

theorem find_ofPair {key : SessionKey} (ofPair : key.isOfPair mine peer = true) :
    (store.ofPair mine peer).find suite key = store.find suite key := by
  cases store with
  | memory book =>
      exact congrArg Except.ok (find?_filter_of_imp _ (imp_of_ofPair Session.fileKey ofPair))
  | table vault rows =>
      exact congrArg (opened suite vault) (find?_filter_of_imp _ (imp_of_ofPair SessionRow.key ofPair))

theorem best_ofPair : (store.ofPair mine peer).best suite mine peer = store.best suite mine peer := by
  cases store with
  | memory book => exact congrArg Except.ok (find?_filter_of_imp _ fun _ here => here)
  | table vault rows =>
      simp only [ofPair, best, SessionTable.best, List.filter_filter, Bool.and_self]

theorem erase_ofPair {key : SessionKey} (ofPair : key.isOfPair mine peer = true) :
    (store.ofPair mine peer).erase key =
      ((store.erase key).1, (store.erase key).2.ofPair mine peer) := by
  cases store with
  | memory book =>
      have found := find?_filter_of_imp book.sessions (imp_of_ofPair Session.fileKey ofPair)
      simp only [SessionStore.ofPair, erase, SessionBook.find?, SessionBook.erase, found,
        List.filter_comm _ fun s : Session => s.fileKey.isOfPair mine peer]
  | table vault rows =>
      have found := find?_filter_of_imp rows.rows (imp_of_ofPair SessionRow.key ofPair)
      simp only [SessionStore.ofPair, erase, SessionTable.find?, SessionTable.erase, found,
        List.filter_comm _ fun r : SessionRow => r.key.isOfPair mine peer]

theorem erasePair_ofPair : (store.ofPair mine peer).erasePair mine peer =
    ((store.erasePair mine peer).1, (store.erasePair mine peer).2.ofPair mine peer) := by
  cases store with
  | memory book =>
      simp only [ofPair, erasePair, SessionBook.erasePair, List.countP_filter, Bool.and_self,
        List.filter_comm _ fun s : Session => s.fileKey.isOfPair mine peer]
  | table vault rows =>
      simp only [ofPair, erasePair, SessionTable.erasePair, List.countP_filter, Bool.and_self,
        List.filter_comm _ fun r : SessionRow => r.key.isOfPair mine peer]

end SessionStore

/-! ## Writing -/

namespace SessionTable

def rewritten (row r : SessionRow) : SessionRow :=
  if r.key == row.key then { r with state := row.state, value := row.value, updated := row.updated } else r

theorem rewritten_key (row r : SessionRow) : (rewritten row r).key = r.key := by
  unfold rewritten
  split <;> rfl

theorem put_eq (t : SessionTable) (row : SessionRow) :
    t.put row = if (t.find? row.key).isSome then ⟨t.rows.map (rewritten row)⟩ else ⟨t.rows ++ [row]⟩ := by
  unfold put
  cases t.find? row.key with
  | none => rfl
  | some old => rfl

theorem filter_rewritten (rows : List SessionRow) (row : SessionRow) (p : SessionKey → Bool) :
    (rows.map (rewritten row)).filter (fun r => p r.key) =
      (rows.filter fun r => p r.key).map (rewritten row) := by
  rw [List.filter_map]
  congr 2
  funext r
  simp only [Function.comp_apply, rewritten_key]

theorem filter_put_of (p : SessionKey → Bool) {row : SessionRow} (kept : p row.key = true)
    (t : SessionTable) :
    (t.put row).rows.filter (fun r => p r.key) =
      (put ⟨t.rows.filter fun r => p r.key⟩ row).rows := by
  have present : find? ⟨t.rows.filter fun r => p r.key⟩ row.key = t.find? row.key := by
    apply SessionStore.find?_filter_of_imp
    intro r here
    rw [beq_iff_eq.mp here]
    exact kept
  rw [put_eq, put_eq, present]
  by_cases here : (t.find? row.key).isSome = true
  · rw [if_pos here, if_pos here]
    exact filter_rewritten t.rows row p
  · rw [if_neg here, if_neg here]
    simp [List.filter_append, kept]

theorem filter_put_of_not (p : SessionKey → Bool) {row : SessionRow} (other : p row.key = false)
    (t : SessionTable) :
    (t.put row).rows.filter (fun r => p r.key) = t.rows.filter fun r => p r.key := by
  rw [put_eq]
  split
  · have same : ∀ r ∈ t.rows.filter (fun r => p r.key), rewritten row r = id r := by
      intro r mem
      have kept := (List.mem_filter.mp mem).2
      apply if_neg
      intro here
      rw [beq_iff_eq.mp here, other] at kept
      cases kept
    rw [filter_rewritten, List.map_congr_left same, List.map_id]
  · simp [List.filter_append, other]

end SessionTable

namespace SessionStore

variable {suite : Suite} {mine peer : String} {store : SessionStore} {nonce : Nonce} {now : Instant}
  {s : Session}

theorem put_ofPair (ofPair : s.fileKey.isOfPair mine peer = true) :
    (store.ofPair mine peer).put suite nonce now s =
      (store.put suite nonce now s).map (SessionStore.ofPair mine peer) := by
  cases store with
  | memory book =>
      have others : (book.sessions.filter fun t => t.fileKey.isOfPair mine peer).filter
          (fun t => t.fileKey != s.fileKey) = (book.sessions.filter fun t => t.fileKey != s.fileKey).filter
            fun t => t.fileKey.isOfPair mine peer := List.filter_comm _ _ _
      simp only [SessionStore.ofPair, put, Except.map, SessionBook.put, SessionBook.erase, others,
        List.filter_cons, ofPair, if_true]
  | table vault rows =>
      obtain ⟨_ | key⟩ := vault
      · rfl
      · let row : SessionRow :=
          ⟨s.fileKey, s.state.text, SessionTable.sealed suite key nonce s, s.created, now⟩
        have isOf : SessionKey.isOfPair mine peer row.key = true := ofPair
        have kept := SessionTable.filter_put_of (SessionKey.isOfPair mine peer) isOf rows
        exact (congrArg (fun rows => Except.ok (SessionStore.table ⟨some key⟩ ⟨rows⟩)) kept).symm

/-- A session of another pair leaves those of a pair as they are. -/
theorem ofPair_put_of_not (other : s.fileKey.isOfPair mine peer = false) {after : SessionStore}
    (stored : store.put suite nonce now s = .ok after) :
    after.ofPair mine peer = store.ofPair mine peer := by
  cases store with
  | memory book =>
      cases stored
      have kept : ∀ t ∈ book.sessions, t.fileKey.isOfPair mine peer = true → t.fileKey ≠ s.fileKey := by
        intro t _ ofPair same
        rw [same, other] at ofPair
        cases ofPair
      simp only [ofPair, SessionBook.put, SessionBook.erase, List.filter_cons, other,
        List.filter_filter, Bool.false_eq_true, if_false]
      congr 2
      apply List.filter_congr
      intro t mem
      by_cases ofPair : t.fileKey.isOfPair mine peer = true
      · simp [ofPair, kept t mem ofPair]
      · simp [ofPair]
  | table vault rows =>
      obtain ⟨_ | key⟩ := vault
      · cases stored
      · cases stored
        simp only [ofPair]
        rw [SessionTable.filter_put_of_not (SessionKey.isOfPair mine peer) other]

theorem ofPair_erase_of_not {key : SessionKey} (other : key.isOfPair mine peer = false) :
    (store.erase key).2.ofPair mine peer = store.ofPair mine peer := by
  have apart : ∀ k : SessionKey, k.isOfPair mine peer = true → (k == key) = false := by
    intro k ofPair
    apply beq_eq_false_iff_ne.mpr
    rintro rfl
    rw [other] at ofPair
    cases ofPair
  cases store with
  | memory book =>
      exact congrArg (fun rows => SessionStore.memory ⟨rows⟩)
        (filter_filter_of_imp fun s => apart s.fileKey)
  | table vault rows =>
      exact congrArg (fun rows => SessionStore.table vault ⟨rows⟩)
        (filter_filter_of_imp fun r => apart r.key)

theorem ofPair_erasePair_of_ne {mine' peer' : String} (ne : ¬(mine' = mine ∧ peer' = peer)) :
    (store.erasePair mine' peer').2.ofPair mine peer = store.ofPair mine peer := by
  have apart : ∀ k : SessionKey, k.isOfPair mine peer = true → k.isOfPair mine' peer' = false := by
    intro k ofPair
    apply Bool.eq_false_iff.mpr
    intro ofPair'
    obtain ⟨rfl, rfl⟩ := SessionKey.isOfPair_iff.mp ofPair
    obtain ⟨rfl, rfl⟩ := SessionKey.isOfPair_iff.mp ofPair'
    exact ne ⟨rfl, rfl⟩
  cases store with
  | memory book =>
      exact congrArg (fun rows => SessionStore.memory ⟨rows⟩)
        (filter_filter_of_imp fun s => apart s.fileKey)
  | table vault rows =>
      exact congrArg (fun rows => SessionStore.table vault ⟨rows⟩)
        (filter_filter_of_imp fun r => apart r.key)

/-! ## What is there -/

/-- Whether there is a session under a key, readable or not. -/
def has (store : SessionStore) (key : SessionKey) : Bool := (store.erase key).1

theorem isSome_find?_filter {ρ : Type} (keyOf : ρ → SessionKey) (gone : SessionKey → Bool)
    (key : SessionKey) (rows : List ρ) :
    ((rows.filter fun r => !gone (keyOf r)).find? fun r => keyOf r == key).isSome =
      ((rows.find? fun r => keyOf r == key).isSome && !gone key) := by
  rw [Bool.eq_iff_iff, Bool.and_eq_true, List.find?_isSome, List.find?_isSome]
  simp only [List.mem_filter, beq_iff_eq]
  constructor
  · rintro ⟨r, ⟨mem, stays⟩, rfl⟩
    exact ⟨⟨r, mem, rfl⟩, stays⟩
  · rintro ⟨⟨r, mem, rfl⟩, stays⟩
    exact ⟨r, ⟨mem, stays⟩, rfl⟩

theorem has_erasePair (store : SessionStore) (mine peer : String) (key : SessionKey) :
    (store.erasePair mine peer).2.has key = (store.has key && !key.isOfPair mine peer) := by
  cases store with
  | memory book => exact isSome_find?_filter Session.fileKey (SessionKey.isOfPair mine peer) key _
  | table vault rows => exact isSome_find?_filter SessionRow.key (SessionKey.isOfPair mine peer) key _

theorem isSome_find?_put (t : SessionTable) (row : SessionRow) (key : SessionKey) :
    ((t.put row).find? key).isSome = ((t.find? key).isSome || row.key == key) := by
  rw [SessionTable.put_eq, Bool.eq_iff_iff, Bool.or_eq_true, beq_iff_eq]
  unfold SessionTable.find?
  split
  · next present =>
    simp only [List.find?_isSome, List.mem_map, exists_exists_and_eq_and, SessionTable.rewritten_key,
      beq_iff_eq] at present ⊢
    constructor
    · exact .inl
    · rintro (there | rfl)
      · exact there
      · exact present
  · simp only [List.find?_isSome, List.mem_append, List.mem_singleton, or_and_right, exists_or,
      exists_eq_left, beq_iff_eq]

theorem has_put {after : SessionStore} (stored : store.put suite nonce now s = .ok after)
    (key : SessionKey) : after.has key = (store.has key || s.fileKey == key) := by
  cases store with
  | memory book =>
      cases stored
      have others := isSome_find?_filter Session.fileKey (· == s.fileKey) key book.sessions
      show (List.find? _ (s :: List.filter _ _)).isSome = ((List.find? _ _).isSome || _)
      cases here : s.fileKey == key with
      | true => rw [List.find?_cons, here, Option.isSome_some, Bool.or_true]
      | false =>
          have apart : (key == s.fileKey) = false := by rw [BEq.comm, here]
          rw [apart, Bool.not_false, Bool.and_true] at others
          rw [List.find?_cons, here, Bool.or_false]
          exact others
  | table vault rows =>
      obtain ⟨_ | key⟩ := vault
      · cases stored
      · cases stored
        exact isSome_find?_put rows _ _

/-! ## Sessions under their own keys -/

/-- Whether each session that can be read is found under its own key. -/
def Filed (suite : Suite) : SessionStore → Prop
  | .memory _ => True
  | .table vault rows =>
    ∀ row ∈ rows.rows, ∀ s, SessionTable.read suite vault row = .ok s → s.fileKey = row.key

theorem Filed.find (filed : store.Filed suite) {key : SessionKey} {s : Session}
    (found : store.find suite key = .ok (some s)) : s.fileKey = key := by
  cases store with
  | memory book =>
      have here := List.find?_some (Except.ok.inj found)
      exact beq_iff_eq.mp here
  | table vault rows =>
      simp only [SessionStore.find] at found
      cases looked : rows.find? key with
      | none =>
          rw [looked] at found
          cases found
      | some row =>
          rw [looked] at found
          have named := List.find?_some looked
          cases read : SessionTable.read suite vault row with
          | error e =>
              rw [opened, read] at found
              cases found
          | ok t =>
              rw [opened, read] at found
              cases found
              rw [filed row (List.mem_of_find?_eq_some looked) s read]
              exact beq_iff_eq.mp named

theorem Filed.erase (filed : store.Filed suite) (key : SessionKey) : (store.erase key).2.Filed suite := by
  cases store with
  | memory book => trivial
  | table vault rows => exact fun row mem => filed row (List.mem_filter.mp mem).1

theorem Filed.erasePair (filed : store.Filed suite) (mine peer : String) :
    (store.erasePair mine peer).2.Filed suite := by
  cases store with
  | memory book => trivial
  | table vault rows => exact fun row mem => filed row (List.mem_filter.mp mem).1

/-- A session is read from its row with the key that it was written with. -/
theorem fileKey_of_read_sealed (opens : suite.Opens) {key : Key} {row : SessionRow} {t : Session}
    (sealed : row.value = SessionTable.sealed suite key nonce s)
    (read : SessionTable.read suite (.unlocked key) row = .ok t) : t.fileKey = s.fileKey := by
  rw [SessionTable.read, sealed, SessionTable.sealed, Vault.decrypt_self opens] at read
  simp only [bind, Except.bind] at read
  cases parsed : Session.ofJsonBytes? (Text.utf8 s.toJson.compact) with
  | none =>
      rw [parsed] at read
      cases read
  | some u =>
      rw [parsed] at read
      cases read
      exact Session.fileKey_of_read parsed

theorem Filed.put (opens : suite.Opens) (filed : store.Filed suite) {after : SessionStore}
    (stored : store.put suite nonce now s = .ok after) : after.Filed suite := by
  cases store with
  | memory book =>
      cases stored
      trivial
  | table vault rows =>
      obtain ⟨_ | key⟩ := vault
      · cases stored
      · cases stored
        intro row mem t read
        rw [SessionTable.put_eq] at mem
        split at mem
        · obtain ⟨old, inRows, rfl⟩ := List.mem_map.mp mem
          rw [SessionTable.rewritten_key]
          unfold SessionTable.rewritten at read
          split at read
          · next here =>
            rw [beq_iff_eq.mp here]
            exact fileKey_of_read_sealed opens rfl read
          · exact filed old inRows t read
        · rcases List.mem_append.mp mem with inRows | last
          · exact filed row inRows t read
          · obtain rfl := List.mem_singleton.mp last
            exact fileKey_of_read_sealed opens rfl read

end SessionStore

end SecureInbox
