import SecureInbox.Intake.PeerLocks
import SecureInbox.Proofs.Entries

/-! # Locks that exclude

A lock is removed from the table only while no ticket refers to it, and a ticket refers to
its lock from the moment when it is looked up.  So every ticket refers to the lock that its
peer has in the table (`Sound.refers`), and since a lock is only taken when it is free, no two
tickets of a peer hold at once (`locks_exclude`). -/
set_option autoImplicit false

namespace SecureInbox.PeerLocks

variable {s : PeerLocks}

/-! ## The invariant -/

structure Sound (s : PeerLocks) : Prop where
  /-- Each peer has at most one lock. -/
  peers : (s.locks.map Prod.fst).Nodup
  /-- No lock is that of two peers. -/
  locks : (s.locks.map Prod.snd).Nodup
  made : ∀ entry ∈ s.locks, entry.2 < s.nextLock
  numbers : (s.tickets.map LockTicket.number).Nodup
  issued : ∀ t ∈ s.tickets, t.number < s.nextTicket
  refers : ∀ t ∈ s.tickets, s.locks.lookup t.peer = some t.lock
  exclusive : ∀ a ∈ s.tickets, ∀ b ∈ s.tickets, a.holds = true → b.holds = true → a.lock = b.lock → a = b

theorem isUsed_of_mem {t : LockTicket} (member : t ∈ s.tickets) : s.isUsed t.lock = true := by
  simp only [isUsed, List.any_eq_true, beq_iff_eq]
  exact ⟨t, member, rfl⟩

theorem not_of_isUsed {lock : LockId} (idle : ¬ s.isUsed lock = true) :
    ∀ t ∈ s.tickets, t.lock ≠ lock := by
  rintro t member rfl
  exact idle (isUsed_of_mem member)

theorem not_of_isFree {lock : LockId} (free : s.isFree lock = true) :
    ∀ t ∈ s.tickets, t.lock = lock → t.holds = false := by
  intro t member here
  have none := List.all_eq_true.mp free t member
  simpa [here] using none

namespace Sound

theorem empty : Sound PeerLocks.empty := by
  constructor <;> simp [PeerLocks.empty]

theorem prune (sound : s.Sound) : s.prune.Sound := by
  unfold PeerLocks.prune
  split
  · exact {
      peers := sound.peers.sublist (List.filter_sublist.map _)
      locks := sound.locks.sublist (List.filter_sublist.map _)
      made := fun entry member => sound.made entry (List.mem_of_mem_filter member)
      numbers := sound.numbers
      issued := sound.issued
      refers := fun t member =>
        Entries.lookup_filter sound.peers (sound.refers t member) (isUsed_of_mem member)
      exclusive := sound.exclusive }
  · exact sound

/-- One more ticket, which waits. -/
theorem issue (sound : s.Sound) {peer : Identity} {lock : LockId}
    (found : s.locks.lookup peer = some lock) :
    Sound { s with
      tickets := s.tickets ++ [⟨s.nextTicket, peer, lock, false⟩], nextTicket := s.nextTicket + 1 } where
  peers := sound.peers
  locks := sound.locks
  made := sound.made
  numbers := by
    simp only [List.map_append, List.map_cons, List.map_nil]
    apply List.nodup_append.mpr
    refine ⟨sound.numbers, by simp, ?_⟩
    intro n old m new
    obtain ⟨t, member, rfl⟩ := List.mem_map.mp old
    have earlier := sound.issued t member
    simp only [List.mem_singleton] at new
    omega
  issued t member := by
    rcases List.mem_append.mp member with old | new
    · exact Nat.lt_succ_of_lt (sound.issued t old)
    · simp only [List.mem_singleton] at new
      simp [new]
  refers t member := by
    rcases List.mem_append.mp member with old | new
    · exact sound.refers t old
    · simp only [List.mem_singleton] at new
      simp [new, found]
  exclusive a ofA b ofB := by
    intro first second same
    rcases List.mem_append.mp ofA with oldA | newA
    · rcases List.mem_append.mp ofB with oldB | newB
      · exact sound.exclusive a oldA b oldB first second same
      · simp [List.mem_singleton.mp newB] at second
    · simp [List.mem_singleton.mp newA] at first

/-- One more lock, for a peer that has none. -/
theorem add (sound : s.Sound) {peer : Identity} (none : s.locks.lookup peer = none) :
    Sound { s with locks := s.locks ++ [(peer, s.nextLock)], nextLock := s.nextLock + 1 } where
  peers := by
    simp only [List.map_append, List.map_cons, List.map_nil]
    apply List.nodup_append.mpr
    refine ⟨sound.peers, by simp, ?_⟩
    intro other old new fresh
    obtain ⟨entry, member, rfl⟩ := List.mem_map.mp old
    have differs : peer ≠ entry.1 := by
      simpa using List.lookup_eq_none_iff.mp none entry member
    rw [List.mem_singleton.mp fresh]
    exact differs.symm
  locks := by
    simp only [List.map_append, List.map_cons, List.map_nil]
    apply List.nodup_append.mpr
    refine ⟨sound.locks, by simp, ?_⟩
    intro lock old new fresh
    obtain ⟨entry, member, rfl⟩ := List.mem_map.mp old
    rw [List.mem_singleton.mp fresh]
    exact Nat.ne_of_lt (sound.made entry member)
  made entry member := by
    rcases List.mem_append.mp member with old | new
    · exact Nat.lt_succ_of_lt (sound.made entry old)
    · simp [List.mem_singleton.mp new]
  numbers := sound.numbers
  issued := sound.issued
  refers t member := by
    have found := sound.refers t member
    simp [List.lookup_append, found]
  exclusive := sound.exclusive

theorem lookup_add {locks : List (Identity × LockId)} {peer : Identity} {lock : LockId}
    (none : locks.lookup peer = none) : (locks ++ [(peer, lock)]).lookup peer = some lock := by
  simp [List.lookup_append, none]

theorem ask (sound : s.Sound) (peer : Identity) : (s.ask peer).2.Sound := by
  have pruned := sound.prune
  unfold PeerLocks.ask
  dsimp only
  cases found : s.prune.locks.lookup peer with
  | some lock => exact pruned.issue found
  | none => exact (pruned.add found).issue (lookup_add found)

/-- After a ticket has taken its lock, it is there as a holder, and the others as they were. -/
theorem of_mem_take (sound : s.Sound) {t : LockTicket} (waits : t ∈ s.tickets) {a : LockTicket}
    (taken : a ∈ (s.take t.number).tickets) : a = { t with holds := true } ∨ a ∈ s.tickets := by
  obtain ⟨old, member, rfl⟩ := List.mem_map.mp taken
  by_cases here : old.number = t.number
  · have same : old = t := List.inj_on_of_nodup_map sound.numbers member waits here
    left
    simp [same]
  · right
    simp [here, member]

theorem take (sound : s.Sound) {t : LockTicket} (waits : t ∈ s.tickets)
    (free : s.isFree t.lock = true) : (s.take t.number).Sound where
  peers := sound.peers
  locks := sound.locks
  made := sound.made
  numbers := by
    have same : (s.take t.number).tickets.map LockTicket.number = s.tickets.map LockTicket.number := by
      simp only [PeerLocks.take, List.map_map]
      apply List.map_congr_left
      intro a _
      simp only [Function.comp_apply]
      split <;> rfl
    rw [same]
    exact sound.numbers
  issued a member := by
    rcases sound.of_mem_take waits member with rfl | old
    · exact sound.issued t waits
    · exact sound.issued a old
  refers a member := by
    rcases sound.of_mem_take waits member with rfl | old
    · exact sound.refers t waits
    · exact sound.refers a old
  exclusive a ofA b ofB := by
    -- The lock was free, so a holder of it that was there before would be a contradiction.
    intro first second same
    have idle := not_of_isFree free
    rcases sound.of_mem_take waits ofA with rfl | oldA
    · rcases sound.of_mem_take waits ofB with rfl | oldB
      · rfl
      · simp [idle b oldB same.symm] at second
    · rcases sound.of_mem_take waits ofB with rfl | oldB
      · simp [idle a oldA same] at first
      · exact sound.exclusive a oldA b oldB first second same

theorem release (sound : s.Sound) (number : Nat) : (s.release number).Sound where
  peers := sound.peers
  locks := sound.locks
  made := sound.made
  numbers := sound.numbers.sublist (List.filter_sublist.map _)
  issued t member := sound.issued t (List.mem_of_mem_filter member)
  refers t member := sound.refers t (List.mem_of_mem_filter member)
  exclusive a ofA b ofB :=
    sound.exclusive a (List.mem_of_mem_filter ofA) b (List.mem_of_mem_filter ofB)

theorem step (sound : s.Sound) {next : PeerLocks} (step : Step s next) : next.Sound := by
  cases step with
  | ask peer => exact sound.ask peer
  | take t waits free => exact sound.take waits free
  | release number => exact sound.release number

end Sound

theorem Reachable.sound (reachable : Reachable s) : s.Sound := by
  induction reachable with
  | empty => exact Sound.empty
  | step _ step ih => exact ih.step step

/-! ## What a look-up does -/

theorem ask_eq (s : PeerLocks) (peer : Identity) : ∃ (lock : LockId) (added : List (Identity × LockId)),
    (s.ask peer).1 = ⟨s.nextTicket, peer, lock, false⟩ ∧
      (s.ask peer).2.tickets = s.tickets ++ [⟨s.nextTicket, peer, lock, false⟩] ∧
        (s.ask peer).2.locks = s.prune.locks ++ added ∧ ∀ entry ∈ added, entry.2 = s.nextLock := by
  have kept : s.prune.tickets = s.tickets ∧ s.prune.nextTicket = s.nextTicket ∧
      s.prune.nextLock = s.nextLock := by
    unfold prune
    split <;> exact ⟨rfl, rfl, rfl⟩
  unfold ask
  dsimp only
  rw [kept.1, kept.2.1, kept.2.2]
  cases s.prune.locks.lookup peer with
  | some lock => exact ⟨lock, [], rfl, rfl, (List.append_nil _).symm, by simp⟩
  | none => exact ⟨s.nextLock, [(peer, s.nextLock)], rfl, rfl, rfl, by simp⟩

theorem prune_subset (s : PeerLocks) : s.prune.locks ⊆ s.locks := by
  unfold prune
  split
  · exact List.filter_sublist.subset
  · exact List.Subset.refl _

theorem not_used_of_pruned {entry : Identity × LockId} (member : entry ∈ s.locks)
    (gone : entry ∉ s.prune.locks) : ∀ t ∈ s.tickets, t.lock ≠ entry.2 := by
  apply not_of_isUsed
  intro used
  apply gone
  unfold prune
  split
  · exact List.mem_filter.mpr ⟨member, used⟩
  · exact member

/-- Only a look-up removes entries, and only those to which no ticket refers. -/
theorem Step.not_used {next : PeerLocks} (step : Step s next) {entry : Identity × LockId}
    (member : entry ∈ s.locks) (gone : entry ∉ next.locks) : ∀ t ∈ s.tickets, t.lock ≠ entry.2 := by
  cases step with
  | ask peer =>
      obtain ⟨lock, added, -, -, locks, -⟩ := s.ask_eq peer
      apply not_used_of_pruned member
      intro kept
      exact gone (locks ▸ List.mem_append_left added kept)
  | take t waits free => exact absurd member gone
  | release number => exact absurd member gone

/-- A lock that was not there has a new number. -/
theorem Step.of_mem_locks {next : PeerLocks} (step : Step s next) {entry : Identity × LockId}
    (member : entry ∈ next.locks) : entry ∈ s.locks ∨ entry.2 = s.nextLock := by
  cases step with
  | ask peer =>
      obtain ⟨lock, added, -, -, locks, fresh⟩ := s.ask_eq peer
      rw [locks] at member
      rcases List.mem_append.mp member with old | new
      · exact .inl (s.prune_subset old)
      · exact .inr (fresh entry new)
  | take t waits free => exact .inl member
  | release number => exact .inl member

/-- Who asks and finds nobody before him at the lock finds it free. -/
theorem isFree_of_isFirst {old : List LockTicket} {t : LockTicket} (here : s.tickets = old ++ [t])
    (issued : ∀ a ∈ old, a.number < t.number) (waits : t.holds = false)
    (first : s.isFirst t.number t.lock = true) : s.isFree t.lock = true := by
  have nobody : ∀ a ∈ old, a.lock ≠ t.lock := by
    intro a member same
    unfold isFirst at first
    rw [here, List.find?_append] at first
    cases found : old.find? fun a => a.lock == t.lock with
    | none =>
        simp only [List.find?_eq_none, beq_iff_eq] at found
        exact found a member same
    | some b =>
        have earlier := issued b (List.mem_of_find?_eq_some found)
        simp only [found, Option.some_or, beq_iff_eq] at first
        omega
  simp only [isFree, here, List.all_eq_true, List.mem_append, List.mem_singleton]
  rintro a (member | rfl)
  · simp [nobody a member]
  · simp [waits]

theorem acquire_eq (sound : s.Sound) {t : LockTicket} (member : t ∈ s.tickets) :
    s.acquire t.number = if s.isFirst t.number t.lock = true then s.take t.number else s := by
  have only : ∀ a ∈ s.tickets, a.number = t.number → a = t := fun a other same =>
    List.inj_on_of_nodup_map sound.numbers other member same
  split
  · next first =>
    simp only [acquire, take]
    congr 1
    apply List.map_congr_left
    intro a other
    by_cases same : a.number = t.number
    · simp [only a other same, first]
    · simp [same]
  · next behind =>
    have same : s.tickets.map (fun a => if a.number == t.number && s.isFirst t.number a.lock then
        { a with holds := true } else a) = s.tickets.map id := by
      apply List.map_congr_left
      intro a other
      by_cases same : a.number = t.number
      · simp [only a other same, behind]
      · simp [same]
    simp only [acquire, same, List.map_id]

/-- Trying to lock is asking, taking the lock or not, and giving up if not. -/
theorem Reachable.tryLock (reachable : Reachable s) (peer : Identity) :
    Reachable (s.tryLock peer).2 := by
  obtain ⟨lock, added, ticket, tickets, -, -⟩ := s.ask_eq peer
  have asked : Reachable (s.ask peer).2 := reachable.step (.ask s peer)
  have member : (s.ask peer).1 ∈ (s.ask peer).2.tickets := by
    simp [ticket, tickets]
  have acquired : Reachable ((s.ask peer).2.acquire (s.ask peer).1.number) := by
    rw [acquire_eq asked.sound member]
    split
    · next first =>
      apply asked.step
      apply Step.take _ _ member
      rw [← ticket] at tickets
      apply isFree_of_isFirst tickets
      · intro a old
        rw [ticket]
        exact reachable.sound.issued a old
      · rw [ticket]
      · exact first
    · exact asked
  unfold PeerLocks.tryLock
  dsimp only
  split
  · exact acquired
  · exact acquired.step (.release _ _)

/-! ## Any number of peers -/

theorem countP_le_one {tickets : List LockTicket} (numbers : (tickets.map LockTicket.number).Nodup)
    {wanted : LockTicket → Bool} (only : ∀ a ∈ tickets, ∀ b ∈ tickets, wanted a = true →
      wanted b = true → a = b) : tickets.countP wanted ≤ 1 := by
  rw [List.countP_eq_length_filter]
  have distinct : (tickets.filter wanted).Nodup :=
    (List.Nodup.of_map _ numbers).filter wanted
  match held : tickets.filter wanted, distinct with
  | [], _ => simp
  | [a], _ => simp
  | a :: b :: rest, distinct =>
    have ofA := List.mem_filter.mp (held ▸ List.mem_cons_self : a ∈ tickets.filter wanted)
    have ofB := List.mem_filter.mp
      (held ▸ List.mem_cons_of_mem a List.mem_cons_self : b ∈ tickets.filter wanted)
    have same := only a ofA.1 b ofB.1 ofA.2 ofB.2
    simp [same] at distinct

/-- At any moment no peer's lock is held twice, and whoever waits for a lock or holds it refers to
the one that the table has for the peer; an entry that goes had neither. -/
theorem locks_exclude (s : PeerLocks) (reachable : Reachable s) :
    (∀ peer, s.tickets.countP (fun t => t.holds && t.peer == peer) ≤ 1) ∧
      (∀ t ∈ s.tickets, s.locks.lookup t.peer = some t.lock) ∧
        ∀ next, Step s next → ∀ entry ∈ s.locks, entry ∉ next.locks →
          (∀ t ∈ s.tickets, t.lock ≠ entry.2 ∧ t.peer ≠ entry.1) ∧
            ∀ t ∈ next.tickets, t.lock ≠ entry.2 := by
  have sound := reachable.sound
  refine ⟨?_, sound.refers, ?_⟩
  · intro peer
    apply countP_le_one sound.numbers
    intro a ofA b ofB heldA heldB
    simp only [Bool.and_eq_true, beq_iff_eq] at heldA heldB
    have same : a.lock = b.lock := by
      have left := sound.refers a ofA
      have right := sound.refers b ofB
      rw [heldA.2] at left
      rw [heldB.2] at right
      exact Option.some.inj (left.symm.trans right)
    exact sound.exclusive a ofA b ofB heldA.1 heldB.1 same
  · intro next step entry member gone
    have unused := step.not_used member gone
    refine ⟨fun t waits => ⟨unused t waits, ?_⟩, ?_⟩
    · rintro same
      have found := sound.refers t waits
      rw [same, Entries.lookup_of_mem sound.peers member] at found
      exact unused t waits (Option.some.inj found).symm
    · intro t waits same
      have found := Entries.mem_of_lookup ((reachable.step step).sound.refers t waits)
      rcases step.of_mem_locks found with old | fresh
      · have here : (t.peer, t.lock) = entry := List.inj_on_of_nodup_map sound.locks old member same
        exact gone (here ▸ found)
      · have earlier := sound.made entry member
        rw [← same, show t.lock = s.nextLock from fresh] at earlier
        exact Nat.lt_irrefl _ earlier

/-! ## A crowd

More peers than the table is meant for: the lock of one of them is held, and the others have come
and gone. -/

def passerby (n : Nat) : Identity where
  handle := ⟨List.replicate 5 0x50 ++
    [UInt8.ofNat (0x41 + n / 256 % 16), UInt8.ofNat (0x41 + n / 16 % 16), UInt8.ofNat (0x41 + n % 16)],
    by simp⟩
  wellFormed := by
    have letter : ∀ d < 16, isHandleByte (UInt8.ofNat (0x41 + d)) = true := by decide
    have placed : ∀ k, isHandleByte (UInt8.ofNat (0x41 + k % 16)) = true := fun k =>
      letter _ (Nat.mod_lt k (by decide))
    simp only [List.all_append, List.all_cons, placed]
    rfl

theorem passerby_inj {m n : Nat} (fitsM : m < 4096) (fitsN : n < 4096)
    (same : passerby m = passerby n) : m = n := by
  have digits : ∀ a < 16, ∀ b < 16, UInt8.ofNat (0x41 + a) = UInt8.ofNat (0x41 + b) → a = b := by
    decide
  have bytes := congrArg (fun i : Identity => i.handle.bytes) same
  simp only [passerby, List.append_cancel_left_eq, List.cons.injEq, and_true] at bytes
  have high := digits _ (Nat.mod_lt _ (by decide)) _ (Nat.mod_lt _ (by decide)) bytes.1
  have middle := digits _ (Nat.mod_lt _ (by decide)) _ (Nat.mod_lt _ (by decide)) bytes.2.1
  have low := digits _ (Nat.mod_lt _ (by decide)) _ (Nat.mod_lt _ (by decide)) bytes.2.2
  omega

/-- After each of some peers has asked for its lock and given it up. -/
def visited (peers : List Identity) (s : PeerLocks) : PeerLocks :=
  peers.foldl (fun s peer => (s.ask peer).2.release (s.ask peer).1.number) s

theorem Reachable.visited (reachable : Reachable s) (peers : List Identity) :
    Reachable (s.visited peers) := by
  induction peers generalizing s with
  | nil => exact reachable
  | cons peer rest ih => exact ih ((reachable.step (.ask s peer)).step (.release _ _))

/-- As long as the table is not too full, a visit leaves an entry and nothing else. -/
theorem visit_eq (sound : s.Sound) {peer : Identity} (new : s.locks.lookup peer = none)
    (room : s.locks.length ≤ pruneThreshold) :
    (s.ask peer).2.release (s.ask peer).1.number =
      ⟨s.locks ++ [(peer, s.nextLock)], s.tickets, s.nextLock + 1, s.nextTicket + 1⟩ := by
  have whole : s.prune = s := if_neg (Nat.not_lt.mpr room)
  have others : s.tickets.filter (fun t => t.number != s.nextTicket) = s.tickets := by
    apply List.filter_eq_self.mpr
    intro t member
    have earlier := sound.issued t member
    simp only [bne_iff_ne]
    omega
  simp [ask, release, whole, new, others]

theorem visited_eq (peers : List Identity) : ∀ {s : PeerLocks}, s.Sound →
    (∀ peer ∈ peers, s.locks.lookup peer = none) → peers.Nodup →
      s.locks.length + peers.length ≤ pruneThreshold + 1 →
        (s.visited peers).tickets = s.tickets ∧ ∃ added, (s.visited peers).locks = s.locks ++ added ∧
          added.map Prod.fst = peers ∧ ∀ entry ∈ added, s.nextLock ≤ entry.2 := by
  induction peers with
  | nil =>
      intro s _ _ _ _
      exact ⟨rfl, [], (List.append_nil _).symm, rfl, by simp⟩
  | cons peer rest ih =>
      intro s sound new distinct room
      obtain ⟨fresh, distinct⟩ := List.nodup_cons.mp distinct
      simp only [List.length_cons] at room
      have first := visit_eq sound (new peer List.mem_cons_self) (by omega)
      have sound := (sound.ask peer).release (s.ask peer).1.number
      rw [visited, List.foldl_cons]
      rw [first] at sound ⊢
      have others : ∀ other ∈ rest, (s.locks ++ [(peer, s.nextLock)]).lookup other = none := by
        intro other member
        have differs : other ≠ peer := by
          rintro rfl
          exact fresh member
        simp [List.lookup_append, new other (List.mem_cons_of_mem peer member), differs]
      obtain ⟨tickets, added, locks, peers, made⟩ := ih sound others distinct (by simp; omega)
      refine ⟨tickets, (peer, s.nextLock) :: added, ?_, by simp [peers], ?_⟩
      · exact locks.trans (List.append_assoc _ _ _)
      · intro entry member
        rcases List.mem_cons.mp member with rfl | later
        · exact Nat.le_refl _
        · exact Nat.le_of_succ_le (made entry later)

/-- The lock of the first passer-by is held, and the others have been there. -/
def crowded : PeerLocks :=
  ((PeerLocks.empty.ask (passerby 0)).2.take 0).visited ((List.range 1024).map fun n => passerby (n + 1))

theorem crowded_reachable : Reachable crowded := by
  apply Reachable.visited
  apply Reachable.step (Reachable.step .empty (.ask _ (passerby 0)))
  exact Step.take _ ⟨0, passerby 0, 0, false⟩ (by simp [ask, prune, PeerLocks.empty])
    (by simp [isFree, ask, prune, PeerLocks.empty])

theorem crowded_eq : crowded.tickets = [⟨0, passerby 0, 0, true⟩] ∧
    ∃ added, crowded.locks = (passerby 0, 0) :: added ∧ added.length = 1024 ∧
      ∀ entry ∈ added, 1 ≤ entry.2 := by
  have held : (PeerLocks.empty.ask (passerby 0)).2.take 0 =
      ⟨[(passerby 0, 0)], [⟨0, passerby 0, 0, true⟩], 1, 1⟩ := by
    simp [ask, take, prune, PeerLocks.empty]
  have inRange : ∀ n ∈ List.range 1024, n + 1 < 4096 := fun n member => by
    have below := List.mem_range.mp member
    omega
  have sound : Sound ⟨[(passerby 0, 0)], [⟨0, passerby 0, 0, true⟩], 1, 1⟩ := by
    constructor <;> simp
  have others : ∀ peer ∈ (List.range 1024).map fun n => passerby (n + 1),
      List.lookup peer [(passerby 0, 0)] = none := by
    intro peer member
    obtain ⟨n, below, rfl⟩ := List.mem_map.mp member
    have differs : passerby (n + 1) ≠ passerby 0 := fun same => by
      have equal := passerby_inj (inRange n below) (by decide) same
      omega
    simp [differs]
  have distinct : ((List.range 1024).map fun n => passerby (n + 1)).Nodup := by
    apply List.Nodup.map_on _ List.nodup_range
    intro m belowM n belowN same
    have equal := passerby_inj (inRange m belowM) (inRange n belowN) same
    omega
  obtain ⟨tickets, added, locks, peers, made⟩ := visited_eq _ sound others distinct (by simp [pruneThreshold])
  rw [crowded, held]
  refine ⟨tickets, added, locks, ?_, made⟩
  have length := congrArg List.length peers
  simpa using length

/-- In a table that is too full, a look-up of the only lock in use leaves that one alone. -/
theorem locks_ask_of_full {peer : Identity} {lock : LockId} {added : List (Identity × LockId)}
    (locks : s.locks = (peer, lock) :: added) (full : pruneThreshold ≤ added.length)
    (used : s.isUsed lock = true) (idle : ∀ entry ∈ added, s.isUsed entry.2 = false) :
    (s.ask peer).2.locks = [(peer, lock)] := by
  have pruned : s.prune.locks = [(peer, lock)] := by
    have tooMany : pruneThreshold < s.locks.length := by
      rw [locks]
      exact Nat.lt_succ_of_le full
    have gone : added.filter (fun entry => s.isUsed entry.2) = [] := by
      apply List.filter_eq_nil_iff.mpr
      intro entry member
      simp [idle entry member]
    rw [prune, if_pos tooMany, locks, List.filter_cons, gone]
    simp [used]
  simp [ask, pruned]

theorem crowded_asked : crowded.size = 1025 ∧ (crowded.ask (passerby 0)).2.locks = [(passerby 0, 0)] := by
  obtain ⟨tickets, added, locks, length, made⟩ := crowded_eq
  refine ⟨by rw [size, locks, List.length_cons, length], ?_⟩
  apply locks_ask_of_full locks (Nat.le_of_eq length.symm)
  · simp [isUsed, tickets]
  · intro entry member
    have later := made entry member
    simp only [isUsed, tickets, List.any_cons, List.any_nil, Bool.or_false, beq_eq_false_iff_ne]
    exact Nat.ne_of_lt later

/-- Another one who asks for the first one's lock has all other entries removed, and waits. -/
theorem locks_exclude_crowded :
    Reachable crowded ∧ crowded.size = 1025 ∧
      (crowded.ask (passerby 0)).2.locks = [(passerby 0, 0)] ∧
        (∀ peer, (crowded.ask (passerby 0)).2.tickets.countP
          (fun t => t.holds && t.peer == peer) ≤ 1) ∧
        (∀ t ∈ (crowded.ask (passerby 0)).2.tickets,
          (crowded.ask (passerby 0)).2.locks.lookup t.peer = some t.lock) ∧
          ∀ entry ∈ crowded.locks, entry ∉ (crowded.ask (passerby 0)).2.locks →
            ∀ t ∈ crowded.tickets, t.lock ≠ entry.2 ∧ t.peer ≠ entry.1 := by
  have asked : Reachable (crowded.ask (passerby 0)).2 := crowded_reachable.step (.ask _ _)
  obtain ⟨exclusive, refers, -⟩ := locks_exclude _ asked
  obtain ⟨-, -, removed⟩ := locks_exclude _ crowded_reachable
  refine ⟨crowded_reachable, crowded_asked.1, crowded_asked.2, exclusive, refers, ?_⟩
  intro entry member gone t waits
  exact (removed _ (.ask _ _) entry member gone).1 t waits

end SecureInbox.PeerLocks
