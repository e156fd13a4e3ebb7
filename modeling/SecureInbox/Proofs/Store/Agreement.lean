import SecureInbox.Proofs.Crypto.Aead
import SecureInbox.Proofs.Intake.Setting
import SecureInbox.Proofs.Store.Seal
import SecureInbox.Proofs.Store.Table

/-! # The two session stores agree

`SessionCall` is what a session store is asked, and `SessionStore.answers` what it answers, call
after call.  `Ledger.Explains` says which answers are right: those of a map from keys to sessions
that knows what was written last.

Both stores follow the ledger step by step (`Follows.answer`).  Since a ledger leaves one right
answer to each call, they answer alike (`stores_agree`). -/
set_option autoImplicit false

namespace SecureInbox

/-- What a session store is asked.  A writing has the nonce that is drawn and the time that is read
for it. -/
inductive SessionCall where
  | put (session : Session) (nonce : Nonce) (now : Instant)
  | find (key : SessionKey)
  | best (mine peer : String)
  | erase (key : SessionKey)
  | erasePair (mine peer : String)

namespace SessionCall

abbrev Answer : SessionCall → Type
  | .put _ _ _ => Unit
  | .find _ => Option Session
  | .best _ _ => Option Session
  | .erase _ => Bool
  | .erasePair _ _ => Nat

def times : SessionCall → List Instant
  | .put _ _ now => [now]
  | _ => []

end SessionCall

structure SessionAnswer where
  call : SessionCall
  answer : Except StoreError call.Answer

def SessionAnswer.best? : SessionAnswer → Option Session
  | ⟨.best _ _, .ok session⟩ => session
  | _ => none

namespace SessionStore

def answer (suite : Suite) (store : SessionStore) :
    (c : SessionCall) → Except StoreError c.Answer × SessionStore
  | .put session nonce now =>
    match store.put suite nonce now session with
    | .ok after => (.ok (), after)
    | .error e => (.error e, store)
  | .find key => (store.find suite key, store)
  | .best mine peer => (store.best suite mine peer, store)
  | .erase key => (.ok (store.erase key).1, (store.erase key).2)
  | .erasePair mine peer => (.ok (store.erasePair mine peer).1, (store.erasePair mine peer).2)

def answers (suite : Suite) (store : SessionStore) : List SessionCall → List SessionAnswer
  | [] => []
  | c :: rest => ⟨c, (store.answer suite c).1⟩ :: (store.answer suite c).2.answers suite rest

theorem calls_answers (suite : Suite) (store : SessionStore) (calls : List SessionCall) :
    (store.answers suite calls).map SessionAnswer.call = calls := by
  induction calls generalizing store with
  | nil => rfl
  | cons c rest ih => rw [answers, List.map_cons, ih]

end SessionStore

/-! ## The right answers -/

namespace Ledger

def after (l : Ledger Session) : SessionCall → Ledger Session
  | .put session _ _ => l.put session.fileKey session
  | .erase key => l.remove (· == key)
  | .erasePair mine peer => l.remove (SessionKey.isOfPair mine peer)
  | _ => l

def Answers (l : Ledger Session) : SessionAnswer → Prop
  | ⟨.put _ _ _, answer⟩ => answer = .ok ()
  | ⟨.find key, answer⟩ => answer = .ok (l.find? key)
  | ⟨.best mine peer, answer⟩ => ∃ session, answer = .ok session ∧ l.IsBest mine peer session
  | ⟨.erase key, answer⟩ => answer = .ok (l.find? key).isSome
  | ⟨.erasePair mine peer, answer⟩ => ∃ count, answer = .ok count ∧ l.HasCount mine peer count

def Explains (l : Ledger Session) : List SessionAnswer → Prop
  | [] => True
  | x :: rest => l.Answers x ∧ (l.after x.call).Explains rest

variable {l : Ledger Session}

theorem Sound.after (sound : l.Sound) (c : SessionCall) : (l.after c).Sound := by
  cases c with
  | put session nonce now => exact sound.put session.fileKey session
  | erase key => exact sound.remove _
  | erasePair mine peer => exact sound.remove _
  | _ => exact sound

theorem Sound.answer_unique (sound : l.Sound) {c : SessionCall} {a b : Except StoreError c.Answer}
    (first : l.Answers ⟨c, a⟩) (second : l.Answers ⟨c, b⟩) : a = b := by
  cases c with
  | put session nonce now => exact Eq.trans first (Eq.symm second)
  | find key => exact Eq.trans first (Eq.symm second)
  | erase key => exact Eq.trans first (Eq.symm second)
  | best mine peer =>
      obtain ⟨s, rfl, best⟩ := first
      obtain ⟨t, rfl, best'⟩ := second
      rw [sound.best_unique best best']
  | erasePair mine peer =>
      obtain ⟨m, rfl, count⟩ := first
      obtain ⟨n, rfl, count'⟩ := second
      rw [count_unique count count']

/-- The same calls have the same right answers. -/
theorem Sound.answers_unique (sound : l.Sound) {xs ys : List SessionAnswer}
    (same : xs.map SessionAnswer.call = ys.map SessionAnswer.call) (first : l.Explains xs)
    (second : l.Explains ys) : xs = ys := by
  induction xs generalizing l ys with
  | nil => exact (List.map_eq_nil_iff.mp same.symm).symm
  | cons x xs ih =>
      obtain ⟨c, a⟩ := x
      cases ys with
      | nil => cases same
      | cons y ys =>
          obtain ⟨d, b⟩ := y
          obtain ⟨call, rest⟩ := List.cons.inj same
          obtain rfl : c = d := call
          rw [sound.answer_unique first.1 second.1, ih (sound.after c) rest first.2 second.2]

end Ledger

/-! ## Both stores follow it -/

namespace SessionBook

/-- Whether a book holds the sessions of a ledger, the last written first. -/
structure Follows (l : Ledger Session) (b : SessionBook) : Prop where
  lists : l.Lists Session.fileKey Eq b.sessions
  latest : b.sessions.Pairwise fun s t => l.number t.fileKey < l.number s.fileKey

namespace Follows

variable {l : Ledger Session} {b : SessionBook}

theorem empty : SessionBook.empty.Follows .empty := ⟨.empty, .nil⟩

theorem find (follows : b.Follows l) (key : SessionKey) : b.find? key = l.find? key := by
  obtain ⟨s, value, found, -, filed, rfl⟩ | ⟨found, filed⟩ := follows.lists.found key
  · exact found.trans filed.symm
  · exact found.trans filed.symm

theorem best (follows : b.Follows l) (mine peer : String) : l.IsBest mine peer (b.best mine peer) := by
  cases best : b.best mine peer with
  | none =>
      refine follows.lists.isBest_none fun s mem => ?_
      exact Bool.eq_false_iff.mpr (List.find?_eq_none.mp best s mem)
  | some s =>
      obtain ⟨ofPair, before, rest, split, none⟩ := List.find?_eq_some_iff_append.mp best
      have latest := follows.latest
      rw [split, List.pairwise_append, List.pairwise_cons] at latest
      have largest : ∀ t ∈ b.sessions, t.fileKey.isOfPair mine peer = true →
          l.number t.fileKey ≤ l.number s.fileKey := by
        intro t mem ofPair'
        rw [split, List.mem_append, List.mem_cons] at mem
        rcases mem with inBefore | rfl | inRest
        · have not := none t inBefore
          rw [ofPair'] at not
          cases not
        · exact Nat.le_refl _
        · exact Nat.le_of_lt (latest.2.1.1 t inRest)
      have mem : s ∈ b.sessions := split ▸ List.mem_append_right before List.mem_cons_self
      obtain ⟨value, rfl, isBest⟩ := follows.lists.isBest mem ofPair largest
      exact isBest

theorem remove (follows : b.Follows l) (gone : SessionKey → Bool) :
    Follows (l.remove gone) ⟨b.sessions.filter fun s => !gone s.fileKey⟩ where
  lists := follows.lists.remove gone
  latest := by
    refine (follows.latest.filter _).imp_of_mem fun {s t} mem mem' less => ?_
    have kept := (List.mem_filter.mp mem).2
    have kept' := (List.mem_filter.mp mem').2
    rw [l.number_remove_of_kept (by simpa using kept'), l.number_remove_of_kept (by simpa using kept)]
    exact less

theorem put (follows : b.Follows l) (sound : l.Sound) (s : Session) :
    (b.put s).Follows (l.put s.fileKey s) := by
  have mem : ∀ r, r ∈ (b.put s).sessions ↔ r = s ∨ r ∈ b.sessions ∧ r.fileKey ≠ s.fileKey := by
    intro r
    simp only [SessionBook.put, erase, List.mem_cons, List.mem_filter, bne_iff_ne]
  have others : ∀ r ∈ b.sessions.filter (fun r => r.fileKey != s.fileKey), r.fileKey ≠ s.fileKey :=
    fun r inRest => bne_iff_ne.mp (List.mem_filter.mp inRest).2
  have distinct : ((b.put s).sessions.map Session.fileKey).Nodup := by
    refine List.nodup_cons.mpr ⟨fun again => ?_, ?_⟩
    · obtain ⟨r, inRest, same⟩ := List.mem_map.mp again
      exact others r inRest same
    · exact follows.lists.distinct.sublist (List.filter_sublist.map _)
  refine ⟨follows.lists.put distinct rfl mem, List.pairwise_cons.mpr ⟨fun r inRest => ?_, ?_⟩⟩
  · rw [l.number_put_self, l.number_put_of_ne s (others r inRest)]
    exact Nat.lt_succ_of_le (sound.number_le r.fileKey)
  · refine (follows.latest.filter _).imp_of_mem fun {r t} inRest inRest' less => ?_
    rw [l.number_put_of_ne s (others r inRest), l.number_put_of_ne s (others t inRest')]
    exact less

end Follows

end SessionBook

namespace SessionStore

def Holds (suite : Suite) (key : Key) (text : String) (s : Session) : Prop :=
  s.Keeps ∧ ∃ nonce, text = SessionTable.sealed suite key nonce s

/-- Whether a store follows a ledger, with the times of writing that are still to come. -/
inductive Follows (suite : Suite) (times : List Instant) (l : Ledger Session) : SessionStore → Prop
  | memory (book : SessionBook) (follows : book.Follows l) : Follows suite times l (.memory book)
  | table (key : Key) (rows : SessionTable) (follows : rows.Follows (Holds suite key) times l) :
      Follows suite times l (.table (.unlocked key) rows)

variable {suite : Suite} {times : List Instant} {l : Ledger Session} {store : SessionStore}

/-- A row that holds a session gives it. -/
theorem Holds.read (opens : suite.Opens) {key : Key} {row : SessionRow} {s : Session}
    (holds : Holds suite key row.value s) :
    opened suite (.unlocked key) (some row) = .ok (some s) := by
  obtain ⟨kept, nonce, stored⟩ := holds
  rw [opened, SessionTable.read_sealed opens kept stored]
  rfl

/-- One call is answered from the ledger, and the store follows it on. -/
theorem Follows.answer (opens : suite.Opens) (sound : l.Sound) (c : SessionCall)
    (kept : ∀ s nonce now, c = .put s nonce now → s.Keeps)
    (rising : (c.times ++ times).Pairwise Instant.Before)
    (follows : store.Follows suite (c.times ++ times) l) :
    l.Answers ⟨c, (store.answer suite c).1⟩ ∧
      (store.answer suite c).2.Follows suite times (l.after c) := by
  cases follows with
  | memory book follows =>
      cases c with
      | put s nonce now => exact ⟨rfl, .memory _ (follows.put sound s)⟩
      | find key => exact ⟨congrArg Except.ok (follows.find key), .memory _ follows⟩
      | best mine peer => exact ⟨⟨_, rfl, follows.best mine peer⟩, .memory _ follows⟩
      | erase key =>
          refine ⟨?_, .memory _ (follows.remove (· == key))⟩
          exact congrArg (fun found => Except.ok found.isSome) (follows.find key)
      | erasePair mine peer =>
          exact ⟨⟨_, rfl, follows.lists.count mine peer⟩, .memory _ (follows.remove _)⟩
  | table key rows follows =>
      cases c with
      | put s nonce now =>
          have later := (List.pairwise_cons.mp rising).1
          have holds : Holds suite key (SessionTable.sealed suite key nonce s) s :=
            ⟨kept s nonce now rfl, nonce, rfl⟩
          refine ⟨rfl, .table key _ (follows.put sound ⟨s.fileKey, _, _, _, now⟩
            List.mem_cons_self holds fun time coming => ?_)⟩
          exact ⟨List.mem_cons_of_mem _ coming, later time coming⟩
      | find k =>
          refine ⟨?_, .table key _ follows⟩
          obtain ⟨row, s, found, -, filed, holds⟩ | ⟨found, filed⟩ := follows.lists.found k
          · have held := holds.read opens
            rw [← found] at held
            exact held.trans (congrArg Except.ok filed.symm)
          · have none : opened suite (.unlocked key) (rows.find? k) = .ok none :=
              congrArg (opened suite (.unlocked key)) found
            exact none.trans (congrArg Except.ok filed.symm)
      | best mine peer =>
          refine ⟨?_, .table key _ follows⟩
          obtain ⟨row, s, best, holds, isBest⟩ | ⟨best, isBest⟩ := follows.best mine peer
          · have held := holds.read opens
            rw [← best] at held
            exact ⟨some s, held, isBest⟩
          · exact ⟨none, congrArg (opened suite (.unlocked key)) best, isBest⟩
      | erase k =>
          refine ⟨?_, .table key _ (follows.remove (· == k))⟩
          exact congrArg Except.ok (follows.lists.isSome_find? k)
      | erasePair mine peer =>
          exact ⟨⟨_, rfl, follows.lists.count mine peer⟩, .table key _ (follows.remove _)⟩

theorem Follows.answers (opens : suite.Opens) {calls : List SessionCall} (sound : l.Sound)
    (kept : ∀ s nonce now, .put s nonce now ∈ calls → s.Keeps)
    (rising : (calls.flatMap SessionCall.times).Pairwise Instant.Before)
    (follows : store.Follows suite (calls.flatMap SessionCall.times) l) :
    l.Explains (store.answers suite calls) := by
  induction calls generalizing l store with
  | nil => trivial
  | cons c rest ih =>
      rw [List.flatMap_cons] at rising follows
      have first : ∀ s nonce now, c = .put s nonce now → s.Keeps := fun s nonce now here =>
        kept s nonce now (here ▸ List.mem_cons_self)
      obtain ⟨answered, next⟩ := follows.answer opens sound c first rising
      refine ⟨answered, ih (sound.after c) (fun s nonce now mem => ?_) ?_ next⟩
      · exact kept s nonce now (List.mem_cons_of_mem c mem)
      · exact (List.pairwise_append.mp rising).2.1

/-- A store in memory and one in a table under an unlocked vault give the same answers to the same
calls, and these are the answers of a map from keys to sessions in which the best session of a
pair is the one that was written last. -/
theorem stores_agree (opens : suite.Opens) (key : Key) {calls : List SessionCall}
    (kept : ∀ s nonce now, .put s nonce now ∈ calls → s.Keeps)
    (rising : (calls.flatMap SessionCall.times).Pairwise Instant.Before) :
    (SessionStore.table (.unlocked key) .empty).answers suite calls =
        (SessionStore.memory .empty).answers suite calls ∧
      Ledger.empty.Explains ((SessionStore.memory .empty).answers suite calls) := by
  have inMemory := Follows.answers opens .empty kept rising (.memory .empty .empty)
  have inTable := Follows.answers opens .empty kept rising (.table key .empty .empty)
  refine ⟨Ledger.Sound.empty.answers_unique ?_ inTable inMemory, inMemory⟩
  rw [calls_answers, calls_answers]

def newerSession : Session := { plainSession with id := Block.ofNat 16 1 }

/-- A session is written again while a newer one of its pair is there, and then removed. -/
def rewriting : List SessionCall :=
  let best : SessionCall := .best plainSession.mine plainSession.peer
  [.put plainSession (Block.zero 24) (.ofSeconds 0), .put newerSession (Block.zero 24) (.ofSeconds 1),
    best, .put plainSession (Block.zero 24) (.ofSeconds 2), best, .erase plainSession.fileKey, best]

theorem stores_agree_rewriting : ∃ answers,
    (SessionStore.memory .empty).answers .standard rewriting = answers ∧
      (SessionStore.table (.unlocked (Block.zero 32)) .empty).answers .standard rewriting = answers ∧
      (Ledger.empty : Ledger Session).Explains answers ∧
      answers.filterMap SessionAnswer.best? = [newerSession, plainSession, newerSession] := by
  have created : plainSession.created.InCalendar := ⟨by decide, .inl (by decide)⟩
  have kept : ∀ s nonce now, .put s nonce now ∈ rewriting → s.Keeps := by
    intro s nonce now mem
    apply Session.Keeps.of_inCalendar
    simp only [rewriting, List.mem_cons, List.not_mem_nil, SessionCall.put.injEq, reduceCtorEq,
      false_or, or_false] at mem
    rcases mem with ⟨rfl, -⟩ | ⟨rfl, -⟩ | ⟨rfl, -⟩ <;> exact created
  have rising : (rewriting.flatMap SessionCall.times).Pairwise Instant.Before := by
    simp only [rewriting, List.flatMap_cons, List.flatMap_nil, SessionCall.times]
    decide
  obtain ⟨same, explained⟩ := stores_agree Suite.standard_opens (Block.zero 32) kept rising
  exact ⟨_, rfl, same, explained, rfl⟩

end SessionStore

end SecureInbox
