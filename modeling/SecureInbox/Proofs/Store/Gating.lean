import SecureInbox.Proofs.Store.Agreement

/-! # The vault in front of stored sessions

`VaultCall` is what is done to a table of sessions and to the vault that seals them.  A `Safe` is
what the vault holds at the moment, and a ledger of the sessions with the keys that they were
sealed under.  What the table answers follows from the safe (`Safe.Answers`): a session is read
back under its own key only, while removals need no key at all.

`Safe.Guards` is the invariant behind it, kept by every step (`Guards.step`).  The keys of a run
are supposed to be told apart by what they seal (`Suite.Separates`). -/
set_option autoImplicit false

namespace SecureInbox

/-- Whether a value that is sealed under one of some keys is opened by no other of them. -/
def Suite.Separates (suite : Suite) (keys : List Key) (nonce : Nonce) (value aad : Bytes) : Prop :=
  ∀ key ∈ keys, ∀ other ∈ keys, key ≠ other →
    suite.decrypt? other nonce (suite.encrypt key nonce value aad) aad = none

inductive VaultCall where
  | lock
  | unlock (key : Key)
  /-- The file is opened again, with another vault. -/
  | reopen (vault : Vault)
  | ask (call : SessionCall)

namespace VaultCall

def keys : VaultCall → List Key
  | .unlock key => [key]
  | .reopen vault => vault.key.toList
  | _ => []

def isQuiet (vault : Vault) : VaultCall → Bool
  | .ask (.put _ _ _) => vault.isLocked
  | .ask (.erase _) => false
  | .ask (.erasePair _ _) => false
  | _ => true

end VaultCall

namespace SessionStore

def step (suite : Suite) (store : SessionStore) : VaultCall → SessionStore
  | .lock => store.withVault .locked
  | .unlock key => store.withVault (.unlocked key)
  | .reopen vault => store.withVault vault
  | .ask call => (store.answer suite call).2

def steps (suite : Suite) (store : SessionStore) (calls : List VaultCall) : SessionStore :=
  calls.foldl (step suite) store

/-- A quiet call changes the vault at most. -/
theorem step_quiet (suite : Suite) (vault : Vault) (rows : SessionTable) {c : VaultCall}
    (quiet : c.isQuiet vault = true) :
    ∃ v, (SessionStore.table vault rows).step suite c = .table v rows := by
  cases c with
  | lock => exact ⟨_, rfl⟩
  | unlock key => exact ⟨_, rfl⟩
  | reopen v => exact ⟨v, rfl⟩
  | ask call =>
      refine ⟨vault, ?_⟩
      cases call with
      | put s nonce now =>
          obtain ⟨_ | key⟩ := vault
          · rfl
          · cases quiet
      | find key => rfl
      | best mine peer => rfl
      | erase key => cases quiet
      | erasePair mine peer => cases quiet

end SessionStore

def Vault.shows (vault : Vault) : Option (Key × Session) → Except StoreError (Option Session)
  | none => .ok none
  | some (key, s) =>
    match vault.key with
    | none => .error .vaultLocked
    | some current => if current = key then .ok (some s) else .error (.crypto .notAuthentic)

theorem Vault.shows_self (key : Key) (s : Session) : (unlocked key).shows (some (key, s)) = .ok (some s) :=
  if_pos rfl

theorem Vault.shows_of_ne {current key : Key} (ne : current ≠ key) (s : Session) :
    (unlocked current).shows (some (key, s)) = .error (.crypto .notAuthentic) := if_neg ne

/-- A vault, and sessions with the keys that they are sealed under. -/
structure Safe where
  vault : Vault
  ledger : Ledger (Key × Session)

namespace Safe

def after (safe : Safe) : VaultCall → Safe
  | .lock => { safe with vault := .locked }
  | .unlock key => { safe with vault := .unlocked key }
  | .reopen vault => { safe with vault }
  | .ask (.put s _ _) =>
    match safe.vault.key with
    | none => safe
    | some key => { safe with ledger := safe.ledger.put s.fileKey (key, s) }
  | .ask (.erase key) => { safe with ledger := safe.ledger.remove (· == key) }
  | .ask (.erasePair mine peer) =>
    { safe with ledger := safe.ledger.remove (SessionKey.isOfPair mine peer) }
  | .ask _ => safe

def afterAll (safe : Safe) (calls : List VaultCall) : Safe := calls.foldl after safe

/-- The time that is read for a call; a locked vault refuses a writing before that. -/
def time (safe : Safe) : VaultCall → List Instant
  | .ask (.put _ _ now) => if safe.vault.isLocked then [] else [now]
  | _ => []

def times (safe : Safe) : List VaultCall → List Instant
  | [] => []
  | c :: rest => safe.time c ++ (safe.after c).times rest

/-- Whether an answer is the one that the vault leaves of the ledger. -/
def Answers (safe : Safe) : SessionAnswer → Prop
  | ⟨.put _ _ _, answer⟩ => answer = if safe.vault.isLocked then .error .vaultLocked else .ok ()
  | ⟨.find key, answer⟩ => answer = safe.vault.shows (safe.ledger.find? key)
  | ⟨.best mine peer, answer⟩ =>
    ∃ entry, safe.ledger.IsBest mine peer entry ∧ answer = safe.vault.shows entry
  | ⟨.erase key, answer⟩ => answer = .ok (safe.ledger.find? key).isSome
  | ⟨.erasePair mine peer, answer⟩ =>
    ∃ count, answer = .ok count ∧ safe.ledger.HasCount mine peer count

/-! ## The invariant -/

section

variable (suite : Suite) (keys : List Key)

/-- Whether a session can be told from its text under one key, and under no other of some. -/
structure Seals (text : String) (entry : Key × Session) : Prop where
  used : entry.1 ∈ keys
  kept : entry.2.Keeps
  stored : ∃ nonce, text = SessionTable.sealed suite entry.1 nonce entry.2 ∧
    suite.Separates keys nonce (Text.utf8 entry.2.toJson.compact) Vault.label

/-- Whether the rows of a table are those of a safe, and its vault has one of some keys. -/
structure Guards (times : List Instant) (safe : Safe) (rows : SessionTable) : Prop where
  sound : safe.ledger.Sound
  follows : rows.Follows (Seals suite keys) times safe.ledger
  used : ∀ key, safe.vault.key = some key → key ∈ keys

end

variable {suite : Suite} {keys : List Key} {times : List Instant} {safe : Safe} {rows : SessionTable}

/-- A row is opened as the vault shows its entry. -/
theorem Seals.opened (opens : suite.Opens) {vault : Vault}
    (used : ∀ key, vault.key = some key → key ∈ keys) {row : SessionRow} {entry : Key × Session}
    (held : Seals suite keys row.value entry) :
    SessionStore.opened suite vault (some row) = vault.shows (some entry) := by
  obtain ⟨key, s⟩ := entry
  obtain ⟨nonce, stored, separates⟩ := held.stored
  obtain ⟨_ | current⟩ := vault
  · exact congrArg (Except.map some) (SessionTable.read_locked stored)
  · by_cases same : current = key
    · subst same
      refine (congrArg (Except.map some) (SessionTable.read_sealed opens held.kept stored)).trans ?_
      exact (Vault.shows_self current s).symm
    · have closed := separates key held.used current (used current rfl) (Ne.symm same)
      refine (congrArg (Except.map some) (SessionTable.read_other stored closed)).trans ?_
      exact (Vault.shows_of_ne same s).symm

namespace Guards

theorem find (opens : suite.Opens) (guards : Guards suite keys times safe rows) (key : SessionKey) :
    SessionStore.opened suite safe.vault (rows.find? key) =
      safe.vault.shows (safe.ledger.find? key) := by
  obtain ⟨row, entry, found, -, filed, held⟩ | ⟨found, filed⟩ := guards.follows.lists.found key
  · rw [SessionTable.find?, found, filed]
    exact held.opened opens guards.used
  · rw [SessionTable.find?, found, filed]
    rfl

theorem best (opens : suite.Opens) (guards : Guards suite keys times safe rows) (mine peer : String) :
    ∃ entry, safe.ledger.IsBest mine peer entry ∧
      SessionStore.opened suite safe.vault (rows.best mine peer) = safe.vault.shows entry := by
  obtain ⟨row, entry, best, held, isBest⟩ | ⟨best, isBest⟩ := guards.follows.best mine peer
  · refine ⟨some entry, isBest, ?_⟩
    rw [best]
    exact held.opened opens guards.used
  · refine ⟨none, isBest, ?_⟩
    rw [best]
    rfl

theorem answers (opens : suite.Opens) (guards : Guards suite keys times safe rows) (c : SessionCall) :
    safe.Answers ⟨c, ((SessionStore.table safe.vault rows).answer suite c).1⟩ := by
  cases c with
  | put s nonce now =>
      obtain ⟨⟨_ | key⟩, ledger⟩ := safe
      · rfl
      · rfl
  | find key => exact guards.find opens key
  | best mine peer => exact guards.best opens mine peer
  | erase key => exact congrArg Except.ok (guards.follows.lists.isSome_find? key)
  | erasePair mine peer => exact ⟨_, rfl, guards.follows.lists.count mine peer⟩

/-- Under another vault the rows are the same. -/
theorem withVault (guards : Guards suite keys times safe rows) {vault : Vault}
    (used : ∀ key, vault.key = some key → key ∈ keys) :
    Guards suite keys times { safe with vault } rows := ⟨guards.sound, guards.follows, used⟩

theorem step {c : VaultCall} (used : ∀ key ∈ c.keys, key ∈ keys)
    (kept : ∀ s nonce now, c = .ask (.put s nonce now) →
      s.Keeps ∧ suite.Separates keys nonce (Text.utf8 s.toJson.compact) Vault.label)
    (rising : (safe.time c ++ times).Pairwise Instant.Before)
    (guards : Guards suite keys (safe.time c ++ times) safe rows) :
    ∃ next, (SessionStore.table safe.vault rows).step suite c = .table (safe.after c).vault next ∧
      Guards suite keys times (safe.after c) next := by
  cases c with
  | lock => exact ⟨rows, rfl, guards.withVault nofun⟩
  | unlock key =>
      refine ⟨rows, rfl, guards.withVault fun other here => used other ?_⟩
      exact List.mem_singleton.mpr (Option.some.inj here).symm
  | reopen vault =>
      refine ⟨rows, rfl, guards.withVault fun key here => used key ?_⟩
      exact Option.mem_toList.mpr here
  | ask call =>
      cases call with
      | put s nonce now =>
          obtain ⟨⟨_ | key⟩, ledger⟩ := safe
          · exact ⟨rows, rfl, guards⟩
          · obtain ⟨later, -⟩ := List.pairwise_cons.mp rising
            obtain ⟨keeps, separates⟩ := kept s nonce now rfl
            have held : Seals suite keys (SessionTable.sealed suite key nonce s) (key, s) :=
              ⟨guards.used key rfl, keeps, nonce, rfl, separates⟩
            refine ⟨_, rfl, guards.sound.put s.fileKey (key, s), ?_, guards.used⟩
            refine guards.follows.put guards.sound ⟨s.fileKey, _, _, _, now⟩
              List.mem_cons_self held fun time coming => ?_
            exact ⟨List.mem_cons_of_mem _ coming, later time coming⟩
      | find key => exact ⟨rows, rfl, guards⟩
      | best mine peer => exact ⟨rows, rfl, guards⟩
      | erase key =>
          exact ⟨_, rfl, guards.sound.remove _, guards.follows.remove (· == key), guards.used⟩
      | erasePair mine peer =>
          exact ⟨_, rfl, guards.sound.remove _, guards.follows.remove _, guards.used⟩

theorem steps {calls : List VaultCall} (used : ∀ key ∈ calls.flatMap VaultCall.keys, key ∈ keys)
    (kept : ∀ s nonce now, .ask (.put s nonce now) ∈ calls →
      s.Keeps ∧ suite.Separates keys nonce (Text.utf8 s.toJson.compact) Vault.label)
    (rising : (safe.times calls).Pairwise Instant.Before)
    (guards : Guards suite keys (safe.times calls) safe rows) :
    ∃ final, (SessionStore.table safe.vault rows).steps suite calls =
        .table (safe.afterAll calls).vault final ∧
      Guards suite keys [] (safe.afterAll calls) final := by
  induction calls generalizing safe rows with
  | nil => exact ⟨rows, rfl, guards⟩
  | cons c rest ih =>
      rw [List.flatMap_cons] at used
      obtain ⟨next, stepped, guards⟩ := guards.step
        (fun key mem => used key (List.mem_append_left _ mem))
        (fun s nonce now here => kept s nonce now (here ▸ List.mem_cons_self)) rising
      rw [SessionStore.steps, List.foldl_cons, stepped]
      exact ih (fun key mem => used key (List.mem_append_right _ mem))
        (fun s nonce now mem => kept s nonce now (List.mem_cons_of_mem c mem))
        (List.pairwise_append.mp rising).2.1 guards

end Guards

/-! ## What it comes to -/

structure Gates (suite : Suite) (safe : Safe) (store : SessionStore) : Prop where
  answered : ∀ c, safe.Answers ⟨c, (store.answer suite c).1⟩
  unchanged : ∀ c, c.isQuiet safe.vault = true →
    ∃ rows vault, store = .table safe.vault rows ∧ store.step suite c = .table vault rows
  /-- What was sealed under a key is read again, when the vault is locked and gets the key. -/
  recovered : ∀ key n sealing s, safe.ledger.entry key = some (n, (sealing, s)) →
    ((store.step suite .lock).step suite (.unlock sealing)).find suite key = .ok (some s)

theorem Gates.find {store : SessionStore} (gates : safe.Gates suite store) (key : SessionKey) :
    store.find suite key = safe.vault.shows (safe.ledger.find? key) := gates.answered (.find key)

theorem Guards.gates (opens : suite.Opens) (guards : Guards suite keys times safe rows) :
    safe.Gates suite (.table safe.vault rows) where
  answered := guards.answers opens
  unchanged c quiet := by
    obtain ⟨vault, same⟩ := SessionStore.step_quiet suite safe.vault rows quiet
    exact ⟨rows, vault, rfl, same⟩
  recovered key n sealing s entered := by
    have filed : safe.ledger.find? key = some (sealing, s) := by
      rw [Ledger.find?, entered, Option.map_some]
    have used : sealing ∈ keys := by
      obtain ⟨row, entry, -, -, filed', held⟩ | ⟨-, gone⟩ := guards.follows.lists.found key
      · rw [filed] at filed'
        cases filed'
        exact held.used
      · rw [filed] at gone
        cases gone
    have unlocked : Guards suite keys times { safe with vault := .unlocked sealing } rows :=
      guards.withVault fun other here => Option.some.inj here ▸ used
    have found := unlocked.find opens key
    rw [filed] at found
    exact found.trans (Vault.shows_self sealing s)

end Safe

/-- Whatever was done before, stored sessions are read back under the keys that they were sealed
under and under no others, writing needs a key, removing does not, and only writing and removing
change a row. -/
theorem SessionStore.vault_gates {suite : Suite} (opens : suite.Opens) (vault : Vault)
    {calls : List VaultCall}
    (kept : ∀ s nonce now, .ask (.put s nonce now) ∈ calls → s.Keeps)
    (separates : ∀ s nonce now, .ask (.put s nonce now) ∈ calls →
      suite.Separates (vault.key.toList ++ calls.flatMap VaultCall.keys) nonce
        (Text.utf8 s.toJson.compact) Vault.label)
    (rising : ((⟨vault, .empty⟩ : Safe).times calls).Pairwise Instant.Before) :
    ((⟨vault, .empty⟩ : Safe).afterAll calls).Gates suite
      ((SessionStore.table vault .empty).steps suite calls) := by
  have start : Safe.Guards suite (vault.key.toList ++ calls.flatMap VaultCall.keys)
      ((⟨vault, .empty⟩ : Safe).times calls) ⟨vault, .empty⟩ .empty :=
    ⟨.empty, .empty, fun key here => List.mem_append_left _ (Option.mem_toList.mpr here)⟩
  obtain ⟨final, run, guards⟩ := start.steps (fun key mem => List.mem_append_right _ mem)
    (fun s nonce now mem => ⟨kept s nonce now mem, separates s nonce now mem⟩) rising
  rw [run]
  exact guards.gates opens

/-- A suite that hides nothing but binds each value to its key. -/
def Suite.keyed : Suite where
  publicKey := plain.publicKey
  agree? := plain.agree?
  derive := plain.derive
  mac := plain.mac
  encrypt key _ plaintext _ := key.bytes ++ plaintext
  decrypt? key _ ciphertext _ :=
    if ciphertext.take 32 = key.bytes then some (ciphertext.drop 32) else none

theorem Suite.keyed_opens : Suite.keyed.Opens := by
  intro key nonce plaintext aad
  have front : (key.bytes ++ plaintext).take 32 = key.bytes := List.take_left' key.length_eq
  have rest : (key.bytes ++ plaintext).drop 32 = plaintext := List.drop_left' key.length_eq
  simp only [keyed, front, rest, if_true]

theorem Suite.keyed_separates (keys : List Key) (nonce : Nonce) (value aad : Bytes) :
    Suite.keyed.Separates keys nonce value aad := by
  intro key _ other _ ne
  have front : (key.bytes ++ value).take 32 = key.bytes := List.take_left' key.length_eq
  have unlike : key.bytes ≠ other.bytes := fun same => ne ((Block.mk.injEq _ _ _ _).mpr same)
  simp only [keyed, front, if_neg unlike]

namespace SessionStore

/-- A session is stored under one key and a newer one under another, after the vault was locked and
has refused it; then the file is opened again under the first key. -/
def underTwoKeys : List VaultCall := [
  .ask (.put plainSession (Block.zero 24) (.ofSeconds 0)), .lock,
  .ask (.put newerSession (Block.zero 24) (.ofSeconds 0)), .unlock (Block.ofNat 32 2),
  .ask (.put newerSession (Block.zero 24) (.ofSeconds 1)), .reopen (.unlocked (Block.ofNat 32 1))]

theorem vault_gates_underTwoKeys : ∃ safe store,
    safe = (⟨.unlocked (Block.ofNat 32 1), .empty⟩ : Safe).afterAll underTwoKeys ∧
      store = (SessionStore.table (.unlocked (Block.ofNat 32 1)) .empty).steps .keyed underTwoKeys ∧
      safe.Gates .keyed store ∧
      store.find .keyed plainSession.fileKey = .ok (some plainSession) ∧
      store.find .keyed newerSession.fileKey = .error (.crypto .notAuthentic) := by
  have created : plainSession.created.InCalendar := ⟨by decide, .inl (by decide)⟩
  have kept : ∀ s nonce now, .ask (.put s nonce now) ∈ underTwoKeys → s.Keeps := by
    intro s nonce now mem
    apply Session.Keeps.of_inCalendar
    simp only [underTwoKeys, List.mem_cons, List.not_mem_nil, VaultCall.ask.injEq,
      SessionCall.put.injEq, reduceCtorEq, false_or, or_false] at mem
    rcases mem with ⟨rfl, -⟩ | ⟨rfl, -⟩ | ⟨rfl, -⟩ <;> exact created
  have gates := vault_gates Suite.keyed_opens (.unlocked (Block.ofNat 32 1)) kept
    (fun s nonce now _ => Suite.keyed_separates _ nonce _ _) (by decide)
  have ne : plainSession.fileKey ≠ newerSession.fileKey := by decide
  have older : ((⟨.unlocked (Block.ofNat 32 1), .empty⟩ : Safe).afterAll underTwoKeys).ledger.find?
      plainSession.fileKey = some (Block.ofNat 32 1, plainSession) := by
    simp [underTwoKeys, Safe.afterAll, Safe.after, Vault.unlocked, Vault.locked, Ledger.find?_put, ne]
  have newer : ((⟨.unlocked (Block.ofNat 32 1), .empty⟩ : Safe).afterAll underTwoKeys).ledger.find?
      newerSession.fileKey = some (Block.ofNat 32 2, newerSession) := by
    simp [underTwoKeys, Safe.afterAll, Safe.after, Vault.unlocked, Vault.locked, Ledger.find?_put]
  refine ⟨_, _, rfl, rfl, gates, ?_, ?_⟩
  · rw [gates.find, older]
    exact Vault.shows_self _ _
  · rw [gates.find, newer]
    exact Vault.shows_of_ne (by decide) _

end SessionStore

end SecureInbox
