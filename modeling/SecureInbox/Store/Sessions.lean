import SecureInbox.Session.Json
import SecureInbox.Store.Vault

/-! # Session stores

A session is filed under its two identities and its identifier.  Storing a
session makes it the best one of its pair, and the best one is what outgoing
messages use.

`SessionBook` keeps sessions as they are, the last written first.  `SessionTable`
keeps rows whose sessions are encrypted by a vault; a row keeps its place when it
is written again, and the best row is the one with the latest time of writing.
`SessionStore` is either of the two. -/
set_option autoImplicit false

namespace SecureInbox

/-- What a session is filed under. -/
structure SessionKey where
  mine : String
  peer : String
  id : SessionId
deriving DecidableEq

def Session.fileKey (s : Session) : SessionKey := ⟨s.mine, s.peer, s.id⟩

/-- Whether a session is one of ours with the given peer. -/
def SessionKey.isOfPair (mine peer : String) (k : SessionKey) : Bool := k.mine == mine && k.peer == peer

/-! ## Sessions in memory -/

/-- Sessions, the last written first. -/
structure SessionBook where
  sessions : List Session

namespace SessionBook

def empty : SessionBook := ⟨[]⟩

def best (b : SessionBook) (mine peer : String) : Option Session :=
  b.sessions.find? fun s => s.fileKey.isOfPair mine peer

def find? (b : SessionBook) (key : SessionKey) : Option Session :=
  b.sessions.find? fun s => s.fileKey == key

def erase (b : SessionBook) (key : SessionKey) : SessionBook :=
  ⟨b.sessions.filter fun s => s.fileKey != key⟩

def put (b : SessionBook) (s : Session) : SessionBook := ⟨s :: (b.erase s.fileKey).sessions⟩

def erasePair (b : SessionBook) (mine peer : String) : SessionBook :=
  ⟨b.sessions.filter fun s => !s.fileKey.isOfPair mine peer⟩

end SessionBook

/-! ## Sessions in a table -/

structure SessionRow where
  key : SessionKey
  /-- The state in clear, for whoever looks at the table. -/
  state : String
  /-- The encrypted session. -/
  value : String
  created : Instant
  updated : Instant

/-- Rows in the order in which they were first written. -/
structure SessionTable where
  rows : List SessionRow

namespace SessionTable

def empty : SessionTable := ⟨[]⟩

/-- The later of two rows; the second one on a tie. -/
def later (best : Option SessionRow) (row : SessionRow) : Option SessionRow :=
  match best with
  | none => some row
  | some b => if b.updated.le row.updated then some row else some b

def best (t : SessionTable) (mine peer : String) : Option SessionRow :=
  (t.rows.filter fun r => r.key.isOfPair mine peer).foldl later none

def find? (t : SessionTable) (key : SessionKey) : Option SessionRow :=
  t.rows.find? fun r => r.key == key

def erase (t : SessionTable) (key : SessionKey) : SessionTable :=
  ⟨t.rows.filter fun r => r.key != key⟩

def erasePair (t : SessionTable) (mine peer : String) : SessionTable :=
  ⟨t.rows.filter fun r => !r.key.isOfPair mine peer⟩

/-- Writes a row over the one with its key, which keeps its time of creation, or
after all others. -/
def put (t : SessionTable) (row : SessionRow) : SessionTable :=
  match t.find? row.key with
  | none => ⟨t.rows ++ [row]⟩
  | some _ =>
    ⟨t.rows.map fun r =>
      if r.key == row.key then { r with state := row.state, value := row.value, updated := row.updated }
      else r⟩

/-- The session in a row. -/
def read (suite : Suite) (vault : Vault) (row : SessionRow) : Except StoreError Session := do
  let bytes ← vault.decrypt suite row.value
  match Session.ofJsonBytes? bytes with
  | some s => return s
  | none => throw .malformedRecord

/-- The row for a session. -/
def rowOf (suite : Suite) (vault : Vault) (nonce : Nonce) (now : Instant) (s : Session) :
    Except StoreError SessionRow := do
  let value ← vault.encrypt suite nonce (Text.utf8 s.toJson.compact)
  return ⟨s.fileKey, s.state.text, value, s.created, now⟩

end SessionTable

/-! ## Either of them -/

inductive SessionStore where
  | memory (book : SessionBook)
  | table (vault : Vault) (rows : SessionTable)

namespace SessionStore

/-- The row or session that is there, opened. -/
def opened (suite : Suite) (vault : Vault) : Option SessionRow → Except StoreError (Option Session)
  | none => .ok none
  | some row => (SessionTable.read suite vault row).map some

/-- The session of a pair that was written last. -/
def best (suite : Suite) (mine peer : String) : SessionStore → Except StoreError (Option Session)
  | .memory book => .ok (book.best mine peer)
  | .table vault rows => opened suite vault (rows.best mine peer)

def find (suite : Suite) (key : SessionKey) : SessionStore → Except StoreError (Option Session)
  | .memory book => .ok (book.find? key)
  | .table vault rows => opened suite vault (rows.find? key)

/-- Files a session, over one with its key. -/
def put (suite : Suite) (nonce : Nonce) (now : Instant) (s : Session) :
    SessionStore → Except StoreError SessionStore
  | .memory book => .ok (.memory (book.put s))
  | .table vault rows => do
      let row ← SessionTable.rowOf suite vault nonce now s
      return .table vault (rows.put row)

/-- Removes a session; also says whether there was one. -/
def erase (key : SessionKey) : SessionStore → Bool × SessionStore
  | .memory book => ((book.find? key).isSome, .memory (book.erase key))
  | .table vault rows => ((rows.find? key).isSome, .table vault (rows.erase key))

/-- Removes all sessions of a pair; also says how many there were. -/
def erasePair (mine peer : String) : SessionStore → Nat × SessionStore
  | .memory book =>
      (book.sessions.countP fun s => s.fileKey.isOfPair mine peer, .memory (book.erasePair mine peer))
  | .table vault rows =>
      (rows.rows.countP fun r => r.key.isOfPair mine peer, .table vault (rows.erasePair mine peer))

/-- The same sessions behind another vault. -/
def withVault (vault : Vault) : SessionStore → SessionStore
  | .memory book => .memory book
  | .table _ rows => .table vault rows

end SessionStore

end SecureInbox
