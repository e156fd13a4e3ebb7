import SecureInbox.Rejection.Record
import SecureInbox.Store.Directory

/-! # The rejection log

The log appends records to a file.  When the file has reached its limit it is
moved aside: `name` becomes `name.1`, `name.1` becomes `name.2` and so on, and
what was `name.5` is gone.  The chain of hashes starts anew in each file, while
the numbering goes on. -/
set_option autoImplicit false

namespace SecureInbox

/-- A log that is open: the files around it, its name and limit, and the number and
hash that the next record follows. -/
structure RejectionLog where
  directory : Directory
  name : String
  maxBytes : Nat
  lastSequence : UInt64
  lastHash : String

namespace RejectionLog

/-- How many files are kept besides the current one. -/
def keptFiles : Nat := 5

/-- The name of a file that was moved aside. -/
def rotatedName (name : String) (index : Nat) : String := name ++ "." ++ toString index

/-- The records of a file of the directory; a file that is not there has none. -/
def recordsOf (directory : Directory) (name : String) : Except StoreError (List Record) :=
  match directory.read? name with
  | none => .ok []
  | some content => Record.ofFile content

/-- A log without any files. -/
def empty (name : String) (maxBytes : Nat) : RejectionLog :=
  ⟨.empty, name, maxBytes, 0, Record.chainStart⟩

/-- Opens a log where its file leaves off. -/
def opened (directory : Directory) (name : String) (maxBytes : Nat) :
    Except StoreError RejectionLog := do
  let records ← recordsOf directory name
  match records.getLast? with
  | some r => return ⟨directory, name, maxBytes, r.sequence, r.hash⟩
  | none => return ⟨directory, name, maxBytes, 0, Record.chainStart⟩

/-- Moves the kept files up by one, from the given index down. -/
def shift (name : String) : Nat → Directory → Directory
  | 0, d => d
  | index + 1, d =>
    let d :=
      if index + 1 = keptFiles then d.erase (rotatedName name (index + 1))
      else d.rename (rotatedName name (index + 1)) (rotatedName name (index + 2))
    shift name index d

/-- Whether there is a file that has reached its limit. -/
def isFull (log : RejectionLog) : Bool :=
  match log.directory.read? log.name with
  | none => false
  | some content => log.maxBytes ≤ content.length

/-- Moves the file aside once it has reached its limit. -/
def rotate (log : RejectionLog) : RejectionLog :=
  if log.isFull then
    let d := shift log.name keptFiles log.directory
    { log with
      directory := d.rename log.name (rotatedName log.name 1), lastHash := Record.chainStart }
  else log

/-- Appends the record of a rejection. -/
def append (log : RejectionLog) (time : Instant) (rejection : Rejection) : Record × RejectionLog :=
  let log := log.rotate
  let record := Record.make (log.lastSequence + 1) time rejection log.lastHash
  (record, { log with
    directory := log.directory.append log.name record.line
    lastSequence := record.sequence
    lastHash := record.hash })

/-- The records of the current file, the latest first, up to a limit. -/
def recent (log : RejectionLog) (limit : Option Nat) : Except StoreError (List Record) := do
  let records := (← recordsOf log.directory log.name).reverse
  match limit with
  | some n => return records.take n
  | none => return records

/-- Checks the chain of the current file and counts its records. -/
def verify (log : RejectionLog) : Except StoreError Nat := do
  Record.verifyFrom Record.chainStart (← recordsOf log.directory log.name)

end RejectionLog

end SecureInbox
