import SecureInbox.Rejection.Log
import SecureInbox.Store.Machine

/-! # The rejection log at a path

A log is opened at a path, and the folders that the path goes through are made.  A
path that can only be that of a folder, or whose name is too long, is no place for a
file: a log there has no records, and appending to it fails. -/
set_option autoImplicit false

namespace SecureInbox

structure LogFile where
  log : RejectionLog
  isReachable : Bool

namespace LogFile

/-- The log of a path that is no place for a file, with the name that it has without
what stands behind the name. -/
def unreachable (home : Place) (path : Path) (maxBytes : Nat) (d : Directory) : LogFile :=
  let folder :=
    match path.around with
    | [] => if path.isAbsolute then [] else home
    | around :: _ => ((d.reach home around.text).toOption).getD home
  let name := Place.name (path.steps.getLast?.toList ++ folder)
  ⟨{ RejectionLog.empty name maxBytes with directory := d }, false⟩

/-- Opens the log at a path from a working folder. -/
def opened (home : Place) (path : String) (maxBytes : Nat) (d : Directory) :
    Except StoreError LogFile :=
  match d.makeFolders home (Path.ofText path).around with
  | .error _ => .error .unreadableFile
  | .ok d =>
    match d.reach home path with
    | .error _ => .ok (unreachable home (Path.ofText path) maxBytes d)
    | .ok place =>
      if d.isFolder place then .error .unreadableFile
      else (RejectionLog.opened d place.name maxBytes).map fun log => ⟨log, true⟩

/-- Whether the file is full and cannot be moved aside: the new name is too long, or
there is a folder where the oldest file would be removed. -/
def isStuck (file : LogFile) : Bool :=
  let aside := RejectionLog.rotatedName file.log.name
  file.log.isFull &&
    (Path.nameLimit < (Directory.fileOf (aside 1)).utf8ByteSize ||
      file.log.directory.folders.contains (aside RejectionLog.keptFiles))

/-- Appends the record of a rejection. -/
def append (file : LogFile) (time : Instant) (rejection : Rejection) :
    Except StoreError (Record × LogFile) :=
  if !file.isReachable || file.isStuck then .error .unreadableFile
  else
    let (record, log) := file.log.append time rejection
    let kept := if log.name = Machine.nullDevice then file.log.directory else log.directory
    .ok (record, { file with log := { log with directory := kept } })

def recent (file : LogFile) (limit : Option Nat) : Except StoreError (List Record) :=
  if file.isReachable then file.log.recent limit else .ok []

def verify (file : LogFile) : Except StoreError Nat :=
  if file.isReachable then file.log.verify else .ok 0

end LogFile

end SecureInbox
