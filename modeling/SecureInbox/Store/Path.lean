import SecureInbox.Store.Directory
import SecureInbox.Text.Blank

/-! # Paths

A path leads through folders.  Its steps stand between slashes: a name, `.` for the
same place, or `..` for the folder around it.  A path that starts with a slash
starts at the root, any other in a working folder.

`Path` is a path as it is written, and `Path.around` are the paths before it.
`Directory.reach` follows a path through the folders that are there; its last step
need not be there.  A slash at the end of a path stands for a step `.` there, so
that such a path leads to a folder or nowhere. -/
set_option autoImplicit false

namespace SecureInbox

/-- A path without slashes that say nothing and without steps `.` but a first one. -/
structure Path where
  isAbsolute : Bool
  steps : List String

namespace Path

/-- What stands between the slashes of a path. -/
def segments (text : String) : List String := (Text.splitOn '/' text.toList).map String.ofList

def startsAtRoot (text : String) : Bool := text.toList.head? == some '/'

def ofText (text : String) : Path :=
  let moves (step : String) : Bool := step != "" && step != "."
  match startsAtRoot text, segments text with
  | false, "." :: rest => ⟨false, "." :: rest.filter moves⟩
  | isAbsolute, steps => ⟨isAbsolute, steps.filter moves⟩

def text (p : Path) : String := (if p.isAbsolute then "/" else "") ++ "/".intercalate p.steps

/-- The paths that a path goes through before its last step, the longest first. -/
def around (p : Path) : List Path :=
  (List.range (p.steps.length - 1)).reverse.map fun n => { p with steps := p.steps.take (n + 1) }

/-- The most bytes that the name of a file or folder has. -/
def nameLimit : Nat := 255

/-- A path with as many bytes leads nowhere. -/
def textLimit : Nat := 4096

end Path

/-- The steps from the root to a file or folder, the last step first. -/
abbrev Place := List String

def Place.name (place : Place) : String := "/".intercalate place.reverse

/-- Why a path leads nowhere, or why no folder can be made there. -/
inductive PathFault where
  | missing
  | refused
  | taken
deriving DecidableEq

/-- What is found at a path. -/
inductive FileContent where
  | missing
  | unreadable
  | content (bytes : Bytes)

namespace Directory

def isFolder (d : Directory) (place : Place) : Bool :=
  place.isEmpty || d.folders.contains place.name

def isFile (d : Directory) (place : Place) : Bool := (d.read? place.name).isSome

/-- Takes one step from a place, which has to be a folder. -/
def follow (d : Directory) (place : Place) (step : String) : Except PathFault Place :=
  if !d.isFolder place then .error (if d.isFile place then .refused else .missing)
  else if step = "." then .ok place
  else if step = ".." then .ok place.tail
  else if Path.nameLimit < step.utf8ByteSize then .error .refused
  else .ok (step :: place)

/-- The place where a path leads from a working folder. -/
def reach (d : Directory) (home : Place) (path : String) : Except PathFault Place :=
  if path.isEmpty then .error .missing
  else if Path.textLimit ≤ path.utf8ByteSize || path.toList.contains '\x00' then .error .refused
  else
    let last := if path.toList.getLast? = some '/' then ["."] else []
    let steps := (Path.segments path).filter (· != "") ++ last
    steps.foldlM d.follow (if Path.startsAtRoot path then [] else home)

/-- Makes a folder at a path. -/
def makeFolder (home : Place) (path : String) (d : Directory) : Except PathFault Directory := do
  let place ← d.reach home path
  if d.isFolder place || d.isFile place then throw .taken
  return { d with folders := place.name :: d.folders }

/-- Makes a folder at a path unless there is one. -/
def ensureFolder (home : Place) (path : String) (d : Directory) : Except PathFault Directory :=
  match d.makeFolder home path with
  | .error .taken =>
    match d.reach home path with
    | .ok place => if d.isFolder place then .ok d else .error .taken
    | .error e => .error e
  | result => result

/-- Makes the folder at the first of some paths, and those at the others as far as
they are missing; each path goes through the one after it. -/
def makeFolders (home : Place) : List Path → Directory → Except PathFault Directory
  | [], d => .ok d
  | path :: rest, d =>
    match d.ensureFolder home path.text with
    | .error .missing => do ensureFolder home path.text (← makeFolders home rest d)
    | result => result

/-- What is at a path. -/
def look (d : Directory) (home : Place) (path : String) : FileContent :=
  match d.reach home path with
  | .error _ => .missing
  | .ok place =>
    if d.isFolder place then .unreadable
    else
      match d.read? place.name with
      | some bytes => .content bytes
      | none => .missing

/-- Writes a file at a path, and makes the folders around it. -/
def put (d : Directory) (home : Place) (path : String) (content : Bytes) :
    Except PathFault Directory := do
  let d ← d.makeFolders home (Path.ofText path).around
  return d.write (← d.reach home path).name content

end Directory

end SecureInbox
