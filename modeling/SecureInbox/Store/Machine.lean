import SecureInbox.Store.Path
import SecureInbox.Text.Utf8

/-! # A fresh machine

What is there before anything is written: the usual folders at the root, a file of
accounts, a device that keeps nothing, and an empty working folder. -/
set_option autoImplicit false

namespace SecureInbox.Machine

/-- The working folder. -/
def home : Place := ["work", "tmp"]

/-- The working folder as a path. -/
def homePath : String := "/" ++ home.name

/-- The file that stays empty whatever is written to it. -/
def nullDevice : String := "dev/null"

def folders : List String :=
  ["bin", "boot", "dev", "etc", "home", "lib", "media", "mnt", "opt", "proc", "root", "run",
   "sbin", "srv", "sys", "tmp", "usr", "var", home.name]

def fresh : Directory :=
  ⟨[(nullDevice, []), ("etc/passwd", Text.utf8 "root:x:0:0:root:/root:/bin/sh\n")], folders⟩

/-- The path from the root that a path from the working folder stands for. -/
def fullPath (path : String) : String :=
  if Path.startsAtRoot path then path else homePath ++ "/" ++ path

end SecureInbox.Machine
