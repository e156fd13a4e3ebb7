import SecureInbox.CommandLine.Command

/-! # The program

Runs one command on the files of the system. -/
set_option autoImplicit false

namespace SecureInbox

/-- The files of the system.  A path that cannot be followed leads to no file; what is
there but cannot be read, such as a folder, is unreadable. -/
def systemFiles : Files IO where
  read path := do
    match ← (IO.FS.Handle.mk path .read).toBaseIO with
    | .error (.noFileOrDirectory ..) => return .missing
    | .error (.inappropriateType ..) => return .missing
    | .error _ => return .unreadable
    | .ok handle =>
      match ← handle.readBinToEnd.toBaseIO with
      | .error _ => return .unreadable
      | .ok bytes => return .content bytes.toList
  makeParents path := do
    match (Path.ofText path).around with
    | [] => return true
    | folder :: _ =>
      try
        IO.FS.createDirAll folder.text
        return true
      catch _ => return false

end SecureInbox

open SecureInbox in
def main (arguments : List String) : IO UInt32 := do
  match Command.ofArguments arguments with
  | .error .help =>
    Command.usage.forM IO.println
    return 0
  | .error .wrong =>
    Command.usage.forM IO.eprintln
    return 2
  | .ok command =>
    match ← command.run Suite.standard systemFiles with
    | .ok lines =>
      lines.forM IO.println
      return 0
    | .error message =>
      IO.eprintln ("Error: " ++ message)
      return 1
