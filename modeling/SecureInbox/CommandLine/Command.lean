import SecureInbox.CommandLine.Arguments
import SecureInbox.Intake.Opening
import SecureInbox.Message.Json
import SecureInbox.Rejection.Record
import SecureInbox.Settings
import SecureInbox.Store.Path

/-! # Commands for a look inside

Commands decode a body, hash a nonce, name flags, list the kinds of messages, check
a settings file, and show or verify a rejection log.  `Command.ofArguments` reads a
command and `Command.run` gives the lines that it prints, or the error it ends with.
Files are behind `Files`, so that the same commands run on any of them. -/
set_option autoImplicit false

namespace SecureInbox

inductive Command where
  | decode (typeByte : Option UInt8) (body : String)
  | hashNonce (identity nonce : String)
  | flags (bits : UInt8)
  | types
  | checkSettings (path : String)
  | rejections (settings log : Option String) (limit : Nat) (verify : Bool)

/-- Access to files.  `makeParents` makes the folders that a path goes through, and
says whether they are there. -/
structure Files (m : Type → Type) where
  read : String → m FileContent
  makeParents : String → m Bool

/-- The files of a directory, for paths from a working folder. -/
def Directory.access (home : Place) : Files (StateM Directory) where
  read path := do return (← get).look home path
  makeParents path := do
    match (← get).makeFolders home (Path.ofText path).around with
    | .error _ => return false
    | .ok d =>
      set d
      return true

/-- A number below the bound in hexadecimal digits, perhaps after a plus sign. -/
def hexadecimal? (bound : Nat) (cs : List Char) : Option Nat :=
  let digits :=
    match cs with
    | '+' :: rest => rest
    | other => other
  match digits.mapM Hex.value? with
  | some (v :: rest) =>
    let n := (v :: rest).foldl (fun n d => 16 * n + d) 0
    if n < bound then some n else none
  | _ => none

/-- A byte in decimal, or in hexadecimal after `0x`. -/
def byteOfText? (text : String) : Option UInt8 :=
  match text.toList with
  | '0' :: 'x' :: digits => (hexadecimal? 256 digits).map UInt8.ofNat
  | '0' :: 'X' :: digits => (hexadecimal? 256 digits).map UInt8.ofNat
  | digits => (Digits.read? 256 digits).map UInt8.ofNat

namespace Command

/-- How many records are shown unless a limit is given. -/
def defaultLimit : Nat := 50

def orWrong {α : Type} : Option α → Except ArgumentFault α
  | some a => .ok a
  | none => .error .wrong

/-- An option whose value is any text. -/
def textOption (letter : Char) (name : String) : OptionForm := ⟨letter, name, fun _ => true⟩

def isByte (text : String) : Bool := (byteOfText? text).isSome

/-- Whether a text is a path; it is not empty. -/
def isPath (text : String) : Bool := !text.isEmpty

/-- How many records are to be shown. -/
def limitOfText? (text : String) : Option Nat := Digits.read? UInt64.size text.toList

def readArguments (form : ArgumentForm) (words : List String) : Except ArgumentFault Arguments :=
  Arguments.read form none .none words

def onlyPositional (accepts : String → Bool) (words : List String) :
    Except ArgumentFault String := do
  orWrong (← readArguments ⟨[], [], [accepts]⟩ words).positionals.head?

def decodeOfArguments (words : List String) : Except ArgumentFault Command := do
  let a ← readArguments ⟨[⟨'t', "type", isByte⟩, textOption 'b' "body"], [], []⟩ words
  return .decode (a.value? "type" >>= byteOfText?) (← orWrong (a.value? "body"))

def hashNonceOfArguments (words : List String) : Except ArgumentFault Command := do
  let a ← readArguments ⟨[textOption 'i' "identity", textOption 'n' "nonce"], [], []⟩ words
  return .hashNonce (← orWrong (a.value? "identity")) (← orWrong (a.value? "nonce"))

def rejectionsOfArguments (words : List String) : Except ArgumentFault Command := do
  let a ← readArguments ⟨[⟨'s', "settings", isPath⟩, ⟨'l', "log", isPath⟩,
    ⟨'n', "limit", fun text => (limitOfText? text).isSome⟩], ["verify"], []⟩ words
  return .rejections (a.value? "settings") (a.value? "log")
    ((a.value? "limit" >>= limitOfText?).getD defaultLimit) (a.switches.contains "verify")

/-- The words that commands begin with. -/
def names : List String :=
  ["decode", "hash-nonce", "flags", "types", "check-settings", "rejections", "help"]

/-- The command that arguments give.  Help is for all commands, or for one that there is. -/
def ofArguments : List String → Except ArgumentFault Command
  | "decode" :: rest => decodeOfArguments rest
  | "hash-nonce" :: rest => hashNonceOfArguments rest
  | "flags" :: rest => do return .flags (← orWrong (byteOfText? (← onlyPositional isByte rest)))
  | "types" :: rest => (readArguments .bare rest).map fun _ => .types
  | "check-settings" :: rest => (onlyPositional isPath rest).map .checkSettings
  | "rejections" :: rest => rejectionsOfArguments rest
  | ["help"] => .error .help
  | ["help", name] => .error (if name ∈ names then .help else .wrong)
  | "--help" :: _ => .error .help
  | word :: _ => .error (if "-h".toList.isPrefixOf word.toList then .help else .wrong)
  | [] => .error .wrong

/-- What a text without blanks at its ends writes in hexadecimal. -/
def hexOfText (what text : String) : Except String Bytes :=
  match Hex.decode? (Text.trim text) with
  | some bytes => .ok bytes
  | none => .error (what ++ " is not valid hex")

def decodeLines (typeByte : Option UInt8) (text : String) : Except String (List String) := do
  let raw ← hexOfText "body" text
  let (typeByte, content) ←
    match typeByte with
    | some b => pure (b, raw)
    | none => (Padding.decode raw).mapError fun e => "bad padded plaintext: " ++ e.message
  let body ← (Body.decode typeByte content).mapError fun _ => "type " ++ Hex.byteText typeByte
  return [body.toJson.pretty]

def hashNonceLines (suite : Suite) (identity nonce : String) : Except String (List String) := do
  if (Identity.ofText? identity).isNone then throw "invalid identity"
  let bytes ← hexOfText "nonce" nonce
  if bytes.length ≠ Aead.nonceLength then
    throw ("nonce must be 24 bytes, got " ++ toString bytes.length)
  return [(suite.nonceHash identity bytes).hex]

def flagsLine (bits : UInt8) : String :=
  let names := (Flags.mk bits).names
  Hex.byteText bits ++ ": " ++ if names.isEmpty then "none" else ", ".intercalate names

def typeLines : List String := Kind.all.map fun k => Hex.byteText k.byte ++ "  " ++ k.label

def settingsLines (s : Settings) (range : VersionRange) : List String := [
  "settings ok",
  "  forward security: " ++ if s.sessions.enabled then "enabled" else "disabled",
  "  versions: " ++ range.min.text ++ "..=" ++ range.max.text,
  "  max skip: " ++ toString s.sessions.maxSkip,
  "  batch concurrency: " ++ toString s.limits.concurrency]

/-- The lines for the records of a log. -/
def rejectionLines (limit : Nat) (verify : Bool) (records : List Record) :
    Except String (List String) :=
  if verify then
    match Record.verifyFrom Record.chainStart records with
    | .ok count => .ok [toString count ++ " entries, chain intact"]
    | .error _ => .error "hash chain is broken"
  else .ok ((records.reverse.take limit).map fun r => r.toJson.compact)

section Run

variable {m : Type → Type} [Monad m]

def loadSettings (files : Files m) (path : String) : m (Except SettingsError Settings) := do
  match ← files.read path with
  | .content bytes => return Settings.load (some bytes)
  | _ => return Settings.load none

/-- The records of a log file.  The folders above it are made. -/
def openLog (files : Files m) (path : String) : m (Except StoreError (List Record)) := do
  if ← files.makeParents path then
    match ← files.read path with
    | .missing => return .ok []
    | .unreadable => return .error .unreadableFile
    | .content bytes => return Record.ofFile bytes
  else return .error .unreadableFile

def checkSettingsLines (files : Files m) (path : String) : m (Except String (List String)) := do
  match ← loadSettings files path with
  | .error _ => return .error ("failed to load " ++ path)
  | .ok settings =>
    match settings.versions with
    | .error e => return .error e.message
    | .ok range => return .ok (settingsLines settings range)

/-- The path of the log to show: the one given, or the one that settings name. -/
def logPath (files : Files m) (settings log : Option String) : m (Except String String) := do
  match log, settings with
  | some path, _ => return .ok path
  | none, none => return .error "pass --log or --settings"
  | none, some path =>
    match ← loadSettings files path with
    | .error e => return .error e.message
    | .ok s =>
      match s.logPath? with
      | some log => return .ok log
      | none => return .error ("validation log is disabled in " ++ path)

/-- The lines that a command prints, or its error. -/
def run (suite : Suite) (files : Files m) : Command → m (Except String (List String))
  | .decode typeByte body => return decodeLines typeByte body
  | .hashNonce identity nonce => return hashNonceLines suite identity nonce
  | .flags bits => return .ok [flagsLine bits]
  | .types => return .ok typeLines
  | .checkSettings path => checkSettingsLines files path
  | .rejections settings log limit verify => do
      match ← logPath files settings log with
      | .error e => return .error e
      | .ok path =>
        match ← openLog files path with
        | .error e => return .error e.message
        | .ok records => return rejectionLines limit verify records

end Run

/-- How to use the commands. -/
def usage : List String := [
  "usage: COMMAND [ARGUMENTS]",
  "  decode [-t TYPE] -b HEX            show a message body",
  "  hash-nonce -i IDENTITY -n HEX      show the trace that a nonce leaves",
  "  flags BYTE                         name the bits of a flags byte",
  "  types                              list the kinds of messages",
  "  check-settings PATH                check a settings file",
  "  rejections [-s PATH] [-l PATH] [-n LIMIT] [--verify]",
  "                                     show or verify a rejection log"]

end Command

end SecureInbox
