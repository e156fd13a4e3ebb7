import SecureInbox.Json.Parser
import SecureInbox.Message.Content
import SecureInbox.Message.Json
import SecureInbox.Number.Digits
import SecureInbox.Text.Quoted

/-! # Settings

Settings come from a JSON file.  All parts but the switch of forward secrecy have
defaults.  `Settings.load` reads a file and checks it; `Settings.check` says what
is acceptable: versions inside the supported range, positive limits, and a path
for a log that is switched on. -/
set_option autoImplicit false

namespace SecureInbox

open Json (Node)
open Json.Node (Slot)

structure SessionSettings where
  enabled : Bool
  maxSkip : UInt64
  minVersion : String
  maxVersion : String
deriving DecidableEq

structure LimitSettings where
  textBytes : UInt64
  groupNameBytes : UInt64
  /-- How many senders a batch processes at a time. -/
  concurrency : UInt64
deriving DecidableEq

structure LogSettings where
  enabled : Bool
  path : Option String
  maxBytes : UInt64
deriving DecidableEq

structure Settings where
  sessions : SessionSettings
  limits : LimitSettings
  log : LogSettings
deriving DecidableEq

inductive SettingsError where
  | unreadable
  | malformed
  | notTwoParts (version : String)
  | badMajor (version : String)
  | badMinor (version : String)
  | inverted (min max : Version)
  | unsupported (range : VersionRange)
  | noSkip
  | textLimit
  | noConcurrency
  | noLogPath
deriving DecidableEq

namespace SettingsError

/-- What is wrong with settings that could be read. -/
def fault : SettingsError → String
  | .notTwoParts version => "version " ++ Text.quoted version ++ " is not major.minor"
  | .badMajor version => "bad major version in " ++ Text.quoted version
  | .badMinor version => "bad minor version in " ++ Text.quoted version
  | .inverted min max => "min version " ++ min.text ++ " above max " ++ max.text
  | .unsupported range =>
      "forward security versions " ++ range.min.text ++ ".." ++ range.max.text ++
        " outside supported " ++ VersionRange.supported.min.text ++ ".." ++
        VersionRange.supported.max.text
  | .noSkip => "max_counter_skip must be positive"
  | .textLimit => "max_text_bytes must be between 1 and " ++ toString ContentLimits.maxTextBytes
  | .noConcurrency => "max_batch_concurrency must be positive"
  | .noLogPath => "validation log enabled without a path"
  | _ => ""

def message : SettingsError → String
  | .unreadable => "cannot read settings"
  | .malformed => "malformed settings"
  | other => "invalid settings: " ++ other.fault

end SettingsError

/-- The version that a text writes as its two numbers with a point between. -/
def Version.parse (text : String) : Except SettingsError Version :=
  let cs := text.toList
  let major := cs.takeWhile (· != '.')
  match cs.drop major.length with
  | [] => .error (.notTwoParts text)
  | _ :: minor =>
    match Digits.read? 256 major with
    | none => .error (.badMajor text)
    | some a =>
      match Digits.read? 256 minor with
      | none => .error (.badMinor text)
      | some b => .ok (Version.ofParts a b)

namespace SessionSettings

def standard : SessionSettings :=
  ⟨true, Ratchet.defaultMaxSkip, VersionRange.supported.min.text, VersionRange.supported.max.text⟩

def toJson (s : SessionSettings) : Json := .object [
  ("enabled", .bool s.enabled), ("max_counter_skip", Json.ofNat s.maxSkip.toNat),
  ("min_version", .string s.minVersion), ("max_version", .string s.maxVersion)]

def ofNode? (node : Node) : Option SessionSettings := do
  match ← node.slots? ["enabled", "max_counter_skip", "min_version", "max_version"] with
  | [enabled, skip, min, max] =>
      return ⟨← enabled.required Node.flag?, ← skip.orElse Node.word64? standard.maxSkip,
        ← min.orElse Node.text? standard.minVersion, ← max.orElse Node.text? standard.maxVersion⟩
  | _ => none

end SessionSettings

namespace LimitSettings

def standard : LimitSettings :=
  ⟨UInt64.ofNat ContentLimits.maxTextBytes, UInt64.ofNat ContentLimits.maxGroupNameBytes, 8⟩

def toJson (s : LimitSettings) : Json := .object [
  ("max_text_bytes", Json.ofNat s.textBytes.toNat),
  ("max_group_name_bytes", Json.ofNat s.groupNameBytes.toNat),
  ("max_batch_concurrency", Json.ofNat s.concurrency.toNat)]

def ofNode? (node : Node) : Option LimitSettings := do
  match ← node.slots? ["max_text_bytes", "max_group_name_bytes", "max_batch_concurrency"] with
  | [text, groupName, concurrency] =>
      return ⟨← text.required Node.word64?, ← groupName.orElse Node.word64? standard.groupNameBytes,
        ← concurrency.required Node.word64?⟩
  | _ => none

end LimitSettings

namespace LogSettings

def standard : LogSettings := ⟨false, none, 4 * 1024 * 1024⟩

def toJson (s : LogSettings) : Json := .object [
  ("enabled", .bool s.enabled), ("path", Json.orNull .string s.path),
  ("max_bytes", Json.ofNat s.maxBytes.toNat)]

def ofNode? (node : Node) : Option LogSettings := do
  match ← node.slots? ["enabled", "path", "max_bytes"] with
  | [enabled, path, maxBytes] =>
      return ⟨← enabled.required Node.flag?, ← path.lenient Node.text?,
        ← maxBytes.required Node.word64?⟩
  | _ => none

end LogSettings

namespace Settings

def standard : Settings := ⟨.standard, .standard, .standard⟩

def toJson (s : Settings) : Json := .object [
  ("forward_security", s.sessions.toJson), ("limits", s.limits.toJson),
  ("validation_log", s.log.toJson)]

def ofNode? (node : Node) : Option Settings := do
  match ← node.slots? ["forward_security", "limits", "validation_log"] with
  | [sessions, limits, log] =>
      return ⟨← sessions.required SessionSettings.ofNode?, ← limits.orElse LimitSettings.ofNode? .standard,
        ← log.orElse LogSettings.ofNode? .standard⟩
  | _ => none

/-- The versions that sessions may use. -/
def versions (s : Settings) : Except SettingsError VersionRange := do
  let min ← Version.parse s.sessions.minVersion
  let max ← Version.parse s.sessions.maxVersion
  if min ≤ max then return ⟨min, max⟩ else throw (.inverted min max)

/-- Refuses settings that make no sense. -/
def check (s : Settings) : Except SettingsError Unit := do
  let range ← s.versions
  if ¬ VersionRange.supported.min ≤ range.min ∨ ¬ range.max ≤ VersionRange.supported.max then
    throw (.unsupported range)
  if s.sessions.maxSkip = 0 then throw .noSkip
  if s.limits.textBytes = 0 ∨ ContentLimits.maxTextBytes < s.limits.textBytes.toNat then
    throw .textLimit
  if s.limits.concurrency = 0 then throw .noConcurrency
  if s.log.enabled ∧ s.log.path = none then throw .noLogPath

/-- The settings of a file, which is `none` when it cannot be read. -/
def load (content : Option Bytes) : Except SettingsError Settings := do
  let bytes ← (content.elim (.error .unreadable) .ok : Except SettingsError Bytes)
  if (Text.ofUtf8? bytes).isNone then throw .unreadable
  match Node.parse? bytes >>= ofNode? with
  | none => throw .malformed
  | some s =>
    s.check
    return s

/-- The path of the log, if it is switched on. -/
def logPath? (s : Settings) : Option String := if s.log.enabled then s.log.path else none

def contentLimits (s : Settings) : ContentLimits :=
  ⟨s.limits.textBytes.toNat, s.limits.groupNameBytes.toNat⟩

end Settings

end SecureInbox
