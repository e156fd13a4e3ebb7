import SecureInbox.Intake.Error
import SecureInbox.Report.Form
import SecureInbox.Settings

/-! # Error reports

An error is reported by its kind, which programs look at, and by its text, which
people read.  A text ends after the words for a failure of reading or of storage:
what follows them is not the same everywhere. -/
set_option autoImplicit false

namespace SecureInbox

/-- The characters up to the end of the first place where the pattern stands. -/
def upTo? (pattern : List Char) : List Char → Option (List Char)
  | [] => if pattern.isEmpty then some [] else none
  | c :: rest =>
    if pattern.isPrefixOf (c :: rest) then some pattern
    else (upTo? pattern rest).map (c :: ·)

/-- The words that end a report. -/
def lastWords : List String := [
  "invalid JSON", "Serialisation error", "Stored value is not valid base64", "I/O error",
  "Database error", "Migration error", "malformed settings", "cannot read settings"]

/-- A text as it is reported. -/
def reportText (text : String) : String :=
  String.ofList (lastWords.foldl (fun cs words => (upTo? words.toList cs).getD cs) text.toList)

structure ErrorReport where
  kind : String
  message : String
  details : List (String × Json)

instance : Shown ErrorReport :=
  ⟨fun r => .object ([("error", shown r.kind), ("message", shown (reportText r.message))] ++ r.details)⟩

class Reported (ε : Type) where
  report : ε → ErrorReport

export Reported (report)

/-- A result, or the report of its error. -/
instance {ε α : Type} [Reported ε] [Shown α] : Shown (Except ε α) where
  shown
    | .ok a => shown a
    | .error e => shown (report e)

def DecodeError.kind : DecodeError → String
  | .truncated .. => "Truncated"
  | .invalidIdentity _ => "InvalidIdentity"
  | .invalidUtf8 _ => "InvalidUtf8"
  | .invalidJson => "InvalidJson"
  | .invalidField _ => "InvalidField"
  | .empty => "Empty"
  | .padding _ => "Codec"

def PaddingError.kind : PaddingError → String
  | .missingType => "MissingType"
  | _ => "InvalidPadding"

def CryptoError.kind : CryptoError → String
  | .notAuthentic => "AeadDecrypt"
  | .tooMuchOutput => "KeyDerivation"
  | .lowOrderKey _ => "InvalidKey"
  | .ratchetBehind .. => "RatchetTooOld"
  | .skipTooLarge .. => "RatchetSkipTooLarge"
  | .missingRatchet _ => "MissingRatchet"
  | .wrongState _ => "InvalidSessionState"

def StoreError.kind : StoreError → String
  | .vaultLocked => "VaultLocked"
  | .crypto _ => "Crypto"
  | .malformedRecord => "Serialisation"
  | .malformedText => "Encoding"
  | .unreadableFile => "Io"
  | .chainBroken _ => "ChainBroken"

def SettingsError.kind : SettingsError → String
  | .unreadable => "Io"
  | .malformed => "Json"
  | _ => "Invalid"

def OpenError.kind : OpenError → String
  | .box _ => "Box"
  | .format _ => "Format"

def ProcessError.kind : ProcessError → String
  | .senderUnknown .. => "SenderUnknown"
  | .badFormat .. => "BadMessageFormat"
  | .unknownType _ => "UnknownMessageType"
  | .invalidContent _ => "InvalidContent"
  | .nonceReplay _ => "NonceReplay"
  | .refused _ => "ForwardSecurityReject"
  | .notReady _ => "ForwardSecurityTransient"
  | .noHandler _ => "InvalidMessageClass"
  | .handler _ => "Handler"
  | .store _ => "Store"
  | .interrupted _ => "Interrupted"

def Disposition.tag : Disposition → String
  | .ack => "ack"
  | .retry => "retry"

instance : Reported ErrorReport := ⟨id⟩
instance : Reported DecodeError := ⟨fun e => ⟨e.kind, e.message, []⟩⟩
instance : Reported PaddingError := ⟨fun e => ⟨e.kind, e.message, []⟩⟩
instance : Reported CryptoError := ⟨fun e => ⟨e.kind, e.message, []⟩⟩
instance : Reported StoreError := ⟨fun e => ⟨e.kind, e.message, []⟩⟩
instance : Reported SettingsError := ⟨fun e => ⟨e.kind, e.message, []⟩⟩
instance : Reported OpenError := ⟨fun e => ⟨e.kind, e.message, []⟩⟩

instance : Reported ProcessError :=
  ⟨fun e => ⟨e.kind, e.message,
    [("reason", shown e.tag), ("disposition", shown e.disposition.tag)]⟩⟩

instance : Shown Outcome where
  shown
    | .processed message => .object [("processed", shown message)]
    | .dropped reason => .object [("dropped", shown reason.tag)]

/-! ## Errors given -/

/-- The error of an application is of its records unless it says otherwise. -/
instance : Given HandlerError := ⟨fun v => do
  let message := (← v.given? "message").getD ""
  match ← v.given? "kind" with
  | some "KeyLookup" => return .keyLookup message
  | some "Group" => return .group message
  | some "Blob" => return .blob message
  | some "Transport" => return .transport message
  | _ => return .repository message⟩

/-- A store fails because of its vault unless it says otherwise. -/
instance : Given StoreError := ⟨fun v => do
  let sequence := (← v.given? "seq").getD 0
  match ← v.given? "kind" with
  | some "ChainBroken" => return .chainBroken sequence
  | some "Crypto" => return .crypto .notAuthentic
  | _ => return .vaultLocked⟩

instance : Given ProcessError := ⟨fun v => do
  let identity := (← v.given? "identity").getD ""
  let reason := (← v.given? "reason").getD ""
  match ← v.given? "variant" with
  | some "SenderUnknown" => return .senderUnknown identity reason
  | some "BadMessageFormat" => return .badFormat identity reason
  | some "UnknownMessageType" => return .unknownType (← v.member? "type" >>= given?)
  | some "InvalidContent" => return .invalidContent reason
  | some "NonceReplay" => return .nonceReplay (← v.member? "id" >>= given?)
  | some "ForwardSecurityReject" => return .refused reason
  | some "ForwardSecurityTransient" => return .notReady reason
  | some "InvalidMessageClass" => return .noHandler reason
  | some "Handler" => return .handler (← v.member? "cause" >>= given?)
  | some "Store" => return .store (← v.member? "cause" >>= given?)
  | some "Interrupted" => return .interrupted reason
  | _ => none⟩

end SecureInbox
