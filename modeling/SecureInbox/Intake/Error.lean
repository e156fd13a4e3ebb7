import SecureInbox.Crypto.Error
import SecureInbox.Message.Basic
import SecureInbox.Store.Error
import SecureInbox.Wire.Error

/-! # How a message ends

A message is processed, dropped, or fails.  Every failure has a disposition: the
transport acknowledges the message and it is done, or it is delivered again. -/
set_option autoImplicit false

namespace SecureInbox

/-- A failure that the application reports. -/
inductive HandlerError where
  | keyLookup (text : String)
  | repository (text : String)
  | group (text : String)
  | blob (text : String)
  | transport (text : String)
deriving DecidableEq

def HandlerError.message : HandlerError → String
  | .keyLookup text => "key lookup failed: " ++ text
  | .repository text => "repository: " ++ text
  | .group text => "group processing: " ++ text
  | .blob text => "blob download: " ++ text
  | .transport text => "transport: " ++ text

/-- Why a box gives no message. -/
inductive OpenError where
  | box (error : CryptoError)
  | format (error : DecodeError)
deriving DecidableEq

def OpenError.message : OpenError → String
  | .box error => "box could not be opened: " ++ error.message
  | .format error => "malformed plaintext: " ++ error.message

/-- What is wrong with the format of a message. -/
inductive FormatFault where
  | addressedTo (receiver : Identity)
  | unopened (error : OpenError)
  | innerPadding (error : PaddingError)
  | innerBody (error : DecodeError)
  | otherGroup
  | nestedEnvelope
  | envelopeToSend

def FormatFault.message : FormatFault → String
  | .addressedTo receiver => "addressed to " ++ receiver.text
  | .unopened error => error.message
  | .innerPadding error => "inner: " ++ error.message
  | .innerBody error => "inner: " ++ error.message
  | .otherGroup => "group identity of envelope and message differ"
  | .nestedEnvelope => "nested forward security envelope"
  | .envelopeToSend => "refusing to encapsulate a forward security envelope"

/-- Why a frame, or a message to be put into one, is refused. -/
inductive Refusal where
  | disabled
  | unknownSession
  | keyChanged
  | unsupportedVersion (version : Version)
  | decrypt (error : CryptoError)
  | init (error : CryptoError)
  | accept (error : CryptoError)
  | initiate (error : CryptoError)
  | encrypt (error : CryptoError)
  | noSession (peer : Identity)

def Refusal.message : Refusal → String
  | .disabled => "forward security disabled"
  | .unknownSession => "unknown session"
  | .keyChanged => "peer key changed"
  | .unsupportedVersion version => "unsupported version " ++ version.text
  | .decrypt error => "decrypt: " ++ error.message
  | .init error => "init: " ++ error.message
  | .accept error => "accept: " ++ error.message
  | .initiate error => "initiate: " ++ error.message
  | .encrypt error => "encrypt: " ++ error.message
  | .noSession peer => "no session with " ++ peer.text

inductive ProcessError where
  | senderUnknown (sender reason : String)
  | badFormat (sender reason : String)
  | unknownType (typeByte : UInt8)
  | invalidContent (kind : String)
  | nonceReplay (id : MessageId)
  | refused (reason : String)
  | notReady (reason : String)
  | noHandler (kind : String)
  | handler (error : HandlerError)
  | store (error : StoreError)
  | interrupted (reason : String)
deriving DecidableEq

inductive Disposition where
  /-- The message is done. -/
  | ack
  /-- The message is delivered again later. -/
  | retry
deriving DecidableEq

namespace ProcessError

/-- The failure for a fault in the format of a sender's message. -/
def ofFault (sender : Identity) (fault : FormatFault) : ProcessError :=
  .badFormat sender.text fault.message

def ofRefusal (refusal : Refusal) : ProcessError := .refused refusal.message

def disposition : ProcessError → Disposition
  | .senderUnknown .. => .retry
  | .notReady _ => .retry
  | .noHandler _ => .retry
  | .store _ => .retry
  | .interrupted _ => .retry
  | .badFormat .. => .ack
  | .unknownType _ => .ack
  | .invalidContent _ => .ack
  | .nonceReplay _ => .ack
  | .refused _ => .ack
  | .handler _ => .ack

/-- A short name for logs. -/
def tag : ProcessError → String
  | .senderUnknown .. => "sender_unknown"
  | .badFormat .. => "bad_message_format"
  | .unknownType _ => "unknown_message_type"
  | .invalidContent _ => "invalid_content"
  | .nonceReplay _ => "nonce_replay"
  | .refused _ => "forward_security_reject"
  | .notReady _ => "forward_security_transient"
  | .noHandler _ => "invalid_message_class"
  | .handler _ => "handler"
  | .store _ => "store"
  | .interrupted _ => "interrupted"

def message : ProcessError → String
  | .senderUnknown sender reason => "sender " ++ sender ++ " unknown: " ++ reason
  | .badFormat sender reason => "bad message format from " ++ sender ++ ": " ++ reason
  | .unknownType b => "unknown message type " ++ Hex.byteText b
  | .invalidContent kind => "invalid content in " ++ kind
  | .nonceReplay id => "message " ++ id.hex ++ " already processed"
  | .refused reason => "forward security rejected: " ++ reason
  | .notReady reason => "forward security not ready: " ++ reason
  | .noHandler kind => "no handler for message kind " ++ kind
  | .handler error => "handler failed: " ++ error.message
  | .store error => "store: " ++ error.message
  | .interrupted reason => "processing interrupted: " ++ reason

end ProcessError

/-- Why a message is done without having been processed. -/
inductive DropReason where
  | blockedSender
  | invalidContent
  | alreadyProcessed
  /-- A frame that carries no message. -/
  | sessionControl
deriving DecidableEq

def DropReason.tag : DropReason → String
  | .blockedSender => "blocked_sender"
  | .invalidContent => "invalid_content"
  | .alreadyProcessed => "already_processed"
  | .sessionControl => "forward_security_control"

inductive Outcome where
  | processed (message : Message)
  | dropped (reason : DropReason)

end SecureInbox
