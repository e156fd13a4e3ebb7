import SecureInbox.Identity
import SecureInbox.Session.Basic

/-! # Session envelopes

An envelope carries one frame of a forward-secrecy session: the opening and the
answer of the handshake, the end of a session, or a protected message. -/
set_option autoImplicit false

namespace SecureInbox

/-- Why a session or a message was refused. -/
inductive Cause where
  | unknownSession
  | stateMismatch
  | reset
  | disabledByLocal
  | disabledByRemote
deriving DecidableEq

namespace Cause

def all : List Cause :=
  [.unknownSession, .stateMismatch, .reset, .disabledByLocal, .disabledByRemote]

def byte : Cause → UInt8
  | .unknownSession => 0
  | .stateMismatch => 1
  | .reset => 2
  | .disabledByLocal => 3
  | .disabledByRemote => 4

def tag : Cause → String
  | .unknownSession => "unknown_session"
  | .stateMismatch => "state_mismatch"
  | .reset => "reset"
  | .disabledByLocal => "disabled_by_local"
  | .disabledByRemote => "disabled_by_remote"

def ofByte? (b : UInt8) : Option Cause := all.find? fun c => c.byte == b

def ofTag? (tag : String) : Option Cause := all.find? fun c => c.tag == tag

theorem ofByte?_byte (c : Cause) : ofByte? c.byte = some c := by cases c <;> decide

end Cause

namespace Agreement

def all : List Agreement := [.two, .four]

def byte : Agreement → UInt8
  | .two => 1
  | .four => 2

def tag : Agreement → String
  | .two => "TwoDH"
  | .four => "FourDH"

def ofByte? (b : UInt8) : Option Agreement := all.find? fun a => a.byte == b

def ofTag? (tag : String) : Option Agreement := all.find? fun a => a.tag == tag

theorem ofByte?_byte (a : Agreement) : ofByte? a.byte = some a := by cases a <;> decide

end Agreement

/-- A protected message together with what its envelope says about it. -/
structure Encapsulated where
  sealed : Session.Protected
  offered : Version
  applied : Version
  group : Option GroupRef
deriving DecidableEq

inductive Frame where
  | init (versions : VersionRange) (ephemeral : Key)
  | accept (versions : VersionRange) (ephemeral : Key)
  | reject (rejected : MessageId) (cause : Cause)
  | terminate (cause : Cause)
  | encapsulated (content : Encapsulated)
deriving DecidableEq

namespace Frame

def kindByte : Frame → UInt8
  | .init .. => 1
  | .accept .. => 2
  | .reject .. => 3
  | .terminate .. => 4
  | .encapsulated .. => 5

def kindName : Frame → String
  | .init .. => "init"
  | .accept .. => "accept"
  | .reject .. => "reject"
  | .terminate .. => "terminate"
  | .encapsulated .. => "encapsulated"

end Frame

structure Envelope where
  session : SessionId
  frame : Frame
deriving DecidableEq

end SecureInbox
