/-! # Header flags and small tables

The bits of the flags byte, and the kinds of receipts and reactions with their
bytes and their names. -/
set_option autoImplicit false

namespace SecureInbox

/-- The flags byte of a message header. -/
structure Flags where
  bits : UInt8
deriving DecidableEq

namespace Flags

def sendPush : UInt8 := 0x01

def dontQueue : UInt8 := 0x02

def dontAck : UInt8 := 0x04

def group : UInt8 := 0x10

def immediateDelivery : UInt8 := 0x20

/-- Only the server sets this one. -/
def noDeliveryReceipt : UInt8 := 0x80

/-- Whether every given bit is set. -/
def contains (flags : Flags) (bits : UInt8) : Bool := flags.bits &&& bits == bits

def table : List (UInt8 × String) := [
  (sendPush, "send-push"), (dontQueue, "dont-queue"), (dontAck, "dont-ack"), (group, "group"),
  (immediateDelivery, "immediate-delivery"), (noDeliveryReceipt, "no-delivery-receipt")]

/-- The names of the known bits that are set. -/
def names (flags : Flags) : List String :=
  (table.filter fun entry => flags.contains entry.1).map Prod.snd

end Flags

/-- What a delivery receipt reports. -/
inductive ReceiptType where
  | received
  | read
  | userAck
  | userDecline
  | consumed
deriving DecidableEq

namespace ReceiptType

def all : List ReceiptType := [.received, .read, .userAck, .userDecline, .consumed]

def byte : ReceiptType → UInt8
  | .received => 1
  | .read => 2
  | .userAck => 3
  | .userDecline => 4
  | .consumed => 5

def tag : ReceiptType → String
  | .received => "received"
  | .read => "read"
  | .userAck => "user_ack"
  | .userDecline => "user_decline"
  | .consumed => "consumed"

def ofByte? (b : UInt8) : Option ReceiptType := all.find? fun t => t.byte == b

def ofTag? (tag : String) : Option ReceiptType := all.find? fun t => t.tag == tag

theorem ofByte?_byte (t : ReceiptType) : ofByte? t.byte = some t := by cases t <;> decide

end ReceiptType

/-- Whether a reaction is set or taken back. -/
inductive ReactionAction where
  | apply
  | withdraw
deriving DecidableEq

namespace ReactionAction

def all : List ReactionAction := [.apply, .withdraw]

def byte : ReactionAction → UInt8
  | .apply => 0
  | .withdraw => 1

def tag : ReactionAction → String
  | .apply => "apply"
  | .withdraw => "withdraw"

def ofByte? (b : UInt8) : Option ReactionAction := all.find? fun a => a.byte == b

def ofTag? (tag : String) : Option ReactionAction := all.find? fun a => a.tag == tag

theorem ofByte?_byte (a : ReactionAction) : ofByte? a.byte = some a := by cases a <;> decide

end ReactionAction

end SecureInbox
