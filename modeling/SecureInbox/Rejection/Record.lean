import SecureInbox.Message.Json
import SecureInbox.Store.Error

/-! # Records of rejected messages

A record tells what was rejected and why.  It carries the hash of the record
before it and a hash of all its other fields, so that the records of a file form a
chain.  In a file each record is one line of JSON. -/
set_option autoImplicit false

namespace SecureInbox

open Json (Node)
open Json.Node (Slot)

/-- What is known about a rejected message. -/
structure Rejection where
  sender : String
  messageId : String
  typeByte : Option UInt8
  reason : String
  detail : Option String
deriving DecidableEq

structure Record where
  sequence : UInt64
  time : Instant
  rejection : Rejection
  previous : String
  hash : String
deriving DecidableEq

namespace Record

/-- The hash that the first record of a file follows. -/
def chainStart : String := "CHAIN_START"

/-- The fields of a record but its hash, in the order of its line. -/
def fields (sequence : UInt64) (time : Instant) (rejection : Rejection) (previous : String) :
    List (String × Json) := [
  ("seq", Json.ofNat sequence.toNat),
  ("timestamp", .string time.text),
  ("sender", .string rejection.sender),
  ("message_id", .string rejection.messageId),
  ("type_byte", Json.orNull (fun b : UInt8 => Json.ofNat b.toNat) rejection.typeByte),
  ("reason", .string rejection.reason),
  ("detail", Json.orNull .string rejection.detail),
  ("prev_hash", .string previous)]

/-- The hash of a record's other fields, over their JSON text in order of name. -/
def hashOf (sequence : UInt64) (time : Instant) (rejection : Rejection) (previous : String) : String :=
  (Sha256.hash (Text.utf8 (Json.ofMembers (fields sequence time rejection previous)).compact)).hex

/-- The record of a rejection, with its hash. -/
def make (sequence : UInt64) (time : Instant) (rejection : Rejection) (previous : String) : Record :=
  ⟨sequence, time, rejection, previous, hashOf sequence time rejection previous⟩

/-- Whether the hash of a record is that of its other fields. -/
def isGenuine (r : Record) : Bool := hashOf r.sequence r.time r.rejection r.previous == r.hash

def toJson (r : Record) : Json :=
  .object (fields r.sequence r.time r.rejection r.previous ++ [("hash", .string r.hash)])

def ofNode? (node : Node) : Option Record := do
  match ← node.slots? ["seq", "timestamp", "sender", "message_id", "type_byte", "reason", "detail",
      "prev_hash", "hash"] with
  | [sequence, time, sender, messageId, typeByte, reason, detail, previous, hash] =>
      return {
        sequence := ← sequence.required Node.word64?
        time := ← time.required Node.instant?
        rejection := {
          sender := ← sender.required Node.text?
          messageId := ← messageId.required Node.text?
          typeByte := ← typeByte.optional Node.byte?
          reason := ← reason.required Node.text?
          detail := ← detail.optional Node.text? }
        previous := ← previous.required Node.text?
        hash := ← hash.required Node.text? }
  | _ => none

/-- The line of a record, with its line end. -/
def line (r : Record) : Bytes := Text.utf8 (r.toJson.compact ++ "\n")

/-- The records of a file's lines; blank lines count for nothing. -/
def ofLines : List Bytes → Except StoreError (List Record)
  | [] => .ok []
  | line :: rest => do
    match Text.ofUtf8? line with
    | none => throw .unreadableFile
    | some text =>
      if (Text.trimChars text.toList).isEmpty then ofLines rest
      else
        match Node.parse? line >>= ofNode? with
        | none => throw .malformedRecord
        | some record => return record :: (← ofLines rest)

/-- The records of a file. -/
def ofFile (content : Bytes) : Except StoreError (List Record) := ofLines (Text.byteLines content)

/-- Checks a chain from the hash that its first record must follow, and counts
its records. -/
def verifyFrom (previous : String) : List Record → Except StoreError Nat
  | [] => .ok 0
  | r :: rest => do
    if r.previous ≠ previous ∨ ¬ r.isGenuine then throw (.chainBroken r.sequence)
    return (← verifyFrom r.hash rest) + 1

/-- A chain: each record follows the one before it, and its hash is genuine. -/
inductive Chained : String → List Record → Prop where
  | nil (previous : String) : Chained previous []
  | cons {r : Record} {rest : List Record} (genuine : r.isGenuine = true)
      (tail : Chained r.hash rest) : Chained r.previous (r :: rest)

end Record

end SecureInbox
