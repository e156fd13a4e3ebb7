import SecureInbox.Json.Node

/-! # Call signalling

The payloads of call messages.  On the wire they are JSON records; `fields`
lists the members that are written, in order, and `ofNode?` reads a record. -/
set_option autoImplicit false

namespace SecureInbox

open Json (Node)
open Json.Node (Slot)

/-- A member that is left out when there is nothing to write. -/
def optionalMember (name : String) (value : Option Json) : List (String × Json) :=
  match value with
  | some v => [(name, v)]
  | none => []

structure SessionDescription where
  kind : String
  sdp : String
deriving DecidableEq

namespace SessionDescription

def toJson (d : SessionDescription) : Json :=
  .object [("sdpType", .string d.kind), ("sdp", .string d.sdp)]

def ofNode? (node : Node) : Option SessionDescription := do
  match ← node.slots? ["sdpType", "sdp"] with
  | [kind, sdp] => return ⟨← kind.required Node.text?, ← sdp.required Node.text?⟩
  | _ => none

end SessionDescription

structure CallOffer where
  callId : Option UInt32
  offer : SessionDescription
deriving DecidableEq

namespace CallOffer

def fields (c : CallOffer) : List (String × Json) :=
  optionalMember "callId" (c.callId.map fun n => Json.ofNat n.toNat) ++ [("offer", c.offer.toJson)]

def ofNode? (node : Node) : Option CallOffer := do
  match ← node.slots? ["callId", "offer"] with
  | [callId, offer] =>
      return ⟨← callId.lenient Node.word32?, ← offer.required SessionDescription.ofNode?⟩
  | _ => none

end CallOffer

/-- The answer to a call; action 0 refuses it. -/
structure CallAnswer where
  callId : Option UInt32
  action : UInt8
  answer : Option SessionDescription
  rejectReason : Option UInt8
deriving DecidableEq

namespace CallAnswer

def fields (c : CallAnswer) : List (String × Json) :=
  optionalMember "callId" (c.callId.map fun n => Json.ofNat n.toNat) ++
    [("action", Json.ofNat c.action.toNat)] ++
    optionalMember "answer" (c.answer.map SessionDescription.toJson) ++
    optionalMember "rejectReason" (c.rejectReason.map fun n => Json.ofNat n.toNat)

def ofNode? (node : Node) : Option CallAnswer := do
  match ← node.slots? ["callId", "action", "answer", "rejectReason"] with
  | [callId, action, answer, reason] =>
      return ⟨← callId.lenient Node.word32?, ← action.required Node.byte?,
        ← answer.lenient SessionDescription.ofNode?, ← reason.lenient Node.byte?⟩
  | _ => none

end CallAnswer

structure Candidate where
  candidate : String
  mid : Option String
  lineIndex : Option UInt32
  fragment : Option String
deriving DecidableEq

namespace Candidate

def toJson (c : Candidate) : Json :=
  .object ([("candidate", .string c.candidate)] ++ optionalMember "sdpMid" (c.mid.map .string) ++
    optionalMember "sdpMLineIndex" (c.lineIndex.map fun n => Json.ofNat n.toNat) ++
    optionalMember "ufrag" (c.fragment.map .string))

def ofNode? (node : Node) : Option Candidate := do
  match ← node.slots? ["candidate", "sdpMid", "sdpMLineIndex", "ufrag"] with
  | [candidate, mid, index, fragment] =>
      return ⟨← candidate.required Node.text?, ← mid.lenient Node.text?,
        ← index.lenient Node.word32?, ← fragment.lenient Node.text?⟩
  | _ => none

end Candidate

structure CallCandidates where
  callId : Option UInt32
  removed : Bool
  candidates : List Candidate
deriving DecidableEq

namespace CallCandidates

def fields (c : CallCandidates) : List (String × Json) :=
  optionalMember "callId" (c.callId.map fun n => Json.ofNat n.toNat) ++
    [("removed", .bool c.removed), ("candidates", .array (c.candidates.map Candidate.toJson))]

def ofNode? (node : Node) : Option CallCandidates := do
  match ← node.slots? ["callId", "removed", "candidates"] with
  | [callId, removed, candidates] =>
      return ⟨← callId.lenient Node.word32?, ← removed.orElse Node.flag? false,
        ← candidates.required (Node.list? Candidate.ofNode?)⟩
  | _ => none

end CallCandidates

/-- Hanging up and ringing name nothing but the call. -/
structure CallRef where
  callId : Option UInt32
deriving DecidableEq

namespace CallRef

def fields (c : CallRef) : List (String × Json) :=
  optionalMember "callId" (c.callId.map fun n => Json.ofNat n.toNat)

def ofNode? (node : Node) : Option CallRef := do
  match ← node.slots? ["callId"] with
  | [callId] => return ⟨← callId.lenient Node.word32?⟩
  | _ => none

end CallRef

end SecureInbox
