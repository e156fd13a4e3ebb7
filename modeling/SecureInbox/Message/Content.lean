import SecureInbox.Message.Basic
import SecureInbox.Text.Blank
import SecureInbox.Text.Utf8

/-! # Content that makes sense

A body can be well-formed and still say nothing: blank text, a place off the
globe, a receipt for no message.  `Message.hasValidContent` refuses those, within
limits that settings may lower. -/
set_option autoImplicit false

namespace SecureInbox

structure ContentLimits where
  textBytes : Nat
  groupNameBytes : Nat
deriving DecidableEq

namespace ContentLimits

/-- The most bytes a text message may take. -/
def maxTextBytes : Nat := 7000

def maxGroupNameBytes : Nat := 256

def standard : ContentLimits := ⟨maxTextBytes, maxGroupNameBytes⟩

end ContentLimits

/-- Some character is not blank and the text is not too long. -/
def validText (limits : ContentLimits) (text : String) : Bool :=
  text.toList.any (fun c => !Text.isBlank c) && Text.size text ≤ limits.textBytes

def Location.isOnGlobe (l : Location) : Bool :=
  let within (x : Binary64) (bound : Int) : Bool :=
    x.isFinite && (Binary64.ofInt (-bound)).le x && x.le (Binary64.ofInt bound)
  within l.latitude 90 && within l.longitude 180 &&
    match l.accuracy with
    | none => true
    | some a => a.isFinite && (Binary64.ofInt 0).le a

/-- Neither `null` nor an empty string, list or object. -/
def validJson : Json → Bool
  | .null => false
  | .object members => !members.isEmpty
  | .array items => !items.isEmpty
  | .string s => !s.isEmpty
  | _ => true

namespace Body

def hasValidContent (limits : ContentLimits) : Body → Bool
  | .text _ t => validText limits t
  | .edit _ _ t => validText limits t
  | .location _ l => l.isOnGlobe
  | .contactSetPhoto p => 0 < p.size
  | .groupSetPhoto _ p => 0 < p.size
  | .image i => 0 < i.size
  | .groupImage _ i => 0 < i.size
  | .video _ v => 0 < v.size
  | .audio _ a => 0 < a.size
  | .ballotCreate _ _ ballot => validJson ballot
  | .ballotVote _ _ _ votes => validJson votes
  | .file _ f => validJson f
  | .groupCallStart _ call => validJson call
  | .groupRename _ name => Text.size name ≤ limits.groupNameBytes
  | .receipt _ _ ids => !ids.isEmpty
  | .reaction _ _ _ emoji => !emoji.isEmpty
  | .callOffer offer => !offer.offer.sdp.isEmpty
  | .callAnswer answer =>
      answer.action == 0 || (answer.answer.map fun d => !d.sdp.isEmpty).getD false
  | .callCandidates c => !c.candidates.isEmpty
  | .authToken token => !token.isEmpty
  | _ => true

end Body

def Message.hasValidContent (limits : ContentLimits) (m : Message) : Bool :=
  m.body.hasValidContent limits

end SecureInbox
