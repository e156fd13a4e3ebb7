import SecureInbox.Bytes.Hex
import SecureInbox.Session.Version
import SecureInbox.Text.Quoted

/-! # Failures of decoding

One constructor for each way in which received bytes are not what they should be;
the wording stands in `message`. -/
set_option autoImplicit false

namespace SecureInbox

/-- What is wrong with the padding of a plaintext. -/
inductive PaddingError where
  | emptyPlaintext
  | badLength (length total : Nat)
  | inconsistent
  | missingType
deriving DecidableEq

def PaddingError.message : PaddingError → String
  | .emptyPlaintext => "Invalid padding: empty plaintext"
  | .badLength length total =>
      "Invalid padding: pad length " ++ toString length ++ " for " ++ toString total ++ " bytes"
  | .inconsistent => "Invalid padding: inconsistent padding bytes"
  | .missingType => "Missing type byte"

/-- A field whose bytes are there but mean nothing. -/
inductive FieldFault where
  | unknownByte (field : String) (b : UInt8)
  | notMultiple (field : String) (length unit : Nat)
  | invertedRange (min max : Version)
  | badCoordinates (line : String)
  | notANumber (text : String)
deriving DecidableEq

namespace FieldFault

def field : FieldFault → String
  | .unknownByte field _ => field
  | .notMultiple field _ _ => field
  | .invertedRange _ _ => "version_range"
  | .badCoordinates _ => "location"
  | .notANumber _ => "location"

def reason : FieldFault → String
  | .unknownByte _ b => Hex.byteText b
  | .notMultiple _ length unit =>
      toString length ++ " bytes is not a multiple of " ++ toString unit
  | .invertedRange min max => min.text ++ " > " ++ max.text
  | .badCoordinates line => "bad coordinates " ++ Text.quoted line
  | .notANumber text => "not a number: " ++ Text.quoted text

end FieldFault

inductive DecodeError where
  | truncated (what : String) (need got : Nat)
  | invalidIdentity (text : String)
  | invalidUtf8 (what : String)
  | invalidJson
  | invalidField (fault : FieldFault)
  | empty
  | padding (error : PaddingError)
deriving DecidableEq

namespace DecodeError

def message : DecodeError → String
  | .truncated what need got =>
      "body too short for " ++ what ++ ": need " ++ toString need ++ " bytes, got " ++ toString got
  | .invalidIdentity text => "invalid identity: " ++ Text.quoted text
  | .invalidUtf8 what => "invalid UTF-8 in " ++ what
  | .invalidJson => "invalid JSON"
  | .invalidField fault => "invalid field " ++ fault.field ++ ": " ++ fault.reason
  | .empty => "empty body"
  | .padding error => "codec: " ++ error.message

end DecodeError

end SecureInbox
