import SecureInbox.Message.Body
import SecureInbox.Number.Reading
import SecureInbox.Text.Blank
import SecureInbox.Wire.Error

/-! # Location text

The first line holds latitude, longitude and, if known, the accuracy, parted by
commas.  With one more line, that is the address; with two or more, the first of
them is the name of the place and the rest the address. -/
set_option autoImplicit false

namespace SecureInbox.Location

def lineBreak : List Char := ['\n']

/-- Lines joined by line feeds. -/
def joinLines : List (List Char) → List Char
  | [] => []
  | [line] => line
  | line :: rest => line ++ lineBreak ++ joinLines rest

def coordinate (cs : List Char) : Except DecodeError Binary64 :=
  match Binary64.ofText? cs with
  | some x => .ok x
  | none => .error (.invalidField (.notANumber (String.ofList cs)))

/-- The name and the address that the lines after the first stand for. -/
def placeOfLines : List (List Char) → Option String × Option String
  | [] => (none, none)
  | [address] => (none, some (String.ofList address))
  | name :: address => (some (String.ofList name), some (String.ofList (joinLines address)))

def parse (text : String) : Except DecodeError Location :=
  match Text.lines text.toList with
  | [] => .error .empty
  | first :: rest => do
    let (name, address) := placeOfLines rest
    match (Text.splitOn ',' first).map Text.trimChars with
    | [latitude, longitude] =>
      return ⟨← coordinate latitude, ← coordinate longitude, none, name, address⟩
    | [latitude, longitude, accuracy] =>
      return ⟨← coordinate latitude, ← coordinate longitude, some (← coordinate accuracy),
        name, address⟩
    | _ => throw (.invalidField (.badCoordinates (String.ofList first)))

/-- The lines after the first.  A name without an address is followed by an empty
line, which keeps it apart from an address. -/
def placeText : Option String → Option String → String
  | none, none => ""
  | none, some address => "\n" ++ address
  | some name, address => "\n" ++ name ++ "\n" ++ address.getD ""

def render (l : Location) : String :=
  let accuracy :=
    match l.accuracy with
    | some a => "," ++ a.plainText
    | none => ""
  l.latitude.plainText ++ "," ++ l.longitude.plainText ++ accuracy ++ placeText l.name l.address

end SecureInbox.Location
