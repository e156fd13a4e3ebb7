import SecureInbox.Json.Basic

/-! # Parsed JSON texts

A `Node` is what a JSON text says before it is asked for anything.  A scalar
that follows the grammar but denotes nothing, such as a lone surrogate or a
number past every double, is kept as `none`: a reader that skips it is not
disturbed, and one that needs it fails.  Members keep their order and their
repetitions.

`Node.value?` gives the value of a whole node.  `Node.slots?` takes a node apart
as a record: an object by the names of its members, or an array by position. -/
set_option autoImplicit false

namespace SecureInbox.Json

inductive Node where
  | null
  | bool (value : Bool)
  | number (value : Option Number)
  | string (value : Option String)
  | array (items : List Node)
  | object (members : List (Option String × Node))

/-- How many brackets and braces a text may have open at once, and one more. -/
def nestingLimit : Nat := 128

namespace Node

mutual
/-- The value of a node inside at most `room - 1` further levels. -/
def value? (room : Nat) : Node → Option Json
  | .null => some .null
  | .bool b => some (.bool b)
  | .number n => n.map .number
  | .string s => s.map .string
  | .array items => if 1 < room then (values? (room - 1) items).map .array else none
  | .object members =>
      if 1 < room then (memberValues? (room - 1) members).map ofMembers else none

def values? (room : Nat) : List Node → Option (List Json)
  | [] => some []
  | item :: rest => do
      let value ← item.value? room
      let values ← values? room rest
      return value :: values

def memberValues? (room : Nat) : List (Option String × Node) → Option (List (String × Json))
  | [] => some []
  | (name?, node) :: rest => do
      let name ← name?
      let value ← node.value? room
      let values ← memberValues? room rest
      return (name, value) :: values
end

mutual
/-- Whether every scalar of a node denotes something, inside the given room. -/
def isSound (room : Nat) : Node → Bool
  | .null => true
  | .bool _ => true
  | .number n => n.isSome
  | .string s => s.isSome
  | .array items => 1 < room && areSound (room - 1) items
  | .object members => 1 < room && membersSound (room - 1) members

def areSound (room : Nat) : List Node → Bool
  | [] => true
  | item :: rest => item.isSound room && areSound room rest

def membersSound (room : Nat) : List (Option String × Node) → Bool
  | [] => true
  | (name?, node) :: rest => name?.isSome && node.isSound room && membersSound room rest
end

mutual
/-- The node that denotes a given value. -/
def ofValue : Json → Node
  | .null => .null
  | .bool b => .bool b
  | .number n => .number (some n)
  | .string s => .string (some s)
  | .array items => .array (ofValues items)
  | .object members => .object (ofMemberValues members)

def ofValues : List Json → List Node
  | [] => []
  | item :: rest => ofValue item :: ofValues rest

def ofMemberValues : List (String × Json) → List (Option String × Node)
  | [] => []
  | (name, value) :: rest => (some name, ofValue value) :: ofMemberValues rest
end

mutual
/-- How many brackets and braces of a node are open at once. -/
def depth : Node → Nat
  | .array items => depthOfItems items + 1
  | .object members => depthOfMembers members + 1
  | _ => 0

def depthOfItems : List Node → Nat
  | [] => 0
  | item :: rest => max item.depth (depthOfItems rest)

def depthOfMembers : List (Option String × Node) → Nat
  | [] => 0
  | (_, node) :: rest => max node.depth (depthOfMembers rest)
end

/-- The room that a node takes. -/
def room (node : Node) : Nat := node.depth + 1

/-- The free-form value of a node that is already known to be sound. -/
def anyValue? (node : Node) : Option Json := node.value? node.room

def text? : Node → Option String
  | .string s => s
  | _ => none

def flag? : Node → Option Bool
  | .bool b => some b
  | _ => none

/-- A whole number below the bound. -/
def natural? (bound : Nat) : Node → Option Nat
  | .number (some (.integer i)) => if 0 ≤ i ∧ i < bound then some i.toNat else none
  | _ => none

def byte? (node : Node) : Option UInt8 := (node.natural? UInt8.size).map UInt8.ofNat

def word16? (node : Node) : Option UInt16 := (node.natural? UInt16.size).map UInt16.ofNat

def word32? (node : Node) : Option UInt32 := (node.natural? UInt32.size).map UInt32.ofNat

def word64? (node : Node) : Option UInt64 := (node.natural? UInt64.size).map UInt64.ofNat

/-- A double; whole numbers are rounded to one. -/
def real? : Node → Option Binary64
  | .number (some (.integer i)) => some (Binary64.ofInt i)
  | .number (some (.float x)) => some x
  | _ => none

def list? {α : Type} (read : Node → Option α) : Node → Option (List α)
  | .array items => items.mapM read
  | _ => none

/-- What a record has for one of its fields.  `short` is a field past the end of
an array. -/
inductive Slot where
  | given (node : Node)
  | absent
  | short

/-- The fields of a record in the given order, from an object or an array.  Other
members of an object are skipped; a repeated field and an array with too many
items are refused. -/
def slots? (names : List String) : Node → Option (List Slot)
  | .array items =>
      if items.length ≤ names.length then
        some (items.map .given ++ List.replicate (names.length - items.length) .short)
      else none
  | .object members => do
      let named ← members.mapM fun m => m.1.map fun name => (name, m.2)
      names.mapM fun name =>
        match named.filter fun m => m.1 = name with
        | [] => some .absent
        | [m] => some (.given m.2)
        | _ => none
  | _ => none

namespace Slot

def required {α : Type} (read : Node → Option α) : Slot → Option α
  | .given node => read node
  | _ => none

/-- A field that may be missing from an object, or `null`. -/
def optional {α : Type} (read : Node → Option α) : Slot → Option (Option α)
  | .given .null => some none
  | .given node => (read node).map some
  | .absent => some none
  | .short => none

/-- A field that may also be past the end of an array. -/
def lenient {α : Type} (read : Node → Option α) : Slot → Option (Option α)
  | .short => some none
  | slot => slot.optional read

/-- A field with a value for when it is missing. -/
def orElse {α : Type} (read : Node → Option α) (fallback : α) : Slot → Option α
  | .given node => read node
  | _ => some fallback

end Slot

/-- One of some names, as a string or as an object with that single member.  The
member holds `null`, or an empty object when that is allowed. -/
def choice? {α : Type} (emptyAllowed : Bool) (named? : String → Option α) : Node → Option α
  | .string (some s) => named? s
  | .object [(some s, .null)] => named? s
  | .object [(some s, .object [])] => if emptyAllowed then named? s else none
  | _ => none

/-- A record told apart by the member `tag`: its tag and the rest of it.  In an
array the tag comes first. -/
def tagged? (tag : String) : Node → Option (Node × Node)
  | .array (first :: rest) => some (first, .array rest)
  | .object members =>
      match members.filter fun m => m.1 = some tag with
      | [m] => some (m.2, .object (members.filter fun m => m.1 ≠ some tag))
      | _ => none
  | _ => none

end Node

end SecureInbox.Json
