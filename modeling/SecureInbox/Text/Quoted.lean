import SecureInbox.Text.Hidden

/-! # Quoted text

`quoted` writes a text between double quotes for a reader of messages: quotes
and backslashes are escaped, the common controls have letters, and every other
character without a glyph is written by its number. -/
set_option autoImplicit false

namespace SecureInbox.Text

/-- A number in lower-case hexadecimal without leading zeros. -/
def hexNumber (n : Nat) : String := String.ofList (Nat.toDigits 16 n)

/-- A character by number, as `\\u` and its digits in braces. -/
def escapeByNumber (c : Char) : String := "\\u\x7b" ++ hexNumber c.toNat ++ "\x7d"

def quoteChar (c : Char) : String :=
  match c with
  | '\x00' => "\\0"
  | '\t' => "\\t"
  | '\r' => "\\r"
  | '\n' => "\\n"
  | '\\' => "\\\\"
  | '"' => "\\\""
  | c => if isHidden c then escapeByNumber c else c.toString

def quoted (text : String) : String :=
  "\"" ++ String.join (text.toList.map quoteChar) ++ "\""

end SecureInbox.Text
