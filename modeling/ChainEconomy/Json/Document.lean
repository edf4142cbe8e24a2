import ChainEconomy.Json.Fault
import ChainEconomy.Json.Reader
import ChainEconomy.Text.Utf8

/-! # JSON documents

A text that holds one value of some type and nothing else. The value is read before the text behind
it is looked at, so that of two refusals the value's own is reported. -/

namespace ChainEconomy.Json

/-- Reads the value that a text holds. -/
def decodeChars {α : Type} (decode : Json → Except Fault α) (cs : List Char) : Except Fault α :=
  match readFirst? cs with
  | none => .error (.at .malformed)
  | some (j, rest) =>
    match decode j with
    | .error fault => .error fault
    | .ok a => if (skipSpace rest).isEmpty then .ok a else .error (.at .malformed)

/-- Reads the value that a text holds. -/
def decodeText {α : Type} (decode : Json → Except Fault α) (text : String) : Except Fault α :=
  decodeChars decode text.toList

/-- What a byte that belongs to no character is read as. Like such a byte, it may stand inside a
string only, neither behind a backslash nor in an escape, and the string is then unreadable. -/
def strayByte : List Char := ['x', '\\', 'u', 'd', 'c', '0', '0']

/-- Reads the value that a text in bytes holds. -/
def decodeBytes {α : Type} (decode : Json → Except Fault α) (bytes : Bytes) : Except Fault α :=
  decodeChars decode (Text.Utf8.decodeWith strayByte bytes)

end ChainEconomy.Json
