import ChainEconomy.Json.Basic
import ChainEconomy.KeyOrder

/-! # Writing JSON

Two layouts of one text: `render` without any space, and `renderPretty` with one item a line, an
indent of two spaces for each level and `[]`, `{}` for what is empty. In strings the quotation mark,
the backslash and the control characters are escaped, everything else stands for itself. -/

namespace ChainEconomy.Json

/-- The escape of a character inside a string, or the character itself. -/
def escapeChar (c : Char) : List Char :=
  if c = '"' then ['\\', '"']
  else if c = '\\' then ['\\', '\\']
  else if c = '\x08' then ['\\', 'b']
  else if c = '\t' then ['\\', 't']
  else if c = '\n' then ['\\', 'n']
  else if c = '\x0c' then ['\\', 'f']
  else if c = '\r' then ['\\', 'r']
  else if c.toNat < 0x20 then
    ['\\', 'u', '0', '0', Text.Hex.digit (c.toNat / 16), Text.Hex.digit (c.toNat % 16)]
  else [c]

/-- A string in quotation marks. -/
def renderString (s : String) : List Char := '"' :: s.toList.flatMap escapeChar ++ ['"']

/-- A whole number. -/
def renderInteger : Int → List Char
  | .ofNat n => Text.decimal n
  | .negSucc n => '-' :: Text.decimal (n + 1)

/-- Digits with a point behind the first and an exponent with its sign. -/
def scientific (digits : List Char) (exponent : Int) : List Char :=
  let sign := if exponent < 0 then '-' else '+'
  let fraction := if digits.tail.isEmpty then [] else '.' :: digits.tail
  digits.take 1 ++ fraction ++ 'e' :: sign :: Text.decimal exponent.natAbs

/-- A floating-point number in its shortest form, a tie going to the even digit. From `10^-5` up to
`10^16` it is written out, with `.0` if it is whole; smaller and larger ones have an exponent. -/
def renderReal (negative : Bool) (magnitude : Binary64) : List Char :=
  let (digits, power) := magnitude.shortest .even
  let ds := Text.decimal digits
  let exponent : Int := power + ds.length - 1
  let text :=
    if exponent < -5 ∨ 16 ≤ exponent then scientific ds exponent
    else
      let text := Binary64.positional digits power
      if text.contains '.' then text else text ++ ['.', '0']
  if negative then '-' :: text else text

/-- A value that holds no other values; what is unreadable has no text of its own. -/
def renderLeaf : Json → List Char
  | .null => ['n', 'u', 'l', 'l']
  | .bool true => ['t', 'r', 'u', 'e']
  | .bool false => ['f', 'a', 'l', 's', 'e']
  | .integer n => renderInteger n
  | .real negative magnitude => renderReal negative magnitude
  | .string s => renderString s
  | .array _ => ['[', ']']
  | .object _ => ['\x7b', '\x7d']
  | .unreadable => ['n', 'u', 'l', 'l']

mutual

/-- The text of a value without spaces. -/
def renderChars : Json → List Char
  | .array [] => ['[', ']']
  | .array (item :: rest) => '[' :: renderChars item ++ renderRest rest ++ [']']
  | .object [] => ['\x7b', '\x7d']
  | .object ((name, value) :: rest) =>
    '\x7b' :: renderString name ++ ':' :: renderChars value ++ renderFields rest ++ ['\x7d']
  | leaf => renderLeaf leaf

/-- The items of a list after the first, each behind a comma. -/
def renderRest : List Json → List Char
  | [] => []
  | item :: rest => ',' :: renderChars item ++ renderRest rest

/-- The fields of an object after the first, each behind a comma. -/
def renderFields : List (String × Json) → List Char
  | [] => []
  | (name, value) :: rest =>
    ',' :: renderString name ++ ':' :: renderChars value ++ renderFields rest

end

/-- The text of a value without spaces. -/
def render (j : Json) : String := String.ofList (renderChars j)

/-- A new line, indented to a level. -/
def newLine (level : Nat) : List Char := '\n' :: List.replicate (2 * level) ' '

mutual

/-- The text of a value that stands at a level of indentation. -/
def prettyChars (level : Nat) : Json → List Char
  | .array [] => ['[', ']']
  | .array (item :: rest) =>
    '[' :: newLine (level + 1) ++ prettyChars (level + 1) item ++ prettyRest (level + 1) rest ++
      newLine level ++ [']']
  | .object [] => ['\x7b', '\x7d']
  | .object ((name, value) :: rest) =>
    '\x7b' :: newLine (level + 1) ++ renderString name ++ ':' :: ' ' ::
      prettyChars (level + 1) value ++ prettyFields (level + 1) rest ++ newLine level ++ ['\x7d']
  | leaf => renderLeaf leaf

/-- The items of a list after the first, each on a line of its own. -/
def prettyRest (level : Nat) : List Json → List Char
  | [] => []
  | item :: rest => ',' :: newLine level ++ prettyChars level item ++ prettyRest level rest

/-- The fields of an object after the first, each on a line of its own. -/
def prettyFields (level : Nat) : List (String × Json) → List Char
  | [] => []
  | (name, value) :: rest =>
    ',' :: newLine level ++ renderString name ++ ':' :: ' ' :: prettyChars level value ++
      prettyFields level rest

end

/-- The text of a value, one item a line. -/
def renderPretty (j : Json) : String := String.ofList (prettyChars 0 j)

/-! ## Fields in alphabetical order -/

/-- Puts a field in front of the first one with a larger name. -/
def insertField (f : String × Json) : List (String × Json) → List (String × Json)
  | [] => [f]
  | g :: rest =>
    if KeyOrder.cmp f.1 g.1 = .gt then g :: insertField f rest else f :: g :: rest

mutual

/-- The same value with the fields of every object in ascending order of their names. -/
def sortFields : Json → Json
  | .array items => .array (sortItems items)
  | .object fields => .object (sortedFields fields)
  | leaf => leaf

/-- A list of values, each with its fields in order. -/
def sortItems : List Json → List Json
  | [] => []
  | item :: rest => sortFields item :: sortItems rest

/-- The fields of an object in ascending order, their values in order too. -/
def sortedFields : List (String × Json) → List (String × Json)
  | [] => []
  | (name, value) :: rest => insertField (name, sortFields value) (sortedFields rest)

end

example : render (.object [("a", .array [.integer 1, .null]), ("b", .string "x\n\"")]) =
    "\x7b\"a\":[1,null],\"b\":\"x\\n\\\"\"\x7d" := by decide +kernel

end ChainEconomy.Json
