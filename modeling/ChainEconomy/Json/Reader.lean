import ChainEconomy.Json.Number
import ChainEconomy.Text.Hex

/-! # Reading JSON

A strict reader: the blanks are space, tab, line feed and carriage return, numbers have no leading
zeros and strings hold no raw control characters. What keeps to these rules and still stands for no
value, such as half of a surrogate pair, becomes unreadable and does not stop the reader. Every
reader takes the characters still to come and returns those it leaves; `fuel` bounds the number of
steps, and the length of the text is always enough. -/

namespace ChainEconomy.Json

/-- Whether a character may stand between the parts of a text. -/
def isSpace (c : Char) : Bool := c = ' ' || c = '\t' || c = '\n' || c = '\r'

/-- The text from the first character on that is no space. -/
def skipSpace (cs : List Char) : List Char := cs.dropWhile isSpace

/-- The value of a hexadecimal digit. -/
def hexValue? (c : Char) : Option Nat :=
  if c.toNat < 128 then Text.Hex.value? (UInt8.ofNat c.toNat) else none

/-- The number written with four hexadecimal digits. -/
def codeUnit? (a b c d : Char) : Option Nat :=
  match hexValue? a, hexValue? b, hexValue? c, hexValue? d with
  | some a, some b, some c, some d => some (a * 4096 + b * 256 + c * 16 + d)
  | _, _, _, _ => none

/-- Whether a code unit is the first half of a pair. -/
def isHighSurrogate (u : Nat) : Bool := Nat.ble 0xD800 u && Nat.ble u 0xDBFF

/-- Whether a code unit is the second half of a pair. -/
def isLowSurrogate (u : Nat) : Bool := Nat.ble 0xDC00 u && Nat.ble u 0xDFFF

/-- The character that a backslash and a letter stand for. -/
def unescape? (c : Char) : Option Char :=
  if c = '"' then some '"'
  else if c = '\\' then some '\\'
  else if c = '/' then some '/'
  else if c = 'b' then some '\x08'
  else if c = 'f' then some '\x0c'
  else if c = 'n' then some '\n'
  else if c = 'r' then some '\r'
  else if c = 't' then some '\t'
  else none

/-- What the characters of a string stand for and the characters behind the string; there is no text
when one of them stands for none. -/
abbrev StringRead := Option (Option (List Char) × List Char)

/-- A character in front of the string read after it. -/
def consRead (c : Char) : StringRead → StringRead
  | none => none
  | some (text, rest) => some (text.map (c :: ·), rest)

/-- Something that stands for no character in front of the string read after it. -/
def spoilRead : StringRead → StringRead
  | none => none
  | some (_, rest) => some (none, rest)

/-- What is read behind a code unit that was the first half of a pair, if there was one: its second
half is not there. -/
def behindHalf : Option Nat → StringRead → StringRead
  | none, read => read
  | some _, read => spoilRead read

/-- The character that two halves make up. -/
def joinHalves (high low : Nat) : Char :=
  Char.ofNat (0x10000 + (high - 0xD800) * 1024 + (low - 0xDC00))

/-- Reads a string whose opening quotation mark has been read; `half` is the code unit just before
if that was the first half of a pair. -/
def readString (half : Option Nat) : List Char → StringRead
  | [] => none
  | q :: rest =>
    if q = '"' then behindHalf half (some (some [], rest))
    else if q = '\\' then
      match rest with
      | [] => none
      | e :: rest =>
        if e = 'u' then
          match rest with
          | a :: b :: c :: d :: rest =>
            match codeUnit? a b c d with
            | none => none
            | some u =>
              if isLowSurrogate u then
                match half with
                | some high => consRead (joinHalves high u) (readString none rest)
                | none => spoilRead (readString none rest)
              -- The first half of a pair stands for nothing until the second one comes.
              else if isHighSurrogate u then behindHalf half (readString (some u) rest)
              else behindHalf half (consRead (Char.ofNat u) (readString none rest))
          | _ => none
        else
          match unescape? e with
          | none => none
          | some c => behindHalf half (consRead c (readString none rest))
    -- Control characters have to be written as escapes.
    else if q.toNat < 0x20 then none
    else behindHalf half (consRead q (readString none rest))

/-- Splits off the digits in front. -/
def spanDigits (cs : List Char) : List Char × List Char :=
  (cs.takeWhile Char.isDigit, cs.dropWhile Char.isDigit)

/-- Reads the fraction of a number: nothing, or a point and at least one digit. -/
def readFraction : List Char → Option (Option (List Char) × List Char)
  | [] => some (none, [])
  | c :: rest =>
    if c = '.' then
      match spanDigits rest with
      | ([], _) => none
      | (digits, rest) => some (some digits, rest)
    else some (none, c :: rest)

/-- Reads the digits of an exponent whose sign has been read. -/
def readExponentDigits (negative : Bool) (cs : List Char) :
    Option (Option (Bool × List Char) × List Char) :=
  match spanDigits cs with
  | ([], _) => none
  | (digits, rest) => some (some (negative, digits), rest)

/-- Reads the exponent of a number: nothing, or `e`, a sign that may be missing, and digits. -/
def readExponent : List Char → Option (Option (Bool × List Char) × List Char)
  | [] => some (none, [])
  | c :: rest =>
    if c = 'e' ∨ c = 'E' then
      match rest with
      | [] => none
      | s :: digits =>
        if s = '-' then readExponentDigits true digits
        else if s = '+' then readExponentDigits false digits
        else readExponentDigits false (s :: digits)
    else some (none, c :: rest)

/-- Reads the parts of a number after its sign. -/
def readUnsigned (negative : Bool) (cs : List Char) : Option (Literal × List Char) :=
  match spanDigits cs with
  | ([], _) => none
  | (whole, rest) =>
    -- A whole part of several digits does not begin with a zero.
    if whole.length ≠ 1 ∧ whole.head? = some '0' then none
    else
      match readFraction rest with
      | none => none
      | some (fraction, rest) =>
        match readExponent rest with
        | none => none
        | some (exponent, rest) => some (⟨negative, whole, fraction, exponent⟩, rest)

/-- Reads a number. -/
def readNumber (cs : List Char) : Option (Json × List Char) :=
  let literal :=
    match cs with
    | '-' :: rest => readUnsigned true rest
    | cs => readUnsigned false cs
  match literal with
  | none => none
  | some (l, rest) =>
    -- A number that is too large is well formed, and refused only where it is looked at.
    some (l.value.getD .unreadable, rest)

/-- Reads a fixed word, of which the first letter has been seen. -/
def readWord (word : List Char) (j : Json) (cs : List Char) : Option (Json × List Char) :=
  if word.isPrefixOf cs then some (j, cs.drop word.length) else none

/-- How deeply lists and objects may be nested in one another. -/
def maxDepth : Nat := 127

/-- A list or an object, in which `room` more levels may be nested; without room it is unreadable.
-/
def within (room : Nat) (j : Json) : Json := if room = 0 then .unreadable else j

/-- A name and its value; the name may be unreadable. -/
abbrev Member := Option (List Char) × Json

/-- The object with the given members; a name that is unreadable makes it unreadable. -/
def ofMembers (members : List Member) : Json :=
  match members.mapM fun m => m.1.map fun name => (String.ofList name, m.2) with
  | some fields => .object fields
  | none => .unreadable

mutual

/-- Reads a value, blanks before it included, in which lists and objects may be nested `room` levels
deep. -/
def readValue (room : Nat) : Nat → List Char → Option (Json × List Char)
  | 0, _ => none
  | fuel + 1, cs =>
    match skipSpace cs with
    | [] => none
    | c :: rest =>
      if c = '"' then
        match readString none rest with
        | none => none
        | some (text, rest) =>
          some ((text.map fun s => Json.string (String.ofList s)).getD .unreadable, rest)
      else if c = '[' then
        match skipSpace rest with
        | [] => none
        | d :: after =>
          if d = ']' then some (within room (.array []), after)
          else
            match readItems (room - 1) fuel rest with
            | none => none
            | some (items, rest) => some (within room (.array items), rest)
      else if c = '\x7b' then
        match skipSpace rest with
        | [] => none
        | d :: after =>
          if d = '\x7d' then some (within room (.object []), after)
          else
            match readMembers (room - 1) fuel rest with
            | none => none
            | some (members, rest) => some (within room (ofMembers members), rest)
      else if c = 'n' then readWord ['n', 'u', 'l', 'l'] .null (c :: rest)
      else if c = 't' then readWord ['t', 'r', 'u', 'e'] (.bool true) (c :: rest)
      else if c = 'f' then readWord ['f', 'a', 'l', 's', 'e'] (.bool false) (c :: rest)
      else readNumber (c :: rest)

/-- Reads the items of a list up to its closing bracket. -/
def readItems (room : Nat) : Nat → List Char → Option (List Json × List Char)
  | 0, _ => none
  | fuel + 1, cs =>
    match readValue room fuel cs with
    | none => none
    | some (item, rest) =>
      match skipSpace rest with
      | [] => none
      | c :: rest =>
        if c = ']' then some ([item], rest)
        else if c = ',' then
          match readItems room fuel rest with
          | none => none
          | some (items, rest) => some (item :: items, rest)
        else none

/-- Reads the members of an object up to its closing brace. -/
def readMembers (room : Nat) : Nat → List Char → Option (List Member × List Char)
  | 0, _ => none
  | fuel + 1, cs =>
    match skipSpace cs with
    | [] => none
    | q :: rest =>
      if q ≠ '"' then none
      else
        match readString none rest with
        | none => none
        | some (name, rest) =>
          match skipSpace rest with
          | [] => none
          | colon :: rest =>
            if colon ≠ ':' then none
            else
              match readValue room fuel rest with
              | none => none
              | some (value, rest) =>
                match skipSpace rest with
                | [] => none
                | c :: rest =>
                  if c = '\x7d' then some ([(name, value)], rest)
                  else if c = ',' then
                    match readMembers room fuel rest with
                    | none => none
                    | some (members, rest) => some ((name, value) :: members, rest)
                  else none

end

/-- Reads the value that a text starts with. -/
def readFirst? (cs : List Char) : Option (Json × List Char) :=
  readValue maxDepth (2 * cs.length + 2) cs

/-- The value that a text holds; none when the text is not well formed or holds anything else. -/
def read? (cs : List Char) : Option Json :=
  match readFirst? cs with
  | none => none
  | some (j, rest) => if (skipSpace rest).isEmpty then some j else none

end ChainEconomy.Json
