import ChainEconomy.Json.Reader

/-! # Strings of a configuration

Strings in double quotes have escapes, strings in single quotes have none; either kind may run over
several lines when its mark is tripled. Up to two marks right before the closing three belong to the
string. `fuel` bounds the number of characters read, and the length of the text is always enough. -/

namespace ChainEconomy.Toml

/-- Whether a character may stand in a string or in a comment. -/
def isPlain (c : Char) : Bool := c = '\t' || (Nat.ble 0x20 c.toNat && c.toNat != 0x7f)

/-- Whether a character is a space or a tab. -/
def isBlank (c : Char) : Bool := c = ' ' || c = '\t'

/-- The text from the first character on that is neither a space nor a tab. -/
def skipBlanks (cs : List Char) : List Char := cs.dropWhile isBlank

/-- The text behind a line ending, if it starts with one. -/
def dropNewline? : List Char → Option (List Char)
  | '\n' :: rest => some rest
  | '\r' :: '\n' :: rest => some rest
  | _ => none

/-- The text from the first character on that is no blank and no line ending. -/
def skipLines : List Char → List Char
  | [] => []
  | c :: rest =>
    if c = '\r' then
      match rest with
      | '\n' :: after => skipLines after
      | _ => c :: rest
    else if isBlank c || c = '\n' then skipLines rest
    else c :: rest

/-- The character with a code point; surrogates have none. -/
def charOf? (codePoint : Nat) : Option Char :=
  if codePoint.isValidChar then some (Char.ofNat codePoint) else none

/-- Reads the code point of an escape, written with `count` hexadecimal digits. -/
def readCodePoint (count : Nat) (cs : List Char) : Option (Char × List Char) :=
  match (cs.take count).mapM Json.hexValue? with
  | none => none
  | some ds =>
    if ds.length ≠ count then none
    else (charOf? (ds.foldl (fun n d => n * 16 + d) 0)).map fun c => (c, cs.drop count)

/-- Reads an escape whose backslash has been read. -/
def readEscape : List Char → Option (Char × List Char)
  | [] => none
  | e :: rest =>
    if e = 'u' then readCodePoint 4 rest
    else if e = 'U' then readCodePoint 8 rest
    else if e = '/' then none
    else (Json.unescape? e).map fun c => (c, rest)

/-- Reads the rest of a string over several lines after one of its marks; none unless it ends here.
-/
def closing? (mark : Char) : List Char → Option (List Char × List Char)
  | a :: b :: rest =>
    if a = mark ∧ b = mark then
      match rest with
      | c :: d :: after =>
        if c = mark then if d = mark then some ([mark, mark], after) else some ([mark], d :: after)
        else some ([], rest)
      | [c] => if c = mark then some ([mark], []) else some ([], rest)
      | [] => some ([], [])
    else none
  | _ => none

/-- The text behind a backslash at the end of a line, up to where the string goes on. -/
def joinLines? (cs : List Char) : Option (List Char) :=
  (dropNewline? (skipBlanks cs)).map skipLines

/-- A character in front of the string read after it. -/
def consRead (c : Char) (read : Option (List Char × List Char)) : Option (List Char × List Char) :=
  read.map fun r => (c :: r.1, r.2)

/-- Reads a string in double quotes whose opening mark has been read. -/
def readBasic (multiline : Bool) : Nat → List Char → Option (List Char × List Char)
  | 0, _ => none
  | _ + 1, [] => none
  | fuel + 1, c :: rest =>
    if c = '"' then
      if multiline then
        match closing? '"' rest with
        | some done => some done
        | none => consRead '"' (readBasic multiline fuel rest)
      else some ([], rest)
    else if c = '\\' then
      match if multiline then joinLines? rest else none with
      | some rest => readBasic multiline fuel rest
      | none =>
        match readEscape rest with
        | none => none
        | some (c, rest) => consRead c (readBasic multiline fuel rest)
    else if isPlain c then consRead c (readBasic multiline fuel rest)
    else
      match if multiline then dropNewline? (c :: rest) else none with
      | some rest => consRead '\n' (readBasic multiline fuel rest)
      | none => none

/-- Reads a string in single quotes whose opening mark has been read. -/
def readLiteral (multiline : Bool) : Nat → List Char → Option (List Char × List Char)
  | 0, _ => none
  | _ + 1, [] => none
  | fuel + 1, c :: rest =>
    if c = '\'' then
      if multiline then
        match closing? '\'' rest with
        | some done => some done
        | none => consRead '\'' (readLiteral multiline fuel rest)
      else some ([], rest)
    else if isPlain c then consRead c (readLiteral multiline fuel rest)
    else
      match if multiline then dropNewline? (c :: rest) else none with
      | some rest => consRead '\n' (readLiteral multiline fuel rest)
      | none => none

/-- The text behind the line ending right after an opening mark. -/
def dropFirstNewline (cs : List Char) : List Char := (dropNewline? cs).getD cs

/-- Reads a string, its marks included. -/
def readString (cs : List Char) : Option (String × List Char) :=
  let fuel := cs.length + 1
  let result :=
    match cs with
    | '"' :: '"' :: '"' :: rest => readBasic true fuel (dropFirstNewline rest)
    | '"' :: rest => readBasic false fuel rest
    | '\'' :: '\'' :: '\'' :: rest => readLiteral true fuel (dropFirstNewline rest)
    | '\'' :: rest => readLiteral false fuel rest
    | _ => none
  result.map fun r => (String.ofList r.1, r.2)

example : readString "\"a\\tb\" x".toList = some ("a\tb", " x".toList) := by decide +kernel
example : readString "'''it''s'''''".toList = some ("it''s''", []) := by decide +kernel
example : readString "\"\"\"\na\\\n  b\"\"\"".toList = some ("ab", []) := by decide +kernel

end ChainEconomy.Toml
