import ChainEconomy.Settings.Value
import ChainEconomy.Text.Blank
import ChainEconomy.Text.Hex

/-! # INI files

A file is a sequence of `key = value` pairs, with `:` as good as `=`, and of section names in
brackets. The pairs in front of the first section stand for themselves, those of a section make up a
table with the name of the section. All values are text: the rest of the line without the blanks
around it, or quoted parts. A comment starts with `;` or `#` in the first column of a line. A
backslash escapes the character behind it everywhere but in comments. -/

namespace ChainEconomy.Settings.Ini

/-- What the character behind a backslash stands for. -/
def unescape (c : Char) : Char :=
  if c = '0' then '\x00'
  else if c = 'a' then '\x07'
  else if c = 'b' then '\x08'
  else if c = 't' then '\t'
  else if c = 'r' then '\r'
  else if c = 'n' then '\n'
  else c

/-- Reads the code point of an escape, written with four hexadecimal digits. -/
def readCodePoint (cs : List Char) : Option (List Char × List Char) :=
  let digits := (cs.take 4).mapM fun c =>
    if c.toNat < 128 then Text.Hex.value? (UInt8.ofNat c.toNat) else none
  match digits with
  | none => none
  | some ds =>
    let n := ds.foldl (fun n d => n * 16 + d) 0
    if ds.length = 4 ∧ n.isValidChar then some ([Char.ofNat n], cs.drop 4) else none

/-- Reads an escape whose backslash has been read. At the end of a line it stands for nothing, and
the first character of the next line is left out too. -/
def readEscape : List Char → Option (List Char × List Char)
  | [] => none
  | '\n' :: rest => some ([], rest.drop 1)
  | 'x' :: rest => readCodePoint rest
  | c :: rest => some ([unescape c], rest)

/-- Reads up to a character that stops the reader; whether the text may end before is `mayEnd`. -/
def readUntil (stop : Char → Bool) (mayEnd : Bool) :
    Nat → List Char → Option (List Char × List Char)
  | _, [] => if mayEnd then some ([], []) else none
  | 0, _ => none
  | fuel + 1, c :: rest =>
    if stop c then some ([], c :: rest)
    else
      match if c = '\\' then readEscape rest else some ([c], rest) with
      | none => none
      | some (shown, rest) =>
        match readUntil stop mayEnd fuel rest with
        | none => none
        | some (cs, rest) => some (shown ++ cs, rest)

/-- Whether a character ends a line. -/
def isLineEnd (c : Char) : Bool := c = '\n' || c = '\r'

/-- The text without the blanks at its end. -/
def trimEnd (cs : List Char) : List Char := (cs.reverse.dropWhile Text.isBlank).reverse

/-- Reads a value: quoted parts, and then the rest of the line. -/
def readValue (first : Bool) : Nat → List Char → Option (List Char × List Char)
  | _, [] => some ([], [])
  | 0, _ => none
  | fuel + 1, c :: rest =>
    if c = '"' || c = '\'' then
      match readUntil (· == c) false fuel rest with
      | none => none
      | some (part, rest) =>
        match readValue false fuel (rest.drop 1) with
        | none => none
        | some (cs, rest) => some (part ++ cs, rest)
    else
      match readUntil isLineEnd true (fuel + 1) (c :: rest) with
      | none => none
      | some (part, rest) => some (if first then Text.trim part else trimEnd part, rest)

/-- Whether a character is a blank within a line. -/
def isGap (c : Char) : Bool := Text.isBlank c && !isLineEnd c

/-- A file as far as it has been read: the pairs in front of the sections, and the sections, the
last one first. -/
structure Document where
  pairs : Values
  sections : List (String × Values)

/-- Puts a value under a key of the current section. -/
def Document.add (d : Document) (key value : String) : Document :=
  match d.sections with
  | [] => { d with pairs := d.pairs ++ [(key, .text value)] }
  | s :: rest => { d with sections := (s.1, s.2 ++ [(key, .text value)]) :: rest }

/-- Leaves out blanks; also says whether what comes next stands in the first column of a line. -/
def skipBlanks (firstColumn : Bool) : List Char → Bool × List Char
  | [] => (firstColumn, [])
  | c :: rest =>
    if Text.isBlank c then skipBlanks (c == '\n') rest else (firstColumn, c :: rest)

/-- Reads the pairs and sections of a file. -/
def readParts : Nat → Bool → Document → List Char → Option Document
  | 0, _, _, _ => none
  | fuel + 1, firstColumn, d, cs =>
    match skipBlanks firstColumn cs with
    | (_, []) => some d
    | (firstColumn, c :: rest) =>
      if c = ';' ∨ c = '#' then
        if firstColumn then readParts fuel true d ((rest.dropWhile (· != '\n')).drop 1) else none
      else if c = '[' then
        match readUntil (· == ']') false fuel rest with
        | none => none
        | some (name, rest) =>
          let name := String.ofList (Text.trim name)
          readParts fuel false { d with sections := (name, []) :: d.sections } (rest.drop 1)
      else
        match readUntil (fun c => c == '=' || c == ':') false (fuel + 1) (c :: rest) with
        | none => none
        | some (key, rest) =>
          let key := Text.trim key
          match key.isEmpty, readValue true fuel ((rest.drop 1).dropWhile isGap) with
          | false, some (value, rest) =>
            readParts fuel false (d.add (String.ofList key) (String.ofList value)) rest
          | _, _ => none

/-- The values of a file: the pairs, and over them the sections in turn. -/
def Document.values (d : Document) : Values :=
  Value.lastOfEach
    (d.pairs ++ d.sections.reverse.map fun s => (s.1, Value.table (Value.lastOfEach s.2)))

/-- The values in a file; none if it is not well formed. -/
def read? (text : String) : Option Value :=
  let cs := text.toList
  (readParts (cs.length + 1) true ⟨[], []⟩ cs).map fun d => .table d.values

end ChainEconomy.Settings.Ini
