import ChainEconomy.Json.Reader
import ChainEconomy.Settings.Value

/-! # RON files

Object notation with named and nameless structures. A structure with named fields is a table, and so
is a map; lists and structures without field names are lists. `Some` adds nothing to its value, and
`None`, `()` and a bare name say that there is no value. -/

namespace ChainEconomy.Settings.Ron

/-- Whether a character may stand between the parts of a file. -/
def isSpace (c : Char) : Bool := c = ' ' || c = '\t' || c = '\n' || c = '\r'

/-- The text behind the end of a comment, in which further comments may be nested. -/
def afterComment? : Nat → List Char → Option (List Char)
  | _, [] => none
  | depth, '/' :: '*' :: rest => afterComment? (depth + 1) rest
  | 0, '*' :: '/' :: rest => some rest
  | depth + 1, '*' :: '/' :: rest => afterComment? depth rest
  | depth, _ :: rest => afterComment? depth rest

/-- Leaves out spaces and comments. -/
def skipGaps : Nat → List Char → List Char
  | 0, cs => cs
  | fuel + 1, cs =>
    match cs.dropWhile isSpace with
    | '/' :: '/' :: rest => skipGaps fuel (rest.dropWhile (· != '\n'))
    | '/' :: '*' :: rest =>
      match afterComment? 0 rest with
      | some rest => skipGaps fuel rest
      | none => '/' :: '*' :: rest
    | rest => rest

/-- Leaves out spaces and comments. -/
def skip (cs : List Char) : List Char := skipGaps (cs.length + 1) cs

/-! ## Names and strings -/

/-- Whether a name may start with a character. -/
def isNameStart (c : Char) : Bool := c.isAlpha || c = '_'

/-- Whether a character may belong to a name. -/
def isNameChar (c : Char) : Bool := isNameStart c || c.isDigit

/-- Reads a name. -/
def readName? : List Char → Option (String × List Char)
  | 'r' :: '"' :: _ => none
  | 'r' :: '#' :: rest =>
    match rest.takeWhile isNameChar with
    | [] => none
    | name => some (String.ofList name, rest.dropWhile isNameChar)
  | c :: rest =>
    if isNameStart c then
      some (String.ofList (c :: rest.takeWhile isNameChar), rest.dropWhile isNameChar)
    else none
  | [] => none

/-- The value of hexadecimal digits. -/
def hexValue? (cs : List Char) : Option Nat :=
  if cs.isEmpty then none
  else (cs.mapM Json.hexValue?).map fun ds => ds.foldl (fun n d => n * 16 + d) 0

/-- The character with a code point, if there is one. -/
def charOf? (n : Nat) : Option Char := if n.isValidChar then some (Char.ofNat n) else none

/-- Reads an escape whose backslash has been read. -/
def readEscape : List Char → Option (Char × List Char)
  | '\'' :: rest => some ('\'', rest)
  | '"' :: rest => some ('"', rest)
  | '\\' :: rest => some ('\\', rest)
  | 'n' :: rest => some ('\n', rest)
  | 'r' :: rest => some ('\r', rest)
  | 't' :: rest => some ('\t', rest)
  | '0' :: rest => some ('\x00', rest)
  | 'x' :: a :: b :: rest => ((hexValue? [a, b]).bind charOf?).map fun c => (c, rest)
  | 'u' :: '\x7b' :: rest =>
    let digits := rest.takeWhile (· != '\x7d')
    if 6 < digits.length then none
    else
      match (hexValue? digits).bind charOf?, rest.dropWhile (· != '\x7d') with
      | some c, _ :: rest => some (c, rest)
      | _, _ => none
  | _ => none

/-- Reads a string up to its closing mark. -/
def readString : Nat → List Char → Option (List Char × List Char)
  | 0, _ => none
  | _ + 1, [] => none
  | _ + 1, '"' :: rest => some ([], rest)
  | fuel + 1, c :: rest =>
    match if c = '\\' then readEscape rest else some (c, rest) with
    | none => none
    | some (c, rest) => (readString fuel rest).map fun r => (c :: r.1, r.2)

/-- Reads a string without escapes, which ends with a mark and a number of hash signs. -/
def readRaw (hashes : Nat) : List Char → Option (List Char × List Char)
  | [] => none
  | c :: rest =>
    if c = '"' ∧ (List.replicate hashes '#').isPrefixOf rest then some ([], rest.drop hashes)
    else (readRaw hashes rest).map fun r => (c :: r.1, r.2)

/-- Reads a string or a single character in single quotes. -/
def readText (cs : List Char) : Option (String × List Char) :=
  let read :=
    match cs with
    | '"' :: rest => readString cs.length rest
    | '\'' :: '\\' :: rest =>
      match readEscape rest with
      | some (c, '\'' :: rest) => some ([c], rest)
      | _ => none
    | '\'' :: c :: '\'' :: rest => some ([c], rest)
    | 'r' :: rest =>
      match rest.dropWhile (· == '#') with
      | '"' :: body => readRaw (rest.takeWhile (· == '#')).length body
      | _ => none
    | _ => none
  read.map fun r => (String.ofList r.1, r.2)

/-! ## Numbers -/

/-- Whether a character can belong to a number. -/
def isNumberChar (c : Char) : Bool := c.isAlphanum || c = '_' || c = '.' || c = '+' || c = '-'

/-- A whole number without its sign, in any of four bases; underscores are left out. -/
def magnitude? (cs : List Char) : Option Nat :=
  let value (base : Nat) (ds : List Char) : Option Nat :=
    if ds.head? = some '_' ∨ (ds.filter (· != '_')).isEmpty then none
    else
      match (ds.filter (· != '_')).mapM Json.hexValue? with
      | none => none
      | some ds =>
        if ds.all (Nat.blt · base) then some (ds.foldl (fun n d => n * base + d) 0) else none
  match cs with
  | '0' :: 'x' :: rest => value 16 rest
  | '0' :: 'o' :: rest => value 8 rest
  | '0' :: 'b' :: rest => value 2 rest
  | cs => value 10 cs

/-- The number that a word stands for. -/
def number? (cs : List Char) : Option Value :=
  let (negative, body) := Binary64.Extended.splitSign cs
  match magnitude? body with
  | some n => some (.ofInt (if negative then -n else n))
  | none =>
    match Binary64.Extended.parse? cs with
    | some (.finite negative magnitude) => some (.real (.finite negative magnitude))
    | _ => none

/-! ## Values -/

/-- Whether a structure, of which the opening bracket has been read, has named fields. -/
def hasFieldNames (cs : List Char) : Bool :=
  match readName? cs with
  | none => false
  | some (_, rest) => (skip rest).head? = some ':'

mutual

/-- Reads a value, the gap before it included. -/
def readValue : Nat → List Char → Option (Value × List Char)
  | 0, _ => none
  | fuel + 1, cs =>
    let cs := skip cs
    match readName? cs with
    | some ("true", rest) => some (.flag true, rest)
    | some ("false", rest) => some (.flag false, rest)
    | some ("None", rest) => some (.absent, rest)
    | some ("inf", rest) => some (.real (.infinite false), rest)
    | some ("NaN", rest) => some (.real .undefined, rest)
    | some ("Some", rest) =>
      match skip rest with
      | '(' :: rest =>
        match readValue fuel rest with
        | none => none
        | some (v, rest) =>
          match skip rest with
          | ')' :: rest => some (v, rest)
          | _ => none
      | _ => none
    | some (_, rest) =>
      match skip rest with
      | '(' :: inner => readStructure fuel inner
      | _ => some (.absent, rest)
    | none =>
      match cs with
      | '(' :: inner => readStructure fuel inner
      | '[' :: rest => (readItems ']' fuel rest).map fun rest => (.list, rest)
      | '\x7b' :: rest =>
        (readEntries fuel rest).map fun r => (.table (Value.lastOfEach r.1), r.2)
      | c :: _ =>
        if c = '"' || c = '\'' || c = 'r' then (readText cs).map fun r => (.text r.1, r.2)
        else if "-inf".toList.isPrefixOf cs then some (.real (.infinite true), cs.drop 4)
        else (number? (cs.takeWhile isNumberChar)).map fun v => (v, cs.dropWhile isNumberChar)
      | [] => none

/-- Reads a structure, of which the opening bracket has been read. -/
def readStructure : Nat → List Char → Option (Value × List Char)
  | 0, _ => none
  | fuel + 1, cs =>
    match skip cs with
    | ')' :: rest => some (.absent, rest)
    | cs =>
      -- A name can begin a field or a value, which the colon behind it decides.
      if hasFieldNames cs then
        (readFields fuel cs).map fun r => (.table (Value.lastOfEach r.1), r.2)
      else (readItems ')' fuel cs).map fun rest => (.list, rest)

/-- Reads past the items of a list and its closing bracket. -/
def readItems (closing : Char) : Nat → List Char → Option (List Char)
  | 0, _ => none
  | fuel + 1, cs =>
    match skip cs with
    | [] => none
    | c :: rest =>
      if c = closing then some rest
      else
        match readValue fuel (c :: rest) with
        | none => none
        | some (_, rest) =>
          match skip rest with
          | [] => none
          | c :: rest =>
            if c = closing then some rest
            else if c = ',' then readItems closing fuel rest
            else none

/-- Reads named fields up to the closing bracket of a structure. -/
def readFields : Nat → List Char → Option (Values × List Char)
  | 0, _ => none
  | fuel + 1, cs =>
    match skip cs with
    | ')' :: rest => some ([], rest)
    | cs =>
      match readName? cs with
      | none => none
      | some (name, rest) =>
        match skip rest with
        | ':' :: rest =>
          match readValue fuel rest with
          | none => none
          | some (v, rest) =>
            match skip rest with
            | ',' :: rest => (readFields fuel rest).map fun r => ((name, v) :: r.1, r.2)
            | ')' :: rest => some ([(name, v)], rest)
            | _ => none
        | _ => none

/-- Reads the entries of a map up to its closing brace; the keys have to be strings. -/
def readEntries : Nat → List Char → Option (Values × List Char)
  | 0, _ => none
  | fuel + 1, cs =>
    match skip cs with
    | '\x7d' :: rest => some ([], rest)
    | cs =>
      match readText cs with
      | none => none
      | some (name, rest) =>
        match skip rest with
        | ':' :: rest =>
          match readValue fuel rest with
          | none => none
          | some (v, rest) =>
            match skip rest with
            | ',' :: rest => (readEntries fuel rest).map fun r => ((name, v) :: r.1, r.2)
            | '\x7d' :: rest => some ([(name, v)], rest)
            | _ => none
        | _ => none

end

/-- Leaves out the lines in front that switch on extensions of the format. -/
def skipExtensions : Nat → List Char → List Char
  | 0, cs => cs
  | fuel + 1, cs =>
    match skip cs with
    | '#' :: '!' :: rest => skipExtensions fuel ((rest.dropWhile (· != ']')).drop 1)
    | cs => cs

/-- The value in a file; none if it is not well formed. -/
def read? (text : String) : Option Value :=
  let cs := skipExtensions text.length text.toList
  match readValue (3 * cs.length + 3) cs with
  | none => none
  | some (v, rest) => if (skip rest).isEmpty then some v else none

end ChainEconomy.Settings.Ron
