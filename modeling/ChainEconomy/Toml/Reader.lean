import ChainEconomy.Toml.Quoted
import ChainEconomy.Toml.Scalar
import ChainEconomy.Toml.Tree

/-! # Reading a configuration

A document is a sequence of lines: blank ones, comments, headers of tables, and values under keys.
Lists may run over several lines, tables in braces may not. `fuel` bounds the number of steps,
`depth` the number of lists and tables within each other. -/

namespace ChainEconomy.Toml

/-- Whether a character may belong to a key without quotes. -/
def isBareKeyChar (c : Char) : Bool := c.isAlphanum || c = '_' || c = '-'

/-- Reads one part of a key. -/
def readKeyPart (cs : List Char) : Option (String × List Char) :=
  match cs with
  | '"' :: rest => (readBasic false (cs.length + 1) rest).map fun r => (String.ofList r.1, r.2)
  | '\'' :: rest => (readLiteral false (cs.length + 1) rest).map fun r => (String.ofList r.1, r.2)
  | _ =>
    let bare := cs.takeWhile isBareKeyChar
    if bare.isEmpty then none else some (String.ofList bare, cs.dropWhile isBareKeyChar)

/-- Reads the parts of a key, with points between them. -/
def readKeyParts : Nat → List Char → Option (List String × List Char)
  | 0, _ => none
  | fuel + 1, cs =>
    match readKeyPart (skipBlanks cs) with
    | none => none
    | some (part, rest) =>
      match skipBlanks rest with
      | '.' :: rest => (readKeyParts fuel rest).map fun r => (part :: r.1, r.2)
      | rest => some ([part], rest)

/-- The largest number of parts in a key, and of values within each other. -/
def maxDepth : Nat := 79

/-- Reads a key: the way to a table, and the name in that table. -/
def readKey (cs : List Char) : Option ((List String × String) × List Char) :=
  match readKeyParts maxDepth cs with
  | none => none
  | some (parts, rest) =>
    match parts.getLast? with
    | none => none
    | some name => some ((parts.dropLast, name), rest)

/-- The text behind a comment, if there is one; none if the comment holds a control character. -/
def skipComment : List Char → Option (List Char)
  | '#' :: rest =>
    match rest.dropWhile isPlain with
    | [] => some []
    | after => (dropNewline? after).map fun _ => after
  | cs => some cs

/-- The text from the first character on that belongs to neither a blank, a comment nor the end of a
line. -/
def skipGaps : Nat → List Char → Option (List Char)
  | 0, cs => some cs
  | fuel + 1, cs =>
    match skipLines cs with
    | '#' :: rest => (skipComment ('#' :: rest)).bind (skipGaps fuel)
    | cs => some cs

mutual

/-- Reads a value. -/
def readValue : Nat → Nat → List Char → Option (Toml × List Char)
  | 0, _, _ => none
  | _ + 1, _, [] => none
  | fuel + 1, depth, c :: rest =>
    if c = '"' || c = '\'' then (readString (c :: rest)).map fun r => (.string r.1, r.2)
    else if c = '[' then
      match depth with
      | 0 => none
      | depth + 1 => (readItems fuel depth rest).map fun r => (.array r.1, r.2)
    else if c = '\x7b' then
      match depth with
      | 0 => none
      | depth + 1 =>
        match skipBlanks rest with
        | '\x7d' :: rest => some (.table [], rest)
        | rest => (readMembers fuel depth [] rest).map fun r => (.table (finishFields r.1), r.2)
    else readWord (c :: rest)

/-- Reads the items of a list up to its closing bracket; a comma may follow the last one. -/
def readItems : Nat → Nat → List Char → Option (List Toml × List Char)
  | 0, _, _ => none
  | fuel + 1, depth, cs =>
    match skipGaps cs.length cs with
    | none => none
    | some (']' :: rest) => some ([], rest)
    | some cs =>
      match readValue fuel depth cs with
      | none => none
      | some (item, rest) =>
        match skipGaps rest.length rest with
        | some (']' :: rest) => some ([item], rest)
        | some (',' :: rest) => (readItems fuel depth rest).map fun r => (item :: r.1, r.2)
        | _ => none

/-- Reads the fields of a table in braces up to its closing brace. -/
def readMembers : Nat → Nat → Fields → List Char → Option (Fields × List Char)
  | 0, _, _, _ => none
  | fuel + 1, depth, fields, cs =>
    match readKey cs with
    | some ((path, key), '=' :: rest) =>
      match readValue fuel depth (skipBlanks rest) with
      | none => none
      | some (v, rest) =>
        match fields.addValue path key v with
        | none => none
        | some fields =>
          match skipBlanks rest with
          | '\x7d' :: rest => some (fields, rest)
          | ',' :: rest => readMembers fuel depth fields rest
          | _ => none
    | _ => none

end

/-! ## Documents -/

/-- The text behind the end of a line, where nothing but a comment may stand. -/
def endLine (cs : List Char) : Option (List Char) :=
  match skipComment (skipBlanks cs) with
  | none => none
  | some [] => some []
  | some rest => dropNewline? rest

/-- A document as far as it has been read: the header of the current table, and all fields. -/
structure Document where
  path : List String
  fields : Fields

namespace Document

/-- Puts a value under a key of the current table. -/
def addValue (d : Document) (path : List String) (key : String) (v : Toml) : Option Document :=
  let change (_ : Origin) (fields : Fields) : Option Fields := fields.addValue path key v
  (Fields.changeAt change false d.path .header d.fields).map fun fields =>
    { d with fields := fields }

/-- Goes on with another table. -/
def enter (d : Document) (listed : Bool) (path : List String) (key : String) : Option Document :=
  let fields := if listed then d.fields.startListed path key else d.fields.startTable path key
  fields.map fun fields => ⟨path ++ [key], fields⟩

/-- Reads a header, of which the opening brackets have been read. -/
def readHeader (d : Document) (listed : Bool) (cs : List Char) : Option (Document × List Char) :=
  match readKey cs with
  | none => none
  | some ((path, key), rest) =>
    match listed, rest with
    | true, ']' :: ']' :: rest => (d.enter true path key).map fun d => (d, rest)
    | false, ']' :: rest => (d.enter false path key).map fun d => (d, rest)
    | _, _ => none

/-- Reads a value under a key. -/
def readPair (d : Document) (cs : List Char) : Option (Document × List Char) :=
  match readKey cs with
  | some ((path, key), '=' :: rest) =>
    match readValue (2 * rest.length + 2) maxDepth (skipBlanks rest) with
    | none => none
    | some (v, rest) => (d.addValue path key v).map fun d => (d, rest)
  | _ => none

/-- Reads what stands on a line. -/
def readLine (d : Document) (cs : List Char) : Option (Document × List Char) :=
  match cs with
  | '[' :: '[' :: rest => d.readHeader true rest
  | '[' :: rest => d.readHeader false rest
  | '#' :: _ => some (d, cs)
  | [] => some (d, cs)
  | c :: _ => if c = '\n' ∨ c = '\r' then some (d, cs) else d.readPair cs

/-- Reads the lines of a document. -/
def readLines : Nat → Document → List Char → Option Document
  | 0, _, _ => none
  | _ + 1, d, [] => some d
  | fuel + 1, d, cs =>
    match d.readLine (skipBlanks cs) with
    | none => none
    | some (d, rest) =>
      match endLine rest with
      | none => none
      | some rest => readLines fuel d rest

end Document

/-- The text without the mark that may precede a text in Unicode. -/
def dropByteOrderMark : List Char → List Char
  | '\uFEFF' :: rest => rest
  | cs => cs

/-- The fields of a document; none if it is not well formed. -/
def read? (text : String) : Option (List (String × Toml)) :=
  let cs := dropByteOrderMark text.toList
  ((Document.mk [] []).readLines (cs.length + 1) cs).map fun d => finishFields d.fields

end ChainEconomy.Toml
