import ChainEconomy.Json.Reader
import ChainEconomy.Settings.Value
import ChainEconomy.Text.Split

/-! # YAML files

The part of the format that configurations use: one document of nested mappings and lists, told
apart by indentation or written in brackets, whose values are plain or quoted. Plain values are
truth values, numbers, `null` or text. Anchors, tags and text in blocks are refused. -/

namespace ChainEconomy.Settings.Yaml

/-- A line with its indentation; the text is not blank and has no blanks at its end. -/
structure Line where
  indent : Nat
  text : List Char

/-- Whether a character is a blank. -/
def isGap (c : Char) : Bool := c = ' ' || c = '\t'

/-- The text without the blanks at its end. -/
def trimEnd (cs : List Char) : List Char := (cs.reverse.dropWhile isGap).reverse

/-! ## Values on one line -/

/-- The text in front of a comment, which starts behind a blank. -/
def beforeComment : List Char → List Char
  | [] => []
  | c :: rest => if isGap c && rest.head? = some '#' then [] else c :: beforeComment rest

/-- Whether nothing but a comment is left. -/
def isDone (cs : List Char) : Bool :=
  match cs.dropWhile isGap with
  | [] => true
  | c :: _ => c = '#' && cs.head? != some '#'

/-- The whole number that a plain value stands for, in any of three bases. -/
def whole? (cs : List Char) : Option Int :=
  let inBase (base : Nat) (digits : List Char) : Option Int :=
    let (negative, digits) := Binary64.Extended.splitSign digits
    match digits.mapM Json.hexValue? with
    | none => none
    | some ds =>
      if ds.isEmpty || !ds.all (Nat.blt · base) then none
      else
        let n : Int := (ds.foldl (fun n d => n * base + d) 0 : Nat)
        some (if negative then -n else n)
  let special :=
    match cs with
    | '0' :: 'x' :: rest => inBase 16 rest
    | '0' :: 'o' :: rest => inBase 8 rest
    | _ => none
  (special.orElse fun _ => Binary64.Extended.readInteger cs).filter Value.isWhole

/-- The spellings of infinities and of an undefined number, which no setting can be. -/
def unusualNumbers : List String :=
  [".inf", ".Inf", ".INF", "+.inf", "+.Inf", "+.INF", "-.inf", "-.Inf", "-.INF",
    ".nan", ".NaN", ".NAN"]

/-- The value that a plain text stands for. -/
def resolve (cs : List Char) : Option Value :=
  let text := String.ofList cs
  if unusualNumbers.contains text then none
  else if text = "~" ∨ text = "null" ∨ text = "" then some .absent
  else if text = "true" then some (.flag true)
  else if text = "false" then some (.flag false)
  else
    match whole? cs with
    | some n => some (.number n)
    | none =>
      match Binary64.Extended.parse? cs with
      | some x => some (.real x)
      | none => some (.text text)

/-- The name that a key stands for; keys are text or whole numbers. -/
def nameOf (v : Value) : Option String :=
  match v with
  | .text s => some s
  | .number n => some (toString n)
  | _ => none

/-- Reads the code point of an escape, written with a number of hexadecimal digits. -/
def readCodePoint (count : Nat) (cs : List Char) : Option (Char × List Char) :=
  match (cs.take count).mapM Json.hexValue? with
  | none => none
  | some ds =>
    let n := ds.foldl (fun n d => n * 16 + d) 0
    if ds.length = count ∧ n.isValidChar then some (Char.ofNat n, cs.drop count) else none

/-- Reads an escape whose backslash has been read. -/
def readEscape : List Char → Option (Char × List Char)
  | [] => none
  | e :: rest =>
    if e = 'x' then readCodePoint 2 rest
    else if e = 'u' then readCodePoint 4 rest
    else if e = 'U' then readCodePoint 8 rest
    else if e = '0' then some ('\x00', rest)
    else if e = 'a' then some ('\x07', rest)
    else if e = 'v' then some ('\x0b', rest)
    else if e = 'e' then some ('\x1b', rest)
    else if e = ' ' then some (' ', rest)
    else if e = 'N' then some ('\u0085', rest)
    else if e = '_' then some ('\u00A0', rest)
    else if e = 'L' then some ('\u2028', rest)
    else if e = 'P' then some ('\u2029', rest)
    else (Json.unescape? e).map fun c => (c, rest)

/-- Reads a string in double quotes up to its closing mark. -/
def readDouble : Nat → List Char → Option (List Char × List Char)
  | 0, _ => none
  | _ + 1, [] => none
  | _ + 1, '"' :: rest => some ([], rest)
  | fuel + 1, c :: rest =>
    match if c = '\\' then readEscape rest else some (c, rest) with
    | none => none
    | some (c, rest) => (readDouble fuel rest).map fun r => (c :: r.1, r.2)

/-- Reads a string in single quotes up to its closing mark; two marks stand for one. -/
def readSingle : List Char → Option (List Char × List Char)
  | [] => none
  | '\'' :: '\'' :: rest => (readSingle rest).map fun r => ('\'' :: r.1, r.2)
  | '\'' :: rest => some ([], rest)
  | c :: rest => (readSingle rest).map fun r => (c :: r.1, r.2)

/-- Reads a quoted string; none if the text does not start with a quotation mark. -/
def readQuoted : List Char → Option (String × List Char)
  | '"' :: rest => (readDouble (rest.length + 1) rest).map fun r => (String.ofList r.1, r.2)
  | '\'' :: rest => (readSingle rest).map fun r => (String.ofList r.1, r.2)
  | _ => none

/-- Whether a plain text may not start with a character. -/
def isIndicator (c : Char) : Bool :=
  c = '[' || c = ']' || c = '\x7b' || c = '\x7d' || c = ',' || c = '&' || c = '*' || c = '!' ||
    c = '|' || c = '>' || c = '%' || c = '@' || c = '\u0060' || c = '#' || c = '"' || c = '\''

/-- Whether a character belongs to the brackets of lists and mappings. -/
def isFlowMark (c : Char) : Bool :=
  c = '[' || c = ']' || c = '\x7b' || c = '\x7d' || c = ','

/-- Splits off a plain text inside of brackets. -/
def spanFlow : List Char → List Char × List Char
  | [] => ([], [])
  | c :: rest =>
    let ends :=
      match rest with
      | [] => c = ':'
      | d :: _ => c = ':' && (isGap d || isFlowMark d) || isGap c && d = '#'
    if ends || isFlowMark c then ([], c :: rest)
    else
      let (text, rest) := spanFlow rest
      (c :: text, rest)

mutual

/-- Reads a value inside of brackets. -/
def readFlow : Nat → List Char → Option (Value × List Char)
  | 0, _ => none
  | fuel + 1, cs =>
    match cs.dropWhile isGap with
    | '[' :: rest => (readFlowItems fuel rest).map fun rest => (.list, rest)
    | '\x7b' :: rest =>
      (readFlowFields fuel rest).map fun r => (.table (Value.lastOfEach r.1), r.2)
    | c :: rest =>
      if c = '"' ∨ c = '\'' then (readQuoted (c :: rest)).map fun r => (.text r.1, r.2)
      else if isIndicator c then none
      else
        let (text, rest) := spanFlow (c :: rest)
        (resolve (trimEnd text)).map fun v => (v, rest)
    | [] => none

/-- Reads past the items of a list and its closing bracket. -/
def readFlowItems : Nat → List Char → Option (List Char)
  | 0, _ => none
  | fuel + 1, cs =>
    match cs.dropWhile isGap with
    | ']' :: rest => some rest
    | cs =>
      match readFlow fuel cs with
      | none => none
      | some (_, rest) =>
        match rest.dropWhile isGap with
        | ',' :: rest => readFlowItems fuel rest
        | ']' :: rest => some rest
        | _ => none

/-- Reads the entries of a mapping up to its closing brace; a key without a value has none. -/
def readFlowFields : Nat → List Char → Option (Values × List Char)
  | 0, _ => none
  | fuel + 1, cs =>
    match cs.dropWhile isGap with
    | '\x7d' :: rest => some ([], rest)
    | cs =>
      match readFlow fuel cs with
      | none => none
      | some (key, rest) =>
        match nameOf key with
        | none => none
        | some name =>
          let value :=
            match rest.dropWhile isGap with
            | ':' :: rest =>
              match rest.dropWhile isGap with
              | ',' :: _ => some (Value.absent, rest)
              | '\x7d' :: _ => some (Value.absent, rest)
              | _ => readFlow fuel rest
            | rest => some (Value.absent, rest)
          match value with
          | none => none
          | some (v, rest) =>
            match rest.dropWhile isGap with
            | ',' :: rest => (readFlowFields fuel rest).map fun r => ((name, v) :: r.1, r.2)
            | '\x7d' :: rest => some ([(name, v)], rest)
            | _ => none

end

/-! ## Blocks of lines -/

/-- Splits a line at the colon behind a plain key. -/
def splitPlainKey : List Char → Option (List Char × List Char)
  | [] => none
  | ':' :: rest =>
    match rest with
    | [] => some ([], [])
    | c :: after =>
      if isGap c then some ([], after) else (splitPlainKey rest).map fun r => (':' :: r.1, r.2)
  | c :: rest =>
    if isGap c && rest.head? = some '#' then none
    else (splitPlainKey rest).map fun r => (c :: r.1, r.2)

/-- The key at the start of a line, and the text behind its colon. -/
def splitKey (cs : List Char) : Option (String × List Char) :=
  match readQuoted cs with
  | some (name, rest) =>
    match rest.dropWhile isGap with
    | [':'] => some (name, [])
    | ':' :: c :: rest => if isGap c then some (name, rest) else none
    | _ => none
  | none =>
    match cs with
    | [] => none
    | c :: _ =>
      if isIndicator c then none
      else
        match splitPlainKey cs with
        | none => none
        | some (key, rest) => ((resolve (trimEnd key)).bind nameOf).map fun name => (name, rest)

/-- Whether a line is an item of a list. -/
def isItem (l : Line) : Bool :=
  match l.text with
  | ['-'] => true
  | '-' :: c :: _ => isGap c
  | _ => false

/-- The value on a line, which a plain text may continue on the lines below. -/
def inlineValue (cs : List Char) (below : List Line) : Option Value :=
  match cs with
  | [] => some .absent
  | c :: _ =>
    if c = '[' ∨ c = '\x7b' ∨ c = '"' ∨ c = '\'' then
      match readFlow (cs.length + 1) cs with
      | some (v, rest) => if isDone rest && below.isEmpty then some v else none
      | none => none
    else if isIndicator c then none
    else
      let parts := (cs :: below.map Line.text).map fun part => trimEnd (beforeComment part)
      -- A line with a colon would be an entry of a mapping, which cannot stand here.
      if parts.any fun part => (splitPlainKey part).isSome then none
      else resolve ([' '].intercalate parts)

mutual

/-- The value of a block of lines of which none is indented less than the first. -/
def blockValue : Nat → List Line → Option Value
  | 0, _ => none
  | _ + 1, [] => some .absent
  | fuel + 1, l :: rest =>
    -- The items of a list are not looked at: no setting is a list.
    if isItem l then
      if rest.all fun below => l.indent < below.indent || isItem below then some .list else none
    else
      match splitKey l.text with
      | some _ =>
        (entries fuel l.indent (l :: rest)).map fun fields => .table (Value.lastOfEach fields)
      | none => inlineValue l.text rest

/-- The entries of a mapping whose keys stand at an indentation. -/
def entries : Nat → Nat → List Line → Option Values
  | 0, _, _ => none
  | _ + 1, _, [] => some []
  | fuel + 1, indent, l :: rest =>
    match splitKey l.text with
    | none => none
    | some (name, text) =>
      let text := text.dropWhile isGap
      -- Behind the colon there may be nothing but a comment.
      let text := if text.head? = some '#' then [] else text
      let isBelow (below : Line) : Bool :=
        -- The items of a list may stand as far left as the key that the list belongs to.
        Nat.blt indent below.indent || (text.isEmpty && below.indent = indent && isItem below)
      let inner := rest.takeWhile isBelow
      let value := if text.isEmpty then blockValue fuel inner else inlineValue text inner
      let others := rest.dropWhile isBelow
      let aligned := others.head?.all fun l => l.indent = indent
      match value, aligned with
      | some v, true => (entries fuel indent others).map fun fields => (name, v) :: fields
      | _, _ => none

end

/-! ## Documents -/

/-- The lines of a text that are neither blank nor comments; none if a line is indented by tabs. -/
def linesOf (text : String) : Option (List Line) :=
  let lines := (Text.split '\n' text.toList).map fun cs =>
    let cs := trimEnd (if cs.getLast? = some '\r' then cs.dropLast else cs)
    Line.mk (cs.takeWhile (· == ' ')).length (cs.dropWhile (· == ' '))
  let lines := lines.filter fun l => !l.text.isEmpty && l.text.head? != some '#'
  if lines.any fun l => l.text.head? = some '\t' then none else some lines

/-- Whether a line is a mark between documents. -/
def isMark (mark : String) (l : Line) : Bool :=
  l.indent = 0 && l.text = mark.toList

/-- The value in a file; none if it is not well formed. -/
def read? (text : String) : Option Value :=
  match linesOf text with
  | none => none
  | some lines =>
    let lines := lines.dropWhile fun l => l.indent = 0 && l.text.head? = some '%'
    let started := lines.head?.any (isMark "---")
    let lines := if started then lines.drop 1 else lines
    let body := lines.takeWhile fun l => !isMark "..." l
    let after := (lines.dropWhile fun l => !isMark "..." l).drop 1
    -- A file holds one document at most.
    if body.any (isMark "---") || !after.isEmpty then none
    else if body.isEmpty && !started then some (.table [])
    else blockValue (2 * body.length + 2) body

example : splitKey "a b: 'x'".toList = some ("a b", "'x'".toList) := by decide +kernel
example : beforeComment "a#b # c".toList = "a#b".toList := by decide +kernel

end ChainEconomy.Settings.Yaml
