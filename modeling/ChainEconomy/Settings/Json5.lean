import ChainEconomy.Json.Reader
import ChainEconomy.Settings.Value
import ChainEconomy.Text.Blank

/-! # JSON5 files

JSON with a few liberties: comments, keys without quotation marks, strings in single quotes, a comma
behind the last item, numbers in hexadecimal or with a sign, and the words for what is no number. -/

namespace ChainEconomy.Settings.Json5

/-- Whether a character ends a line. -/
def isLineEnd (c : Char) : Bool := c = '\n' || c = '\r' || c = '\u2028' || c = '\u2029'

/-- Whether a character may stand between the parts of a file. -/
def isSpace (c : Char) : Bool := (Text.isBlank c && c != '\u0085') || c = '\uFEFF'

/-- The text behind the end of a comment over several lines. -/
def afterComment? : List Char → Option (List Char)
  | [] => none
  | '*' :: '/' :: rest => some rest
  | _ :: rest => afterComment? rest

/-- Leaves out spaces and comments. -/
def skipGaps : Nat → List Char → List Char
  | 0, cs => cs
  | fuel + 1, cs =>
    match cs.dropWhile isSpace with
    | '/' :: '/' :: rest => skipGaps fuel (rest.dropWhile fun c => !isLineEnd c)
    | '/' :: '*' :: rest =>
      match afterComment? rest with
      | some rest => skipGaps fuel rest
      | none => '/' :: '*' :: rest
    | rest => rest

/-- Leaves out spaces and comments. -/
def skip (cs : List Char) : List Char := skipGaps (cs.length + 1) cs

/-- Reads a code unit written with a number of hexadecimal digits. -/
def readUnit (count : Nat) (cs : List Char) : Option (Nat × List Char) :=
  match (cs.take count).mapM Json.hexValue? with
  | none => none
  | some ds =>
    if ds.length = count then some (ds.foldl (fun n d => n * 16 + d) 0, cs.drop count) else none

/-- Reads the character of an escape whose `u` has been read, with the second half of a pair. -/
def readCodePoint (cs : List Char) : Option (Char × List Char) :=
  match readUnit 4 cs with
  | none => none
  | some (u, rest) =>
    if Json.isLowSurrogate u then none
    else if Json.isHighSurrogate u then
      match rest with
      | '\\' :: 'u' :: rest =>
        match readUnit 4 rest with
        | none => none
        | some (v, rest) =>
          if Json.isLowSurrogate v then some (Json.joinHalves u v, rest) else none
      | _ => none
    else some (Char.ofNat u, rest)

/-- What the character behind a backslash stands for; digits stand for nothing. -/
def unescape? (c : Char) : Option Char :=
  if c = 'b' then some '\x08'
  else if c = 'f' then some '\x0c'
  else if c = 'n' then some '\n'
  else if c = 'r' then some '\r'
  else if c = 't' then some '\t'
  else if c = 'v' then some '\x0b'
  else if c = '0' then some '\x00'
  else if c.isDigit then none
  else some c

/-- Reads an escape whose backslash has been read; the end of a line stands for nothing. -/
def readEscape : List Char → Option (List Char × List Char)
  | [] => none
  | '\r' :: '\n' :: rest => some ([], rest)
  | 'x' :: rest => (readUnit 2 rest).map fun r => ([Char.ofNat r.1], r.2)
  | 'u' :: rest => (readCodePoint rest).map fun r => ([r.1], r.2)
  | c :: rest => if isLineEnd c then some ([], rest) else (unescape? c).map fun c => ([c], rest)

/-- Reads a string up to its closing mark. -/
def readString (mark : Char) : Nat → List Char → Option (List Char × List Char)
  | 0, _ => none
  | _ + 1, [] => none
  | fuel + 1, c :: rest =>
    if c = mark then some ([], rest)
    else
      match
        if c = '\\' then readEscape rest
        else if isLineEnd c then none
        else some ([c], rest) with
      | none => none
      | some (shown, rest) =>
        match readString mark fuel rest with
        | none => none
        | some (cs, rest) => some (shown ++ cs, rest)

/-- Whether a key without quotation marks may start with a character. -/
def isKeyStart (c : Char) : Bool :=
  c.isAlpha || c = '$' || c = '_' || (Nat.ble 0x80 c.toNat && !isSpace c)

/-- Reads the characters of a key without quotation marks. -/
def readPlainKey (first : Bool) : Nat → List Char → Option (List Char × List Char)
  | 0, _ => none
  | fuel + 1, cs =>
    let next :=
      match cs with
      | '\\' :: 'u' :: rest => readCodePoint rest
      | c :: rest => if isKeyStart c || (!first && c.isDigit) then some (c, rest) else none
      | [] => none
    match next with
    | none => if first then none else some ([], cs)
    | some (c, rest) =>
      match readPlainKey false fuel rest with
      | none => none
      | some (key, rest) => some (c :: key, rest)

/-- Reads a key. -/
def readKey (cs : List Char) : Option (String × List Char) :=
  let read :=
    match cs with
    | '"' :: rest => readString '"' cs.length rest
    | '\'' :: rest => readString '\'' cs.length rest
    | _ => readPlainKey true (cs.length + 1) cs
  read.map fun r => (String.ofList r.1, r.2)

/-! ## Numbers -/

/-- Whether a character can belong to a number or a word. -/
def isWordChar (c : Char) : Bool := c.isAlphanum || c = '+' || c = '-' || c = '.'

/-- The digits and the point of a decimal number without a sign, behind which an exponent may
follow. -/
def isDecimal (cs : List Char) : Bool :=
  let whole := cs.takeWhile Char.isDigit
  let rest := cs.dropWhile Char.isDigit
  let (fraction, exponent) :=
    match rest with
    | '.' :: after => (after.takeWhile Char.isDigit, after.dropWhile Char.isDigit)
    | _ => ([], rest)
  let exponentFits :=
    match exponent with
    | [] => true
    | e :: rest =>
      let digits := (Binary64.Extended.splitSign rest).2
      (e = 'e' || e = 'E') && !digits.isEmpty && Text.allDigits digits
  let wholeFits := if whole.head? = some '0' then whole.length = 1 else true
  wholeFits && !(whole.isEmpty && fraction.isEmpty) && exponentFits

/-- A number in hexadecimal digits, which has at most 32 bits. -/
def hexadecimal? (cs : List Char) : Option Value :=
  match cs.mapM Json.hexValue? with
  | none => none
  | some ds =>
    let n := ds.foldl (fun n d => n * 16 + d) 0
    if !ds.isEmpty && Nat.blt n (Nat.pow 2 32) then some (.number n) else none

/-- The number that a word stands for. -/
def number? (cs : List Char) : Option Value :=
  if cs = "Infinity".toList then some (.real (.infinite false))
  else if cs = "-Infinity".toList then some (.real (.infinite true))
  else if cs = "NaN".toList ∨ cs = "-NaN".toList then some (.real .undefined)
  else
    match cs with
    | '0' :: 'x' :: rest => hexadecimal? rest
    | '0' :: 'X' :: rest => hexadecimal? rest
    | cs =>
      if !isDecimal (Binary64.Extended.splitSign cs).2 then none
      else if cs.any fun c => c = '.' || c = 'e' || c = 'E' then
        match Binary64.Extended.parse? cs with
        | some (.finite negative magnitude) => some (.real (.finite negative magnitude))
        | _ => none
      else ((Binary64.Extended.readInteger cs).filter Value.isWhole).map .number

/-- The value that a word stands for. -/
def word? (cs : List Char) : Option Value :=
  if cs = "null".toList then some .absent
  else if cs = "true".toList then some (.flag true)
  else if cs = "false".toList then some (.flag false)
  else number? cs

/-! ## Values -/

mutual

/-- Reads a value, the gap before it included. -/
def readValue : Nat → List Char → Option (Value × List Char)
  | 0, _ => none
  | fuel + 1, cs =>
    match skip cs with
    | '"' :: rest => (readString '"' fuel rest).map fun r => (.text (String.ofList r.1), r.2)
    | '\'' :: rest => (readString '\'' fuel rest).map fun r => (.text (String.ofList r.1), r.2)
    | '[' :: rest => (readItems fuel rest).map fun rest => (.list, rest)
    | '\x7b' :: rest =>
      (readFields fuel rest).map fun r => (.table (Value.lastOfEach r.1), r.2)
    | cs => (word? (cs.takeWhile isWordChar)).map fun v => (v, cs.dropWhile isWordChar)

/-- Reads past the items of a list and its closing bracket. -/
def readItems : Nat → List Char → Option (List Char)
  | 0, _ => none
  | fuel + 1, cs =>
    match skip cs with
    | ']' :: rest => some rest
    | cs =>
      match readValue fuel cs with
      | none => none
      | some (_, rest) =>
        match skip rest with
        | ',' :: rest => readItems fuel rest
        | ']' :: rest => some rest
        | _ => none

/-- Reads the fields of a table up to its closing brace. -/
def readFields : Nat → List Char → Option (Values × List Char)
  | 0, _ => none
  | fuel + 1, cs =>
    match skip cs with
    | '\x7d' :: rest => some ([], rest)
    | cs =>
      match readKey cs with
      | none => none
      | some (key, rest) =>
        match skip rest with
        | ':' :: rest =>
          match readValue fuel rest with
          | none => none
          | some (v, rest) =>
            match skip rest with
            | ',' :: rest => (readFields fuel rest).map fun r => ((key, v) :: r.1, r.2)
            | '\x7d' :: rest => some ([(key, v)], rest)
            | _ => none
        | _ => none

end

/-- The value in a file; none if it is not well formed. -/
def read? (text : String) : Option Value :=
  let cs := text.toList
  match readValue (2 * cs.length + 2) cs with
  | none => none
  | some (v, rest) => if (skip rest).isEmpty then some v else none

end ChainEconomy.Settings.Json5
