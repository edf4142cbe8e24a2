import ChainEconomy.Json.Reader
import ChainEconomy.Text.Utf8

/-! # Defects of a JSON text

The first place at which a text stops being JSON, and why. Here a text has to be readable
throughout: half of a surrogate pair, a number out of range and lists nested too deeply are defects
too. Every check takes the characters still to come and returns those behind what it checked. -/

namespace ChainEconomy.Json

/-- Why a text is not JSON. -/
inductive DefectCause where
  | endInValue
  | endInString
  | endInList
  | endInObject
  | noValue
  | noWord
  | badNumber
  | hugeNumber
  | badEscape
  | loneHalf
  | brokenPair
  | controlCharacter
  | noListComma
  | noObjectComma
  | noColon
  | keyNotString
  | trailingComma
  | trailingText
  | tooDeep
  deriving DecidableEq, Repr

/-- The wording of a cause. -/
def DefectCause.message : DefectCause → String
  | .endInValue => "EOF while parsing a value"
  | .endInString => "EOF while parsing a string"
  | .endInList => "EOF while parsing a list"
  | .endInObject => "EOF while parsing an object"
  | .noValue => "expected value"
  | .noWord => "expected ident"
  | .badNumber => "invalid number"
  | .hugeNumber => "number out of range"
  | .badEscape => "invalid escape"
  | .loneHalf => "lone leading surrogate in hex escape"
  | .brokenPair => "unexpected end of hex escape"
  | .controlCharacter => "control character (\\u0000-\\u001F) found while parsing a string"
  | .noListComma => "expected `,` or `]`"
  | .noObjectComma => "expected `,` or `\x7d`"
  | .noColon => "expected `:`"
  | .keyNotString => "key must be a string"
  | .trailingComma => "trailing comma"
  | .trailingText => "trailing characters"
  | .tooDeep => "recursion limit exceeded"

/-- A defect: it is met so many bytes into the rest of a text. -/
structure Defect where
  cause : DefectCause
  rest : List Char
  bytes : Nat

/-- The rest of a text, or its first defect. -/
abbrev Checked := Except Defect (List Char)

/-- A defect that is seen by looking at the next byte. -/
def defectAt (cause : DefectCause) (rest : List Char) : Checked := .error ⟨cause, rest, 1⟩

/-- A defect that is seen behind what has been checked. -/
def defectBefore (cause : DefectCause) (rest : List Char) : Checked := .error ⟨cause, rest, 0⟩

/-- Checks the letters of a fixed word. -/
def checkWord : List Char → List Char → Checked
  | [], cs => .ok cs
  | _ :: _, [] => defectBefore .endInValue []
  | w :: word, c :: cs => if c = w then checkWord word cs else defectAt .noWord (c :: cs)

/-! ## Strings -/

/-- Checks a string whose opening quotation mark has been read; `paired` says whether the second
half of a pair has to come next. -/
def checkString (paired : Bool) : List Char → Checked
  | [] => defectBefore .endInString []
  | c :: rest =>
    if c = '\\' then
      match rest with
      | [] => defectBefore .endInString []
      | e :: rest =>
        if e = 'u' then
          -- Four bytes are taken at once, whatever characters they belong to.
          if Nat.blt (Text.Utf8.encode rest).length 4 then defectBefore .endInString []
          else
            match rest with
            | a :: b :: c :: d :: after =>
              match codeUnit? a b c d with
              | none => .error ⟨.badEscape, rest, 4⟩
              | some u =>
                -- A second half has to come if the first is there, and must not come otherwise.
                if isLowSurrogate u != paired then defectBefore .loneHalf after
                else checkString (isHighSurrogate u) after
            | short => .error ⟨.badEscape, short, 4⟩
        else if paired then defectAt .brokenPair (e :: rest)
        else if (unescape? e).isSome then checkString false rest
        else defectAt .badEscape (e :: rest)
    else if paired then defectAt .brokenPair (c :: rest)
    else if c = '"' then .ok rest
    else if c.toNat < 0x20 then defectAt .controlCharacter (c :: rest)
    else checkString false rest

/-! ## Numbers -/

/-- Checks that a digit comes next, and leaves out all digits. -/
def checkDigits : List Char → Checked
  | [] => defectBefore .endInValue []
  | c :: rest =>
    if c.isDigit then .ok (rest.dropWhile Char.isDigit) else defectAt .badNumber (c :: rest)

/-- Checks the form of a number without a sign; also returns the digits of its exponent with all
that comes behind them. -/
def checkUnsigned (cs : List Char) : Except Defect (List Char × List Char) := do
  let rest ←
    match cs with
    | '0' :: rest => if (rest.head?.any Char.isDigit) then defectAt .badNumber rest else .ok rest
    | cs => checkDigits cs
  let rest ←
    match rest with
    | '.' :: fraction => checkDigits fraction
    | rest => .ok rest
  match rest with
  | [] => return ([], [])
  | e :: exponent =>
    if e = 'e' ∨ e = 'E' then
      let digits :=
        match exponent with
        | '+' :: digits => digits
        | '-' :: digits => digits
        | digits => digits
      return (← checkDigits digits, digits)
    else return (e :: exponent, [])

/-- The text behind the first digit with which an exponent, that begins with `n`, is too large to be
told; if there is none, the text behind the exponent. -/
def behindExponent (n : Nat) : List Char → List Char
  | [] => []
  | c :: rest =>
    if c.isDigit then
      let n := n * 10 + Text.digitValue c
      if Nat.blt maxExponent n then rest else behindExponent n rest
    else c :: rest

/-- Checks a number. -/
def checkNumber (cs : List Char) : Checked := do
  let unsigned := if cs.head? = some '-' then cs.drop 1 else cs
  let (rest, exponent) ← checkUnsigned unsigned
  -- The form is right, so that only the size of the number can be at fault.
  match readNumber cs with
  | some (.unreadable, _) =>
    defectBefore .hugeNumber (if exponent.isEmpty then rest else behindExponent 0 exponent)
  | _ => return rest

/-! ## Values -/

mutual

/-- Checks a value, blanks before it included, in which lists and objects may be nested `room`
levels deep. -/
def checkValue (room : Nat) : Nat → List Char → Checked
  | 0, cs => .ok cs
  | fuel + 1, cs =>
    match skipSpace cs with
    | [] => defectBefore .endInValue []
    | c :: rest =>
      if c = '"' then checkString false rest
      else if c = '[' then
        if room = 0 then defectAt .tooDeep (c :: rest)
        else
          match skipSpace rest with
          | [] => defectBefore .endInList []
          | d :: after => if d = ']' then .ok after else checkItems (room - 1) fuel (d :: after)
      else if c = '\x7b' then
        if room = 0 then defectAt .tooDeep (c :: rest)
        else
          match skipSpace rest with
          | [] => defectBefore .endInObject []
          | d :: after =>
            if d = '\x7d' then .ok after else checkMembers (room - 1) fuel (d :: after)
      else if c = 'n' then checkWord ['u', 'l', 'l'] rest
      else if c = 't' then checkWord ['r', 'u', 'e'] rest
      else if c = 'f' then checkWord ['a', 'l', 's', 'e'] rest
      else if c = '-' ∨ c.isDigit then checkNumber (c :: rest)
      else defectAt .noValue (c :: rest)

/-- Checks the items of a list and its closing bracket. -/
def checkItems (room : Nat) : Nat → List Char → Checked
  | 0, cs => .ok cs
  | fuel + 1, cs =>
    match checkValue room fuel cs with
    | .error defect => .error defect
    | .ok rest =>
      match skipSpace rest with
      | [] => defectBefore .endInList []
      | c :: rest =>
        if c = ']' then .ok rest
        else if c = ',' then
          match skipSpace rest with
          | [] => defectBefore .endInValue []
          | d :: after =>
            -- A comma asks for one more item.
            if d = ']' then defectAt .trailingComma (d :: after)
            else checkItems room fuel (d :: after)
        else defectAt .noListComma (c :: rest)

/-- Checks the members of an object and its closing brace. -/
def checkMembers (room : Nat) : Nat → List Char → Checked
  | 0, cs => .ok cs
  | fuel + 1, cs =>
    match cs with
    | '"' :: rest =>
      match checkString false rest with
      | .error defect => .error defect
      | .ok rest =>
        match skipSpace rest with
        | [] => defectBefore .endInObject []
        | colon :: rest =>
          if colon ≠ ':' then defectAt .noColon (colon :: rest)
          else
            match checkValue room fuel rest with
            | .error defect => .error defect
            | .ok rest =>
              match skipSpace rest with
              | [] => defectBefore .endInObject []
              | c :: rest =>
                if c = '\x7d' then .ok rest
                else if c = ',' then
                  match skipSpace rest with
                  | [] => defectBefore .endInValue []
                  | d :: after =>
                    if d = '\x7d' then defectAt .trailingComma (d :: after)
                    else checkMembers room fuel (d :: after)
                else defectAt .noObjectComma (c :: rest)
    | cs => defectAt .keyNotString cs

end

/-- The first defect of a text, if it has one. -/
def firstDefect? (cs : List Char) : Option Defect :=
  match checkValue maxDepth (2 * cs.length + 2) cs with
  | .error defect => some defect
  | .ok rest =>
    match skipSpace rest with
    | [] => none
    | c :: rest => some ⟨.trailingText, c :: rest, 1⟩

/-! ## Places -/

/-- A place in a text: the line, and how many bytes of it come before. -/
structure Place where
  line : Nat
  column : Nat
  deriving DecidableEq, Repr

/-- The place behind some bytes. -/
def Place.behind (bytes : Bytes) : Place where
  line := bytes.count 0x0A + 1
  column := (bytes.reverse.takeWhile (· != 0x0A)).length

/-- The place of a defect in the text that has it. -/
def Defect.place (cs : List Char) (d : Defect) : Place :=
  let bytes := Text.Utf8.encode cs
  .behind (bytes.take (bytes.length - (Text.Utf8.encode d.rest).length + d.bytes))

/-- The wording of a defect, with its place. -/
def Defect.message (cs : List Char) (d : Defect) : String :=
  let place := d.place cs
  let line := place.line
  let column := place.column
  d.cause.message ++ s!" at line {line} column {column}"

example : (firstDefect? "[1,\n]".toList).map (Defect.place "[1,\n]".toList) = some ⟨2, 1⟩ := by
  decide +kernel

end ChainEconomy.Json
