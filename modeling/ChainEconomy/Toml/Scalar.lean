import ChainEconomy.Text.Hex
import ChainEconomy.Text.Split
import ChainEconomy.Toml.Basic
import ChainEconomy.Toml.Moment

/-! # Words of a configuration

Values that are written as one word without quotes: truth values, whole numbers in four bases,
floating-point numbers, dates and times. Digits may be set apart by single underscores. -/

namespace ChainEconomy.Toml

/-- Whether a character can belong to a word. -/
def isWordChar (c : Char) : Bool :=
  c.isAlphanum || c = '_' || c = '+' || c = '-' || c = '.' || c = ':'

/-- Digits without the underscores between them; an underscore has a digit on either side. -/
def digits? (isDigit : Char → Bool) (cs : List Char) : Option (List Char) :=
  let groups := Text.split '_' cs
  if groups.all fun g => !g.isEmpty && g.all isDigit then some groups.flatten else none

/-- The digits of a decimal number, which starts with zero only if it is zero. -/
def decimalDigits? (cs : List Char) : Option (List Char) :=
  match cs with
  | '0' :: _ :: _ => none
  | _ => digits? Char.isDigit cs

/-- The value of a digit in any base up to sixteen. -/
def digitOf (c : Char) : Nat := (Text.Hex.value? (UInt8.ofNat c.toNat)).getD 0

/-- Whether a character is a digit in a base up to sixteen. -/
def isDigitIn (base : Nat) (c : Char) : Bool :=
  decide (c.toNat < 128) &&
    match Text.Hex.value? (UInt8.ofNat c.toNat) with
    | some n => Nat.blt n base
    | none => false

/-- A whole number, if 64 bits are enough for it. -/
def wholeInRange (n : Int) : Option Toml :=
  if Int64.minValue.toInt ≤ n ∧ n ≤ Int64.maxValue.toInt then some (.integer n) else none

/-- Reads a whole number in a given base. -/
def wholeIn? (base : Nat) (cs : List Char) : Option Toml :=
  match digits? (isDigitIn base) cs with
  | some ds => wholeInRange (ds.foldl (fun n c => n * base + digitOf c) 0 : Nat)
  | none => none

/-- Reads a whole number. -/
def whole? (cs : List Char) : Option Toml :=
  match cs with
  | '0' :: 'x' :: rest => wholeIn? 16 rest
  | '0' :: 'o' :: rest => wholeIn? 8 rest
  | '0' :: 'b' :: rest => wholeIn? 2 rest
  | _ =>
    let (negative, body) := Binary64.Extended.splitSign cs
    match decimalDigits? body with
    | none => none
    | some ds =>
      let n : Int := Text.digitsValue ds
      wholeInRange (if negative then -n else n)

/-- Reads the exponent of a number, if there is one. -/
def exponent? : Option (List Char) → Option Int
  | none => some 0
  | some cs =>
    let (negative, body) := Binary64.Extended.splitSign cs
    (digits? Char.isDigit body).map fun ds =>
      if negative then -(Text.digitsValue ds : Int) else Text.digitsValue ds

/-- Reads the digits behind the point, if there is one. -/
def fraction? : Option (List Char) → Option (List Char)
  | none => some []
  | some cs => digits? Char.isDigit cs

/-- The text before a character and, if it occurs, the text behind it. -/
def cutAt (sep : Char) (cs : List Char) : List Char × Option (List Char) :=
  match Text.splitOnce? sep cs with
  | some (before, after) => (before, some after)
  | none => (cs, none)

/-- Reads a floating-point number, which has a point or an exponent. -/
def decimalReal? (negative : Bool) (body : List Char) : Option Toml := do
  let (mantissa, exponent) := cutAt 'e' (body.map fun c => if c = 'E' then 'e' else c)
  let (whole, fraction) := cutAt '.' mantissa
  if exponent.isNone && fraction.isNone then none
  else
    let wholeDigits ← decimalDigits? whole
    let fractionDigits ← fraction? fraction
    let power ← exponent? exponent
    let x := Binary64.Extended.ofDecimal negative
      (Text.digitsValue (wholeDigits ++ fractionDigits)) (power - fractionDigits.length)
    -- Only a negative number may be too large for the format.
    if x = .infinite false then none else return .float x

/-- Reads a floating-point number, an infinity or the undefined number. -/
def real? (cs : List Char) : Option Toml :=
  let (negative, body) := Binary64.Extended.splitSign cs
  if body = ['i', 'n', 'f'] then some (.float (.infinite negative))
  else if body = ['n', 'a', 'n'] then some (.float .undefined)
  else decimalReal? negative body

/-- The value of a word. -/
def ofWord (cs : List Char) : Option Toml :=
  if cs = ['t', 'r', 'u', 'e'] then some (.boolean true)
  else if cs = ['f', 'a', 'l', 's', 'e'] then some (.boolean false)
  else
    match Moment.ofWord cs with
    | some m => some (.datetime (String.ofList m))
    | none => (whole? cs).orElse fun _ => real? cs

/-- Reads a word. A date may be followed by a space and a time. -/
def readWord (cs : List Char) : Option (Toml × List Char) :=
  let word := cs.takeWhile isWordChar
  let rest := cs.dropWhile isWordChar
  match Moment.readDate word, rest with
  | some (date, []), ' ' :: d :: after =>
    if d.isDigit then
      (Moment.readTimeAndOffset ((d :: after).takeWhile isWordChar)).map fun time =>
        (.datetime (String.ofList (date ++ 'T' :: time)), (d :: after).dropWhile isWordChar)
    else (ofWord word).map fun v => (v, rest)
  | _, _ => (ofWord word).map fun v => (v, rest)

end ChainEconomy.Toml
