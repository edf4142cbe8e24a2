import ChainEconomy.Text.Digits

/-! # Dates and times

A date, a time of day, or both with an offset that may be missing. Reading one gives its canonical
text: a `T` between the parts, `Z` for the offset zero that was written so, and at most nine digits
of a second, without zeros at the end. Every reader returns the canonical text and the rest. -/

namespace ChainEconomy.Toml.Moment

/-- Reads a number of exactly `count` digits. -/
def readFixed (count : Nat) (cs : List Char) : Option (Nat × List Char) :=
  let digits := cs.take count
  if digits.length = count ∧ Text.allDigits digits then
    some (Text.digitsValue digits, cs.drop count)
  else none

/-- Reads two digits of a number up to a bound. -/
def readUpTo (bound : Nat) (cs : List Char) : Option (Nat × List Char) :=
  match readFixed 2 cs with
  | some (n, rest) => if n ≤ bound then some (n, rest) else none
  | none => none

/-- Reads a fixed character. -/
def readMark (mark : Char) : List Char → Option (List Char)
  | c :: rest => if c = mark then some rest else none
  | [] => none

/-- The number of days in a month. -/
def daysIn (year month : Nat) : Nat :=
  if month = 2 then
    if year % 4 = 0 ∧ (year % 100 ≠ 0 ∨ year % 400 = 0) then 29 else 28
  else if month = 4 ∨ month = 6 ∨ month = 9 ∨ month = 11 then 30
  else 31

/-- A number in two digits. -/
def pair (n : Nat) : List Char := Text.zeroPadded 2 (Text.decimal n)

/-- Reads a date. -/
def readDate (cs : List Char) : Option (List Char × List Char) := do
  let (year, rest) ← readFixed 4 cs
  let rest ← readMark '-' rest
  let (month, rest) ← readUpTo 12 rest
  let rest ← readMark '-' rest
  let (day, rest) ← readUpTo (daysIn year month) rest
  if month = 0 ∨ day = 0 then none
  else return (Text.zeroPadded 4 (Text.decimal year) ++ '-' :: pair month ++ '-' :: pair day, rest)

/-- The text without the zeros at its end. -/
def dropTrailingZeros (cs : List Char) : List Char :=
  (cs.reverse.dropWhile fun c => c = '0').reverse

/-- Reads the fraction of a second. -/
def readFraction (cs : List Char) : Option (List Char × List Char) :=
  match cs with
  | '.' :: after =>
    let digits := after.takeWhile Char.isDigit
    if digits.isEmpty then none
    else
      let kept := dropTrailingZeros (digits.take 9)
      some (if kept.isEmpty then [] else '.' :: kept, after.dropWhile Char.isDigit)
  | _ => some ([], cs)

/-- Reads a time of day. -/
def readTime (cs : List Char) : Option (List Char × List Char) := do
  let (hour, rest) ← readUpTo 23 cs
  let rest ← readMark ':' rest
  let (minute, rest) ← readUpTo 59 rest
  let rest ← readMark ':' rest
  -- A leap second is the sixty-first of its minute.
  let (second, rest) ← readUpTo 60 rest
  let (fraction, rest) ← readFraction rest
  return (pair hour ++ ':' :: pair minute ++ ':' :: pair second ++ fraction, rest)

/-- Reads an offset; an offset of no minutes counts as positive. -/
def readOffset (cs : List Char) : Option (List Char × List Char) :=
  match cs with
  | [] => some ([], [])
  | sign :: rest =>
    if sign = 'Z' ∨ sign = 'z' then some (['Z'], rest)
    else if sign = '+' ∨ sign = '-' then do
      let (hours, rest) ← readUpTo 23 rest
      let rest ← readMark ':' rest
      let (minutes, rest) ← readUpTo 59 rest
      let sign := if hours = 0 ∧ minutes = 0 then '+' else sign
      return (sign :: pair hours ++ ':' :: pair minutes, rest)
    else some ([], cs)

/-- Reads a time of day with an offset, of which nothing may be left. -/
def readTimeAndOffset (cs : List Char) : Option (List Char) := do
  let (time, rest) ← readTime cs
  let (offset, rest) ← readOffset rest
  if rest.isEmpty then return time ++ offset else none

/-- Reads the word of a date, of a time, or of both. -/
def ofWord (cs : List Char) : Option (List Char) :=
  match readDate cs with
  | some (date, []) => some date
  | some (date, mark :: rest) =>
    if mark = 'T' ∨ mark = 't' then (readTimeAndOffset rest).map fun time => date ++ 'T' :: time
    else none
  | none =>
    match readTime cs with
    | some (time, []) => some time
    | _ => none

example : ofWord "1979-05-27t07:32:00.500z".toList = some "1979-05-27T07:32:00.5Z".toList := by
  decide +kernel
example : ofWord "2023-02-29".toList = none := by decide +kernel

end ChainEconomy.Toml.Moment
