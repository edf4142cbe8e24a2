import ChainEconomy.Json.Record

/-! # Rates

Decimal numbers set by governance: a sign, a whole mantissa below `2^96` and a scale of at most 28
places. The scale belongs to the number's text: `0.0020` and `0.002` are different rates of equal
value. A zero that is read digit by digit has no sign, one that is left over when an exponent moves
a negative number beyond the last place keeps it; either way its value is zero.

A text is read digit by digit. The first digit of the fraction that would lift the mantissa over its
limit or the scale over 28 decides the rounding, and the digits after it are only checked. -/

namespace ChainEconomy

/-- A decimal number set by governance. -/
structure Rate where
  negative : Bool
  mantissa : Nat
  scale : Nat
  mantissa_lt : mantissa < Nat.pow 2 96
  scale_le : scale ≤ 28

namespace Rate

instance : DecidableEq Rate := fun a b =>
  decidable_of_iff (a.negative = b.negative ∧ a.mantissa = b.mantissa ∧ a.scale = b.scale)
    (by cases a; cases b; simp)

/-- The rate with a given sign, mantissa and scale; none when they are out of range. -/
def ofParts? (negative : Bool) (mantissa scale : Nat) : Option Rate :=
  if h : mantissa < Nat.pow 2 96 ∧ scale ≤ 28 then some ⟨negative, mantissa, scale, h.1, h.2⟩
  else none

/-- The rate zero, without places. -/
def zero : Rate := ⟨false, 0, 0, by decide, by decide⟩

instance : Inhabited Rate := ⟨zero⟩

/-! ## Comparison -/

/-- Whether the rate is below zero. -/
def isNegative (r : Rate) : Bool := r.negative && Nat.blt 0 r.mantissa

/-- Whether the rate is at least one. -/
def atLeastOne (r : Rate) : Bool := !r.negative && Nat.ble (Nat.pow 10 r.scale) r.mantissa

/-- Whether the rate is more than one. -/
def exceedsOne (r : Rate) : Bool := !r.negative && Nat.blt (Nat.pow 10 r.scale) r.mantissa

/-! ## Writing -/

/-- The digits, with a point in front of the last `scale` of them. -/
def renderChars (r : Rate) : List Char :=
  let digits := Text.zeroPadded (r.scale + 1) (Text.decimal r.mantissa)
  let whole := digits.take (digits.length - r.scale)
  let fraction := digits.drop (digits.length - r.scale)
  let number := if r.scale = 0 then whole else whole ++ '.' :: fraction
  if r.negative then '-' :: number else number

/-- The text of a rate. -/
def render (r : Rate) : String := String.ofList r.renderChars

instance : ToString Rate := ⟨render⟩

/-- A rate as a string of its text. -/
def toJson (r : Rate) : Json := .string r.render

/-! ## Reading -/

/-- The digits read so far. -/
structure Progress where
  mantissa : Nat
  scale : Nat
  afterPoint : Bool
  anyDigit : Bool

/-- Rounds the number read so far by the digit that no longer fits, after checking the characters
behind it. A mantissa that rounding lifts over its limit gives up one more place. -/
def roundOff (p : Progress) (next : Nat) (rest : List Char) : Option (Nat × Nat) :=
  if !(rest.all fun c => c.isDigit || c = '_') then none
  else if next < 5 then some (p.mantissa, p.scale)
  else if p.mantissa + 1 < Nat.pow 2 96 then some (p.mantissa + 1, p.scale)
  else if p.scale = 0 then none
  else some ((p.mantissa + 1 + 4) / 10, p.scale - 1)

/-- The mantissa from which on a number counts as large. -/
def largeMantissa : Nat := (Nat.pow 2 64 - 1) / 10 - 255

/-- Whether the number read so far had become large before its last digit. -/
def Progress.isLarge (p : Progress) : Bool := Nat.ble largeMantissa (p.mantissa / 10)

/-- Reads digits, underscores after the first digit, and at most one point. An underscore in the
place that decides the rounding is passed over in a large number; in a smaller one it counts as a
zero. -/
def readFrom (p : Progress) : List Char → Option (Nat × Nat)
  | [] => if p.anyDigit then some (p.mantissa, p.scale) else none
  | c :: rest =>
    if c.isDigit then
      let next := p.mantissa * 10 + Text.digitValue c
      -- A digit that does not fit is rounded off behind the point, and refused in front of it.
      if p.afterPoint && (p.scale = 28 || Nat.ble (Nat.pow 2 96) next) then
        roundOff p (Text.digitValue c) rest
      else if Nat.ble (Nat.pow 2 96) next then none
      else
        readFrom ⟨next, if p.afterPoint then p.scale + 1 else p.scale, p.afterPoint, true⟩ rest
    else if c = '.' then
      if p.afterPoint then none else readFrom { p with afterPoint := true } rest
    else if c = '_' && p.anyDigit then
      if p.afterPoint && p.scale = 28 && !p.isLarge then roundOff p 0 rest else readFrom p rest
    else none

/-- Reads a number without an exponent: a sign that may be missing, and digits. Zero has no sign. -/
def parsePlain? (cs : List Char) : Option Rate :=
  let (negative, body) :=
    match cs with
    | '-' :: rest => (true, rest)
    | '+' :: rest => (false, rest)
    | cs => (false, cs)
  match readFrom ⟨0, 0, false, false⟩ body with
  | none => none
  | some (mantissa, scale) => ofParts? (negative && Nat.blt 0 mantissa) mantissa scale

/-- A mantissa without its last places, rounded by the first digit that goes, a half up. -/
def dropPlaces (mantissa places : Nat) : Nat :=
  (2 * mantissa + Nat.pow 10 places) / (2 * Nat.pow 10 places)

/-- Moves the point by a decimal exponent. Places beyond the 28th are rounded off. A number that
becomes whole gets scale zero, and is refused when its mantissa would pass the limit. -/
def shift? (r : Rate) (negative : Bool) (exponent : Nat) : Option Rate :=
  if 28 < exponent then none
  else if negative then
    if r.scale + exponent ≤ 28 then ofParts? r.negative r.mantissa (r.scale + exponent)
    else ofParts? r.negative (dropPlaces r.mantissa (r.scale + exponent - 28)) 28
  else if exponent ≤ r.scale then ofParts? r.negative r.mantissa (r.scale - exponent)
  else ofParts? r.negative (r.mantissa * Nat.pow 10 (exponent - r.scale)) 0

/-- An exponent without its minus sign: digits, perhaps behind a plus sign. -/
def exponentValue? (cs : List Char) : Option Nat :=
  let digits :=
    match cs with
    | '+' :: rest => rest
    | cs => cs
  if digits.isEmpty || !Text.allDigits digits then none else some (Text.digitsValue digits)

/-- Reads a number with an exponent. -/
def parseScientific? (cs : List Char) : Option Rate :=
  -- A capital letter is the mark only where there is no small one.
  let mark := if cs.contains 'e' then 'e' else 'E'
  let base := cs.takeWhile (· != mark)
  match cs.dropWhile (· != mark) with
  | [] => none
  | _ :: exponent =>
    let (negative, magnitude) :=
      match exponent with
      | '-' :: rest => (true, rest)
      | rest => (false, rest)
    match exponentValue? magnitude, parsePlain? base with
    | some n, some r => shift? r negative n
    | _, _ => none

/-- Reads a rate, with or without an exponent. -/
def parse? (cs : List Char) : Option Rate :=
  match parsePlain? cs with
  | some r => some r
  | none => parseScientific? cs

/-- A rate from a whole number. -/
def ofInt? (n : Int) : Option Rate := ofParts? (decide (n < 0)) n.natAbs 0

/-- Reads a rate from a string or from a number; a floating-point number counts as its shortest
decimal form. -/
def ofJson (j : Json) : Except Json.Fault Rate :=
  let refused : Except Json.Fault Rate := .error (Json.wrongKind j "a Decimal type")
  let accept (r : Option Rate) : Except Json.Fault Rate :=
    match r with
    | some r => .ok r
    | none => refused
  match j with
  | .string s => accept (parse? s.toList)
  | .integer n => accept (ofInt? n)
  | .real negative magnitude =>
    accept (parse? (if negative then '-' :: magnitude.toText else magnitude.toText))
  | _ => refused

end Rate

end ChainEconomy
