import ChainEconomy.Json.Basic

/-! # Number literals

The value of a JSON number. Digits are collected into a significand of 64 bits: once a digit of the
whole part no longer fits, it and the digits after it only raise the power of ten, and once a digit
of the fraction does not fit, the rest of the fraction is ignored. A literal without fraction and
exponent that fits 64 bits is a whole number; any other is the significand as a floating-point
number, multiplied or divided by the power of ten in steps of at most `10^308`. -/

namespace ChainEconomy.Json

/-- A number literal in parts: the digits before the point, those after it, and the exponent. -/
structure Literal where
  negative : Bool
  whole : List Char
  fraction : Option (List Char)
  exponent : Option (Bool × List Char)

/-- The largest number of 64 bits. -/
def maxWord : Nat := Nat.pow 2 64 - 1

/-- Collects the digits of the whole part; the number counts those that did not fit. -/
def collectWhole (significand : Nat) : List Char → Nat × Nat
  | [] => (significand, 0)
  | c :: rest =>
    let next := significand * 10 + Text.digitValue c
    if next ≤ maxWord then collectWhole next rest else (significand, rest.length + 1)

/-- Collects the digits of the fraction that fit; the number counts them. -/
def collectFraction (significand : Nat) : List Char → Nat × Nat
  | [] => (significand, 0)
  | c :: rest =>
    let next := significand * 10 + Text.digitValue c
    if next ≤ maxWord then
      let (total, count) := collectFraction next rest
      (total, count + 1)
    else (significand, 0)

/-- The number `x · 10^power`, reached by steps of at most `10^308`; none when it is too large. -/
def scaleByTen (x : Binary64) (power : Int) : Nat → Option Binary64
  | 0 => some .zero
  | steps + 1 =>
    if power.natAbs ≤ 308 then
      match Binary64.ofNat (Nat.pow 10 power.natAbs) with
      | none => none
      | some p => if 0 ≤ power then x.mul p else x.div p
    else if x.mantissa = 0 then some .zero
    else if 0 ≤ power then none
    else
      match Binary64.ofNat (Nat.pow 10 308) with
      | none => none
      | some p =>
        match x.div p with
        | none => none
        | some y => scaleByTen y (power + 308) steps

/-- The floating-point number nearest to a significand, times a power of ten. -/
def realOfParts (significand : Nat) (power : Int) : Option Binary64 :=
  match Binary64.ofNat significand with
  | none => none
  | some x => scaleByTen x power 4

/-- The largest exponent that is computed with; beyond it a number is zero or too large. -/
def maxExponent : Nat := Nat.pow 2 31 - 1

/-- The value of a literal; none when it is too large for the format. -/
def Literal.value (l : Literal) : Option Json :=
  let (whole, dropped) := collectWhole 0 l.whole
  match l.fraction, l.exponent, dropped with
  | none, none, 0 =>
    if !l.negative then some (.integer whole)
    else if 0 < whole ∧ whole ≤ Nat.pow 2 63 then some (.integer (-whole))
    else (Binary64.ofNat whole).map (.real true)
  | fraction, exponent, dropped =>
    let (significand, places) := collectFraction whole (fraction.getD [])
    let power : Int := (dropped : Int) - places
    let magnitude :=
      match exponent with
      | none => realOfParts significand power
      | some (negative, digits) =>
        let e := Text.digitsValue digits
        if maxExponent < e then
          if significand ≠ 0 ∧ !negative then none else some .zero
        else realOfParts significand (if negative then power - e else power + e)
    magnitude.map (.real l.negative)

end ChainEconomy.Json
