/-! # Binary floating-point numbers

Non-negative numbers `mantissa · 2^exponent` with a mantissa below `2^53` and an exponent from
`-1074` to `971`: the finite values of the 64-bit binary format. A result that lies between two of
them is rounded to the nearer one, a tie to the even mantissa; all arithmetic before the rounding is
exact. -/

namespace ChainEconomy

/-- A non-negative finite number of the 64-bit binary format. -/
structure Binary64 where
  mantissa : Nat
  exponent : Int
  deriving DecidableEq, Repr

namespace Binary64

/-- The number zero. -/
def zero : Binary64 := ⟨0, -1074⟩

/-- The quotient rounded to the nearest whole number, a tie to the even one. -/
def roundQuotient (num den : Nat) : Nat :=
  let q := num / den
  let twice := 2 * (num % den)
  if twice < den then q
  else if den < twice then q + 1
  else q + q % 2

/-- The quotient `num / den · 2^-exponent`, as a numerator and a denominator. -/
def scaleDown (num den : Nat) (exponent : Int) : Nat × Nat :=
  if 0 ≤ exponent then (num, den * Nat.pow 2 exponent.toNat)
  else (num * Nat.pow 2 (-exponent).toNat, den)

/-- The exponent at which a positive quotient has a mantissa of 53 bits, or the least exponent. -/
def exponentFor (num den : Nat) : Int :=
  let guess := (num.log2 : Int) - (den.log2 : Int) - 52
  let (n, d) := scaleDown num den guess
  max (if n / d < Nat.pow 2 52 then guess - 1 else guess) (-1074)

/-- The number nearest to a quotient; none when it is too large for the format. -/
def ofRatio (num den : Nat) : Option Binary64 :=
  if num = 0 then some zero
  else
    let e := exponentFor num den
    let (n, d) := scaleDown num den e
    let m := roundQuotient n d
    let value : Binary64 := if m < Nat.pow 2 53 then ⟨m, e⟩ else ⟨Nat.pow 2 52, e + 1⟩
    if value.exponent ≤ 971 then some value else none

/-- The number as a numerator and a denominator. -/
def toRatio (x : Binary64) : Nat × Nat :=
  if 0 ≤ x.exponent then (x.mantissa * Nat.pow 2 x.exponent.toNat, 1)
  else (x.mantissa, Nat.pow 2 (-x.exponent).toNat)

/-- The number nearest to a whole number. -/
def ofNat (n : Nat) : Option Binary64 := ofRatio n 1

/-- The product of two numbers, rounded. -/
def mul (x y : Binary64) : Option Binary64 :=
  ofRatio (x.toRatio.1 * y.toRatio.1) (x.toRatio.2 * y.toRatio.2)

/-- The quotient of two numbers, rounded; the divisor must not be zero. -/
def div (x y : Binary64) : Option Binary64 :=
  ofRatio (x.toRatio.1 * y.toRatio.2) (x.toRatio.2 * y.toRatio.1)

/-- The whole number nearest to a number, a half going up. -/
def round (x : Binary64) : Nat :=
  let (n, d) := x.toRatio
  (2 * n + d) / (2 * d)

example : ofRatio 1 10 = some ⟨7205759403792794, -56⟩ := by decide +kernel
example : ofRatio 1 (2 ^ 1075) = some ⟨0, -1074⟩ := by decide +kernel
example : ofRatio (2 ^ 1024) 1 = none := by decide +kernel

end Binary64

end ChainEconomy
