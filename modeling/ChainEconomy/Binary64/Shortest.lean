import ChainEconomy.Binary64
import ChainEconomy.Text.Digits

/-! # The shortest decimal form of a binary number

Among the decimal numbers that round to a given binary number, the one with the fewest digits, and
of those the nearest; which of two equally near ones is taken is left to the format. Every number
between two midpoints rounds to the value between them; a midpoint itself does if the mantissa is
even. On the grid of multiples of a power of ten, some multiple lies in that interval exactly if one
of the two neighbours of the value does, so that the coarsest grid with a hit gives the fewest
digits. -/

namespace ChainEconomy.Binary64

/-- The quotient `num / den / 10^power`, as a numerator and a denominator. -/
private def overPowerOfTen (num den : Nat) (power : Int) : Nat × Nat :=
  if 0 ≤ power then (num, den * Nat.pow 10 power.toNat)
  else (num * Nat.pow 10 (-power).toNat, den)

/-- Whether `digits · 10^power` rounds to the number. All is compared in quarters of the last binary
place, because below a power of two the neighbours are half as far apart. -/
def readsBack (x : Binary64) (digits : Nat) (power : Int) : Bool :=
  let quarter : Binary64 := ⟨1, x.exponent - 2⟩
  let (qn, qd) := quarter.toRatio
  let below := if x.mantissa = Nat.pow 2 52 ∧ -1074 < x.exponent then 1 else 2
  let low := (4 * x.mantissa - below) * qn
  let high := (4 * x.mantissa + 2) * qn
  let (n, d) :=
    if 0 ≤ power then (digits * Nat.pow 10 power.toNat, 1)
    else (digits, Nat.pow 10 (-power).toNat)
  if x.mantissa % 2 = 0 then Nat.ble (low * d) (n * qd) && Nat.ble (n * qd) (high * d)
  else Nat.blt (low * d) (n * qd) && Nat.blt (n * qd) (high * d)

/-- Which of two equally near neighbours is taken: the larger one, or the one with an even digit. -/
inductive Tie where
  | up
  | even
  deriving DecidableEq, Repr

/-- Whether the smaller of two neighbours is taken, for the quotient `n / d` between them. -/
def Tie.takesLower (tie : Tie) (n d : Nat) : Bool :=
  let twice := 2 * (n % d)
  Nat.blt twice d || (twice = d && tie = .even && n / d % 2 = 0)

/-- Tries ever finer grids of multiples of a power of ten, starting at `10^power`. -/
private def searchFrom (tie : Tie) (x : Binary64) (power : Int) : Nat → Nat × Int
  | 0 => (0, 0)
  | grids + 1 =>
    let (num, den) := x.toRatio
    let (n, d) := overPowerOfTen num den power
    let lower := n / d
    let lowerHits := Nat.blt 0 lower && readsBack x lower power
    let upperHits := readsBack x (lower + 1) power
    if lowerHits && upperHits then
      (if tie.takesLower n d then (lower, power) else (lower + 1, power))
    else if lowerHits then (lower, power)
    else if upperHits then (lower + 1, power)
    else searchFrom tie x (power - 1) grids

/-- The digits and the power of ten of the shortest decimal form; zero is `0 · 10^0`. -/
def shortest (tie : Tie) (x : Binary64) : Nat × Int :=
  if x.mantissa = 0 then (0, 0) else searchFrom tie x 309 640

/-- The number `digits · 10^power` written out without an exponent and without trailing zeros. -/
def positional (digits : Nat) (power : Int) : List Char :=
  let ds := Text.decimal digits
  if 0 ≤ power then ds ++ List.replicate power.toNat '0'
  else
    let places := (-power).toNat
    let ds := Text.zeroPadded (places + 1) ds
    ds.take (ds.length - places) ++ '.' :: ds.drop (ds.length - places)

/-- The shortest decimal form, a tie going up, written out without an exponent. -/
def toText (x : Binary64) : List Char :=
  let (digits, power) := x.shortest .up
  positional digits power

example : (ofRatio 1 10).map toText = some ['0', '.', '1'] := by decide +kernel
example : (ofRatio 1 4).map (shortest .up) = some (25, -2) := by decide +kernel
example : (ofRatio 4503599627370499 4).map (shortest .up) = some (11258999068426248, -1) := by
  decide +kernel
example : (ofRatio 4503599627370497 4).map (shortest .even) = some (11258999068426242, -1) := by
  decide +kernel
example : (ofRatio 3000 1).map toText = some ['3', '0', '0', '0'] := by decide +kernel

end ChainEconomy.Binary64
