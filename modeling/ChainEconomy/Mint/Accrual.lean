import ChainEconomy.Fixed

/-! # Accrual of new supply

For every second, the supply so far times the rate is owed, cut off after 18 places, and counts as
supply from then on. Whole units that are owed are minted, the rest is carried over. -/

namespace ChainEconomy.Mint

/-- New supply after some time. -/
structure Accrual where
  /-- Whole units. -/
  minted : Nat
  /-- What is owed besides, less than one unit. -/
  leftover : Fixed
  deriving DecidableEq, Repr

/-- What is owed after some seconds, from what the supply is and what is owed now. Once a second
adds nothing, the supply stays as it is and no later second adds anything either. -/
def compound (rate : Fixed) : Nat → Fixed → Fixed → Fixed
  | 0, _, owed => owed
  | seconds + 1, estimate, owed =>
    let increment := estimate.mulTruncate rate
    -- The increment depends on the estimate alone, which would not change any more.
    if increment.isZero then owed
    else compound rate seconds (estimate.add increment) (owed.add increment)

/-- New supply after some seconds. -/
def accrue (supply : Nat) (rate leftover : Fixed) (seconds : UInt64) : Accrual :=
  let owed :=
    if rate.isZero then leftover
    else compound rate seconds.toNat (Fixed.ofNat supply) leftover
  ⟨owed.floor, owed.fract⟩

example : accrue 1000 ⟨10 ^ 17⟩ Fixed.zero 2 = ⟨210, Fixed.zero⟩ := by decide +kernel

end ChainEconomy.Mint
