import Mathlib
import ChainEconomy.Mint.Accrual

/-!
# Growth of the supply

Accrual, seen as the iteration of one function on atomic units: for every second, a number grows by
its product with the rate, cut off after the last place. The stop at a second that adds nothing
changes nothing, since that second leaves the estimate as it is, and with it every later second.

What matters about growth is that it is monotone and superadditive: what is put aside instead of
growing along never makes up for the growth it misses.

## Key results

- `accrue_eq_accrueEachSecond`: an accrual goes through every second, as far as its result tells
- `accrue_total`: whole units and leftover of an accrual are the growth over its seconds
- `iterate_grow_mono`, `iterate_grow_le`, `iterate_grow_add_le`: growth is monotone in the number
  and in the seconds, and superadditive
- `accrue_growth_le`: supply and leftover grow by no more than all of it would have grown
- `le_accrue_minted`: when an amount is at most the units that an accrual mints
-/

namespace ChainEconomy.Mint

/-- A number of atomic units after one more second. -/
def grow (rate : Fixed) (x : Nat) : Nat := x + x * rate.atomics / Fixed.unit

/-- A second takes nothing away. -/
theorem le_grow (rate : Fixed) (x : Nat) : x ≤ grow rate x := Nat.le_add_right _ _

/-- Of two numbers, the larger one stays the larger one. -/
theorem grow_mono (rate : Fixed) : Monotone (grow rate) := fun _ _ h =>
  Nat.add_le_add h (Nat.div_le_div_right (Nat.mul_le_mul_right rate.atomics h))

/-- What grows along earns at least nothing. -/
theorem grow_add_le (rate : Fixed) (x y : Nat) : grow rate x + y ≤ grow rate (x + y) := by
  -- The product with the rate is cut off, and the larger number loses no more than the smaller one.
  have hinterest : x * rate.atomics / Fixed.unit ≤ (x + y) * rate.atomics / Fixed.unit :=
    Nat.div_le_div_right (Nat.mul_le_mul_right rate.atomics (Nat.le_add_right x y))
  unfold grow
  omega

/-! ## Several seconds -/

/-- Of two numbers, the larger one stays the larger one over any number of seconds. -/
theorem iterate_grow_mono (rate : Fixed) (seconds : Nat) {x y : Nat} (h : x ≤ y) :
    (grow rate)^[seconds] x ≤ (grow rate)^[seconds] y :=
  (grow_mono rate).iterate seconds h

/-- Seconds take nothing away. -/
theorem le_iterate_grow (rate : Fixed) (seconds x : Nat) : x ≤ (grow rate)^[seconds] x := by
  induction seconds generalizing x with
  | zero => exact Nat.le_refl x
  -- One second first, and the others from what it has made of the number.
  | succ seconds ih => exact Nat.le_trans (le_grow rate x) (ih (grow rate x))

/-- More seconds bring no less. -/
theorem iterate_grow_le (rate : Fixed) {seconds seconds' : Nat} (h : seconds ≤ seconds') (x : Nat) :
    (grow rate)^[seconds] x ≤ (grow rate)^[seconds'] x := by
  obtain ⟨more, rfl⟩ := Nat.exists_eq_add_of_le h
  rw [Nat.add_comm, Function.iterate_add_apply]
  exact le_iterate_grow rate more _

/-- What is put aside while the rest grows is at most what all of it grows to. -/
theorem iterate_grow_add_le (rate : Fixed) (seconds x y : Nat) :
    (grow rate)^[seconds] x + y ≤ (grow rate)^[seconds] (x + y) := by
  induction seconds generalizing x with
  | zero => exact Nat.le_refl _
  | succ seconds ih =>
    rw [Function.iterate_succ_apply, Function.iterate_succ_apply]
    -- What is put aside joins in after the first second instead, which earns no less.
    exact Nat.le_trans (ih (grow rate x)) (iterate_grow_mono rate seconds (grow_add_le rate x y))

/-! ## Accrual, second by second -/

/-- A running estimate of the supply, and what is owed so far. -/
structure Running where
  estimate : Fixed
  owed : Fixed

namespace Running

/-- One second later: what the second adds counts in both. -/
def next (rate : Fixed) (r : Running) : Running :=
  let increment := r.estimate.mulTruncate rate
  ⟨r.estimate.add increment, r.owed.add increment⟩

/-- A second that adds nothing leaves the estimate as it is, and so does every later one. -/
theorem isFixedPt_next {rate : Fixed} {r : Running}
    (h : (r.estimate.mulTruncate rate).atomics = 0) : Function.IsFixedPt (next rate) r := by
  -- Adding what rounds to nothing is adding zero, in the estimate as in what is owed.
  have hadd : ∀ x : Fixed, x.add (r.estimate.mulTruncate rate) = x := by
    intro x
    rw [Fixed.add, h, Nat.add_zero]
  show next rate r = r
  rw [next, hadd, hadd]

/-- What is owed grows along with the estimate. -/
theorem iterate_next_total (rate : Fixed) (seconds : Nat) (r : Running) :
    ((next rate)^[seconds] r).owed.atomics + r.estimate.atomics =
      r.owed.atomics + (grow rate)^[seconds] r.estimate.atomics := by
  induction seconds generalizing r with
  | zero => rfl
  | succ seconds ih =>
    have hestimate : (next rate r).estimate.atomics = grow rate r.estimate.atomics := rfl
    -- The same increment counts in both, so that their difference is the same after the second.
    have howed : (next rate r).owed.atomics + r.estimate.atomics =
        r.owed.atomics + grow rate r.estimate.atomics := by
      simp only [next, Fixed.add, Fixed.mulTruncate, grow]
      omega
    have hrest := ih (next rate r)
    rw [hestimate] at hrest
    rw [Function.iterate_succ_apply, Function.iterate_succ_apply]
    omega

end Running

/-- New supply after some seconds, every one of which is gone through. -/
def accrueEachSecond (supply : Nat) (rate leftover : Fixed) (seconds : UInt64) : Accrual :=
  let owed := ((Running.next rate)^[seconds.toNat] ⟨Fixed.ofNat supply, leftover⟩).owed
  ⟨owed.floor, owed.fract⟩

/-- The stop at a second that adds nothing skips only seconds that add nothing. -/
theorem compound_eq_iterate (rate : Fixed) (seconds : Nat) (r : Running) :
    compound rate seconds r.estimate r.owed = ((Running.next rate)^[seconds] r).owed := by
  induction seconds generalizing r with
  | zero => rfl
  | succ seconds ih =>
    rw [Function.iterate_succ_apply]
    -- The loop stops early or takes the step of the iteration; a stop is a step that changes
    -- nothing.
    unfold compound
    dsimp only
    split
    · next hzero =>
      have hnothing : (r.estimate.mulTruncate rate).atomics = 0 := by
        simpa [Fixed.isZero] using hzero
      have hfixed := Running.isFixedPt_next hnothing
      rw [hfixed, (hfixed.iterate seconds).eq]
    · exact ih (Running.next rate r)

/-- A rate of zero needs no seconds to be gone through: each of them would add nothing. -/
theorem owed_eq_iterate (rate : Fixed) (seconds : Nat) (r : Running) :
    (if rate.isZero then r.owed else compound rate seconds r.estimate r.owed) =
      ((Running.next rate)^[seconds] r).owed := by
  split
  · next hzero =>
    have hrate : rate.atomics = 0 := by simpa [Fixed.isZero] using hzero
    have hnothing : (r.estimate.mulTruncate rate).atomics = 0 := by
      simp [Fixed.mulTruncate, hrate]
    rw [((Running.isFixedPt_next hnothing).iterate seconds).eq]
  · exact compound_eq_iterate rate seconds r

/-- Neither the look at the rate nor the stop at a second that adds nothing makes a difference: an
accrual is what going through every second gives. -/
theorem accrue_eq_accrueEachSecond (supply : Nat) (rate leftover : Fixed) (seconds : UInt64) :
    accrue supply rate leftover seconds = accrueEachSecond supply rate leftover seconds := by
  -- Both sides start from the same running numbers.
  have howed := owed_eq_iterate rate seconds.toNat ⟨Fixed.ofNat supply, leftover⟩
  unfold accrue accrueEachSecond
  rw [← howed]

/-- Accrual mints whole units and leaves a fraction over, which together are the old leftover and
the growth of the supply. -/
theorem accrue_total (supply : Nat) (rate leftover : Fixed) (seconds : UInt64) :
    (accrue supply rate leftover seconds).minted * Fixed.unit +
        (accrue supply rate leftover seconds).leftover.atomics + supply * Fixed.unit =
      leftover.atomics + (grow rate)^[seconds.toNat] (supply * Fixed.unit) := by
  have howed := owed_eq_iterate rate seconds.toNat ⟨Fixed.ofNat supply, leftover⟩
  have htotal := Running.iterate_next_total rate seconds.toNat ⟨Fixed.ofNat supply, leftover⟩
  rw [← howed] at htotal
  unfold accrue
  dsimp only
  -- Cutting a number into whole units and a fraction does not change what it amounts to.
  rw [Fixed.floor_fract]
  exact htotal

/-- No whole unit is left over. -/
theorem accrue_leftover_isBelowOne (supply : Nat) (rate leftover : Fixed) (seconds : UInt64) :
    (accrue supply rate leftover seconds).leftover.isBelowOne = true :=
  Fixed.fract_isBelowOne _

/-- What is left over is less than a whole unit. -/
theorem accrue_leftover_lt (supply : Nat) (rate leftover : Fixed) (seconds : UInt64) :
    (accrue supply rate leftover seconds).leftover.atomics < Fixed.unit := by
  simpa [Fixed.isBelowOne] using accrue_leftover_isBelowOne supply rate leftover seconds

/-- An accrual makes supply and leftover grow by no more than all of it would have grown: what is
left over does not grow along. -/
theorem accrue_growth_le {supply : Nat} {rate leftover : Fixed} {seconds : UInt64}
    {accrual : Accrual} (h : accrue supply rate leftover seconds = accrual) :
    (supply + accrual.minted) * Fixed.unit + accrual.leftover.atomics ≤
      (grow rate)^[seconds.toNat] (supply * Fixed.unit + leftover.atomics) := by
  have htotal := accrue_total supply rate leftover seconds
  have haside := iterate_grow_add_le rate seconds.toNat (supply * Fixed.unit) leftover.atomics
  rw [h] at htotal
  rw [Nat.add_mul]
  omega

/-- An amount is minted by an accrual that starts without a leftover if the supply does not grow
beyond the amount and itself. -/
theorem le_accrue_minted {supply amount : Nat} {rate : Fixed} {seconds : UInt64}
    (h : (supply + amount) * Fixed.unit ≤ (grow rate)^[seconds.toNat] (supply * Fixed.unit)) :
    amount ≤ (accrue supply rate Fixed.zero seconds).minted := by
  have htotal := accrue_total supply rate Fixed.zero seconds
  have hfraction := accrue_leftover_lt supply rate Fixed.zero seconds
  have hzero : Fixed.zero.atomics = 0 := rfl
  -- Otherwise at least one more unit would have grown, but only a fraction has not been minted.
  by_contra hless
  have hmore : (accrue supply rate Fixed.zero seconds).minted + 1 ≤ amount := by omega
  have hunits := Nat.mul_le_mul_right Fixed.unit hmore
  rw [Nat.add_mul] at h
  rw [Nat.add_mul] at hunits
  omega

end ChainEconomy.Mint
