import ChainEconomy.Proofs.AccrualGrowth

/-!
# What an accrual is worth

The whole units of an accrual and its leftover are two parts of one amount. This amount is compared
here with what compound interest comes to over the rational numbers, and with the amounts of other
accruals.

Every second cuts off less than one atomic unit. What is cut off does not earn anything later, so
that the loss of a second grows at the full rate until the end. All losses together are therefore
less than the sum of the growth factors of the seconds that follow them.

## Key results

- `grow_le_exact`, `exact_sub_one_lt_grow`: what one second cuts off
- `iterate_grow_le_exact`, `exact_sub_sum_le_iterate_grow`: what several seconds lose
- `accrue_tracks_interest`: an accrual falls short of compound interest, and by how much at most
- `accrue_mono`: more supply, rate, leftover or time never bring less
-/

namespace ChainEconomy

/-- The number that atomic units make up. -/
def Fixed.toRat (a : Fixed) : ℚ := a.atomics / Fixed.unit

namespace Mint

/-- Whole units and leftover together, in atomic units. -/
def Accrual.value (a : Accrual) : Nat := a.minted * Fixed.unit + a.leftover.atomics

/-! ## Exact growth -/

/-- What a second multiplies an amount by when nothing is cut off. -/
def factor (rate : Fixed) : ℚ := 1 + rate.toRat

/-- What compound interest adds to a supply in some seconds, in atomic units. -/
def exactInterest (supply : Nat) (rate : Fixed) (seconds : Nat) : ℚ :=
  supply * Fixed.unit * (factor rate ^ seconds - 1)

/-- A factor is never negative, since no rate is. -/
theorem factor_nonneg (rate : Fixed) : 0 ≤ factor rate := by
  unfold factor Fixed.toRat
  positivity

/-- An amount together with its exact interest of a second. -/
theorem mul_factor (rate : Fixed) (x : ℚ) :
    x * factor rate = x + x * rate.atomics / Fixed.unit := by
  unfold factor Fixed.toRat
  ring

/-- There are atomic units in a whole one. -/
theorem unit_pos : (0 : ℚ) < Fixed.unit := by
  have h : 0 < Fixed.unit := by decide
  exact_mod_cast h

/-- The interest of a second is cut off, never rounded up. -/
theorem grow_le_exact (rate : Fixed) (x : Nat) : (grow rate x : ℚ) ≤ x * factor rate := by
  -- Division on natural numbers is division on rational ones, cut off.
  have hcut : ((x * rate.atomics / Fixed.unit : Nat) : ℚ) ≤ x * rate.atomics / Fixed.unit := by
    simpa using Nat.cast_div_le (m := x * rate.atomics) (n := Fixed.unit) (α := ℚ)
  rw [mul_factor, grow, Nat.cast_add]
  linarith

/-- Less than one atomic unit is cut off. -/
theorem exact_sub_one_lt_grow (rate : Fixed) (x : Nat) :
    x * factor rate - 1 < (grow rate x : ℚ) := by
  -- The next number of whole units would have been too much.
  have hnext : x * rate.atomics < (x * rate.atomics / Fixed.unit + 1) * Fixed.unit :=
    (Nat.div_lt_iff_lt_mul (by decide)).1 (Nat.lt_succ_self _)
  have hcut : (x * rate.atomics : ℚ) / Fixed.unit <
      ((x * rate.atomics / Fixed.unit : Nat) : ℚ) + 1 := by
    rw [div_lt_iff₀ unit_pos]
    exact_mod_cast hnext
  rw [mul_factor, grow, Nat.cast_add]
  linarith

/-! ## Several seconds -/

/-- What has been cut off is never made up for. -/
theorem iterate_grow_le_exact (rate : Fixed) (seconds x : Nat) :
    ((grow rate)^[seconds] x : ℚ) ≤ x * factor rate ^ seconds := by
  induction seconds generalizing x with
  | zero => simp
  | succ seconds ih =>
    -- The loss of the first second shrinks the starting point of all the others.
    rw [Function.iterate_succ_apply]
    calc ((grow rate)^[seconds] (grow rate x) : ℚ)
        ≤ grow rate x * factor rate ^ seconds := ih (grow rate x)
      _ ≤ x * factor rate * factor rate ^ seconds :=
          mul_le_mul_of_nonneg_right (grow_le_exact rate x) (pow_nonneg (factor_nonneg rate) _)
      _ = x * factor rate ^ (seconds + 1) := by ring

/-- One more second multiplies all earlier losses, and adds one of its own. -/
theorem sum_factor_succ (rate : Fixed) (seconds : Nat) :
    ∑ i ∈ Finset.range (seconds + 1), factor rate ^ i =
      (∑ i ∈ Finset.range seconds, factor rate ^ i) * factor rate + 1 := by
  rw [Finset.sum_range_succ', Finset.sum_mul, pow_zero]
  simp only [pow_succ]

/-- What all seconds together have lost at the end. -/
theorem exact_sub_sum_le_iterate_grow (rate : Fixed) (seconds x : Nat) :
    x * factor rate ^ seconds - ∑ i ∈ Finset.range seconds, factor rate ^ i ≤
      ((grow rate)^[seconds] x : ℚ) := by
  induction seconds with
  | zero => simp
  | succ seconds ih =>
    -- The last second works on what the others have left.
    have hlast := exact_sub_one_lt_grow rate ((grow rate)^[seconds] x)
    have hbefore := mul_le_mul_of_nonneg_right ih (factor_nonneg rate)
    rw [Function.iterate_succ_apply', sum_factor_succ, pow_succ]
    linarith

/-! ## Accruals -/

/-- An accrual is worth the old leftover and the growth of the supply. -/
theorem accrue_value (supply : Nat) (rate leftover : Fixed) (seconds : UInt64) :
    (accrue supply rate leftover seconds).value + supply * Fixed.unit =
      leftover.atomics + (grow rate)^[seconds.toNat] (supply * Fixed.unit) :=
  accrue_total supply rate leftover seconds

/-- Every whole unit that is owed is minted. -/
theorem accrue_minted (supply : Nat) (rate leftover : Fixed) (seconds : UInt64) :
    (accrue supply rate leftover seconds).minted =
      (accrue supply rate leftover seconds).value / Fixed.unit := by
  have hfraction := accrue_leftover_lt supply rate leftover seconds
  rw [Accrual.value, Nat.add_comm, Nat.add_mul_div_right _ _ (by decide),
    Nat.div_eq_of_lt hfraction, Nat.zero_add]

/-- An accrual tracks compound interest from below. What it adds to the old leftover, in whole units
and in the new leftover, is at most the exact interest on the supply, and falls short of it by at
most one atomic unit for each second, with the interest that this unit would have earned until the
end. -/
theorem accrue_tracks_interest (supply : Nat) (rate leftover : Fixed) (seconds : UInt64) :
    exactInterest supply rate seconds.toNat -
        ∑ i ∈ Finset.range seconds.toNat, factor rate ^ i ≤
      ((accrue supply rate leftover seconds).value : ℚ) - leftover.atomics ∧
    ((accrue supply rate leftover seconds).value : ℚ) - leftover.atomics ≤
      exactInterest supply rate seconds.toNat := by
  -- What is owed on top of the old leftover is the growth of the supply.
  have hgrowth : ((accrue supply rate leftover seconds).value : ℚ) + supply * Fixed.unit =
      leftover.atomics + ((grow rate)^[seconds.toNat] (supply * Fixed.unit) : Nat) := by
    exact_mod_cast accrue_value supply rate leftover seconds
  have hexact : exactInterest supply rate seconds.toNat =
      ((supply * Fixed.unit : Nat) : ℚ) * factor rate ^ seconds.toNat - supply * Fixed.unit := by
    rw [exactInterest, Nat.cast_mul]
    ring
  have hupper := iterate_grow_le_exact rate seconds.toNat (supply * Fixed.unit)
  have hlower := exact_sub_sum_le_iterate_grow rate seconds.toNat (supply * Fixed.unit)
  rw [hexact]
  constructor
  · linarith
  · linarith

/-! ## Comparing accruals -/

/-- A higher rate brings no less. -/
theorem grow_le_of_rate_le {rate rate' : Fixed} (h : rate.atomics ≤ rate'.atomics) :
    grow rate ≤ grow rate' := by
  intro x
  exact Nat.add_le_add_left (Nat.div_le_div_right (Nat.mul_le_mul_left x h)) x

/-- The larger supply grows by no less: what it is larger by may be put aside, and the rest of it
grows at the higher rate and for longer. -/
theorem iterate_grow_sub_le {rate rate' : Fixed} {seconds seconds' x x' : Nat}
    (hrate : rate.atomics ≤ rate'.atomics) (hseconds : seconds ≤ seconds') (hx : x ≤ x') :
    (grow rate)^[seconds] x + x' ≤ x + (grow rate')^[seconds'] x' := by
  obtain ⟨more, rfl⟩ := Nat.exists_eq_add_of_le hx
  -- The three steps are: put the difference aside, raise the rate, let it run for longer.
  have haside := iterate_grow_add_le rate seconds x more
  have hfaster : (grow rate)^[seconds] (x + more) ≤ (grow rate')^[seconds] (x + more) :=
    (grow_mono rate).iterate_le_of_le (grow_le_of_rate_le hrate) seconds (x + more)
  have hlonger := iterate_grow_le rate' hseconds (x + more)
  omega

/-- Accrual is monotone in all of its arguments. An accrual on no less supply, at no lower rate,
with no smaller leftover and over no fewer seconds is worth no less, and mints no fewer whole
units. -/
theorem accrue_mono {supply supply' : Nat} {rate rate' leftover leftover' : Fixed}
    {seconds seconds' : UInt64} (hsupply : supply ≤ supply') (hrate : rate.atomics ≤ rate'.atomics)
    (hleftover : leftover.atomics ≤ leftover'.atomics) (hseconds : seconds.toNat ≤ seconds'.toNat) :
    (accrue supply rate leftover seconds).value ≤
        (accrue supply' rate' leftover' seconds').value ∧
      (accrue supply rate leftover seconds).minted ≤
        (accrue supply' rate' leftover' seconds').minted := by
  have hvalue : (accrue supply rate leftover seconds).value ≤
      (accrue supply' rate' leftover' seconds').value := by
    -- Both values are written as what the supply grows to, which is compared.
    have hfirst := accrue_value supply rate leftover seconds
    have hsecond := accrue_value supply' rate' leftover' seconds'
    have hgrowth := iterate_grow_sub_le hrate hseconds (Nat.mul_le_mul_right Fixed.unit hsupply)
    omega
  refine ⟨hvalue, ?_⟩
  -- Whole units are cut off from the values, and this keeps the order.
  rw [accrue_minted, accrue_minted]
  exact Nat.div_le_div_right hvalue

/-- The first accrual has nothing that could grow and stops at once, with a unit and a half that
were left over; the second one goes through all of its seconds. -/
theorem accrue_mono_sample :
    accrue 0 ⟨10 ^ 17⟩ ⟨1500000000000000000⟩ 3 = ⟨1, ⟨500000000000000000⟩⟩ ∧
      accrue 10 ⟨2 * 10 ^ 17⟩ ⟨1500000000000000001⟩ 4 = ⟨12, ⟨236000000000000001⟩⟩ ∧
      (accrue 0 ⟨10 ^ 17⟩ ⟨1500000000000000000⟩ 3).value ≤
        (accrue 10 ⟨2 * 10 ^ 17⟩ ⟨1500000000000000001⟩ 4).value ∧
      (accrue 0 ⟨10 ^ 17⟩ ⟨1500000000000000000⟩ 3).minted ≤
        (accrue 10 ⟨2 * 10 ^ 17⟩ ⟨1500000000000000001⟩ 4).minted :=
  ⟨by decide +kernel, by decide +kernel,
    accrue_mono (by decide) (by decide) (by decide) (by decide)⟩

end Mint

end ChainEconomy
