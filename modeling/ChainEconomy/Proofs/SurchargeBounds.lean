import ChainEconomy.Fee.Schedule
import ChainEconomy.Proofs.CoinSetAlgebra
import ChainEconomy.Proofs.CoinSetOrder
import ChainEconomy.Proofs.ParamsRoundTrip
import ChainEconomy.Proofs.Reachable

/-!
# The bounds of the surcharge

A percentage is an amount of the base denomination alone, but the least and the largest surcharge
are sets that may hold other denominations as well. Such a minimum dominates a lower percentage all
the same. Such a maximum is dominated by no percentage, however high, and so it bounds nothing.

## Key results

- `Schedule.minimum_dominates_iff`, `Schedule.dominates_maximum_iff`: the two comparisons
- `Schedule.surcharge_bounds`: when the surcharge lies between the bounds
- `Schedule.surcharge_above_maximum`: a surcharge above the maximum
-/

namespace ChainEconomy.Fee.Schedule

variable {s : Schedule} {fee : CoinSet} {x : Nat}

/-- The percentage of a value, as a number. -/
def percentageOf (s : Schedule) (value : CoinSet) : Nat :=
  value.amountOf s.params.baseDenom * s.params.percentage.mantissa /
    Nat.pow 10 s.params.percentage.scale

/-- Nothing but the base denomination is held, in the given amount. -/
def HoldsOnly (s : Schedule) (fee : CoinSet) (x : Nat) : Prop :=
  ∀ denom, fee.amountOf denom = if denom = s.params.baseDenom then x else 0

/-- What is held alone is what is held of the base denomination. -/
theorem HoldsOnly.base (h : s.HoldsOnly fee x) : fee.amountOf s.params.baseDenom = x :=
  (h _).trans (if_pos rfl)

/-- What is held alone comes without any other denomination. -/
theorem HoldsOnly.other (h : s.HoldsOnly fee x) {denom : String}
    (hne : denom ≠ s.params.baseDenom) : fee.amountOf denom = 0 :=
  (h denom).trans (if_neg hne)

/-- The percentage of a value is always found, and is an amount of the base denomination. -/
theorem percentageFee_eq_ok (s : Schedule) (value : CoinSet) :
    ∃ fee, s.percentageFee value = .ok fee ∧ s.HoldsOnly fee (s.percentageOf value) := by
  have hdenom := (Params.check_eq_ok_iff.1 s.valid).1
  obtain ⟨fee, hfee⟩ := CoinSet.exists_single_eq_ok hdenom (s.percentageOf value)
  exact ⟨fee, hfee, CoinSet.amountOf_single hfee⟩

/-- The minimum is never free. -/
theorem minimum_pos (s : Schedule) : 0 < s.params.minimum.amountOf s.params.baseDenom := by
  have hcheck := (Params.check_eq_ok_iff.1 s.valid).2.2.1
  unfold checkMinimum at hcheck
  split at hcheck
  · cases hcheck
  · next hne => exact Nat.pos_of_ne_zero hne

/-- The maximum is never free. -/
theorem maximum_pos (s : Schedule) : 0 < s.params.maximum.amountOf s.params.baseDenom := by
  have hcheck := (Params.check_eq_ok_iff.1 s.valid).2.2.2
  unfold checkMaximum at hcheck
  split at hcheck
  · cases hcheck
  · next hne => exact Nat.pos_of_ne_zero hne

/-! ## The two comparisons -/

/-- Whatever else the minimum holds, it dominates each lower amount. -/
theorem minimum_dominates_iff (h : s.HoldsOnly fee x) :
    s.params.minimum.dominates fee = true ↔ x < s.params.minimum.amountOf s.params.baseDenom := by
  rw [CoinSet.dominates_iff]
  constructor
  · rintro ⟨-, hmore⟩
    -- An amount of zero is the empty set, with nothing to compare.
    rcases Nat.eq_zero_or_pos x with rfl | hpos
    · exact s.minimum_pos
    · simpa only [h.base] using hmore s.params.baseDenom (h.base.symm ▸ hpos)
  · intro hlt
    -- Only the base denomination is compared, as the amount holds no other.
    refine ⟨⟨_, s.minimum_pos⟩, fun denom hpos => ?_⟩
    have hdenom : denom = s.params.baseDenom := by
      by_contra hne
      exact absurd (h.other hne) (Nat.ne_of_gt hpos)
    rw [hdenom, h.base]
    exact hlt

/-- A maximum that holds a second denomination is dominated by no amount. -/
theorem dominates_maximum_iff (h : s.HoldsOnly fee x) :
    fee.dominates s.params.maximum = true ↔
      (∀ denom, denom ≠ s.params.baseDenom → s.params.maximum.amountOf denom = 0) ∧
        s.params.maximum.amountOf s.params.baseDenom < x := by
  rw [CoinSet.dominates_iff]
  constructor
  · rintro ⟨-, hmore⟩
    -- The amount would have to hold more than what the maximum holds of another denomination.
    refine ⟨fun denom hne => Nat.eq_zero_of_not_pos fun hpos => ?_, ?_⟩
    · have hlt := hmore denom hpos
      rw [h.other hne] at hlt
      exact Nat.not_lt_zero _ hlt
    · simpa only [h.base] using hmore s.params.baseDenom s.maximum_pos
  · rintro ⟨halone, hlt⟩
    refine ⟨⟨s.params.baseDenom, h.base.symm ▸ Nat.zero_lt_of_lt hlt⟩, fun denom hpos => ?_⟩
    have hdenom : denom = s.params.baseDenom := by
      by_contra hne
      exact absurd (halone denom hne) (Nat.ne_of_gt hpos)
    rw [hdenom, h.base]
    exact hlt

/-! ## The surcharge -/

/-- The surcharge is always found. With a minimum not above the maximum, it is never below the
minimum, and not above the maximum exactly if the maximum holds no other denomination or the
percentage alone is not above it. -/
theorem surcharge_bounds (s : Schedule)
    (hbounds : s.params.minimum.amountOf s.params.baseDenom ≤
      s.params.maximum.amountOf s.params.baseDenom) (value : CoinSet) :
    ∃ fee, s.surcharge value = .ok fee ∧
      s.params.minimum.amountOf s.params.baseDenom ≤ fee.amountOf s.params.baseDenom ∧
      (fee.amountOf s.params.baseDenom ≤ s.params.maximum.amountOf s.params.baseDenom ↔
        (∀ denom, denom ≠ s.params.baseDenom → s.params.maximum.amountOf denom = 0) ∨
          s.percentageOf value ≤ s.params.maximum.amountOf s.params.baseDenom) := by
  obtain ⟨fee, hfee, honly⟩ := s.percentageFee_eq_ok value
  refine ⟨s.clamp fee, by rw [surcharge, hfee]; rfl, ?_⟩
  unfold clamp
  -- The surcharge is the minimum, the maximum or the percentage.
  split
  · next hlow =>
    -- The minimum is charged for less, and is not above the maximum.
    have hlt := (minimum_dominates_iff honly).1 hlow
    have hle := Nat.le_trans (Nat.le_of_lt hlt) hbounds
    exact ⟨Nat.le_refl _, iff_of_true hbounds (Or.inr hle)⟩
  · next hlow =>
    rw [minimum_dominates_iff honly, Nat.not_lt] at hlow
    split
    · next hhigh =>
      have halone := ((dominates_maximum_iff honly).1 hhigh).1
      exact ⟨hbounds, iff_of_true (Nat.le_refl _) (Or.inl halone)⟩
    · next hhigh =>
      -- The percentage is charged, be it in bounds or out of reach of the maximum.
      rw [dominates_maximum_iff honly, not_and, Nat.not_lt] at hhigh
      rw [honly.base]
      exact ⟨hlow, fun hle => Or.inr hle, fun h => h.elim hhigh id⟩

namespace Sample

open Chain.Sample

/-- One percent as surcharge, at least one and at most ten, with a maximum that holds a second
denomination as well. -/
def schedule : Schedule :=
  ⟨{ genesis.economy.feeParams with maximum := (coins 10).put "uatom" 1 },
    Except.eq_ok_of_isOk (by decide +kernel)⟩

end Sample

open Chain.Sample (coins)

/-- A percentage of five, which stays below the maximum by itself. -/
theorem surcharge_bounds_sample :
    Sample.schedule.params.minimum.amountOf "utoll" ≤
        Sample.schedule.params.maximum.amountOf "utoll" ∧
      ∃ fee, Sample.schedule.surcharge (coins 500) = .ok fee ∧
        1 ≤ fee.amountOf "utoll" ∧ fee.amountOf "utoll" ≤ 10 := by
  have hbounds : Sample.schedule.params.minimum.amountOf Sample.schedule.params.baseDenom ≤
      Sample.schedule.params.maximum.amountOf Sample.schedule.params.baseDenom := by decide +kernel
  obtain ⟨fee, hfee, hleast, hmost⟩ := surcharge_bounds Sample.schedule hbounds (coins 500)
  have hlow : Sample.schedule.percentageOf (coins 500) ≤
      Sample.schedule.params.maximum.amountOf Sample.schedule.params.baseDenom := by decide +kernel
  have hone : Sample.schedule.params.minimum.amountOf Sample.schedule.params.baseDenom = 1 := by
    decide +kernel
  have hten : Sample.schedule.params.maximum.amountOf Sample.schedule.params.baseDenom = 10 := by
    decide +kernel
  exact ⟨hbounds, fee, hfee, hone ▸ hleast, hten ▸ hmost.2 (Or.inr hlow)⟩

/-- The maximum of ten, which holds a second denomination as well, lets a surcharge of one hundred
pass. -/
theorem surcharge_above_maximum :
    Sample.schedule.params.minimum.amountOf Sample.schedule.params.baseDenom ≤
        Sample.schedule.params.maximum.amountOf Sample.schedule.params.baseDenom ∧
      ∃ fee, Sample.schedule.surcharge (coins 10000) = .ok fee ∧
        Sample.schedule.params.maximum.amountOf Sample.schedule.params.baseDenom <
          fee.amountOf Sample.schedule.params.baseDenom := by
  have hsurcharge : Sample.schedule.surcharge (coins 10000) = .ok (coins 100) := by decide +kernel
  exact ⟨by decide +kernel, coins 100, hsurcharge, by decide +kernel⟩

end ChainEconomy.Fee.Schedule
