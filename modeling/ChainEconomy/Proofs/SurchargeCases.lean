import ChainEconomy.Proofs.SurchargeBounds

/-!
# The surcharge as a function of the value

The percentage of a value decides which of three sets is charged: the minimum, the maximum, or the
percentage itself. The first two are charged whole, with all their denominations, and the maximum
only if it has no second one. The bounds may cross, as nothing asks for a minimum below the maximum;
then a minimum that strictly dominates the maximum is itself too high, and clamping does not settle.

## Key results

- `clamp_of_below`, `clamp_of_above`, `clamp_of_between`: what a percentage becomes
- `surcharge_exact`: the surcharge, case by case
- `surcharge_monotone`: if the bounds do not cross, a higher value is never charged less; whatever
  the bounds, the charge is at most the minimum or at most the value
- `clamp_idempotent_iff`: when a second clamp changes nothing
-/

namespace ChainEconomy.Fee

/-- A percentage is at most the whole. -/
theorem mantissa_le_of_checkPercentage {rate : Rate} (h : checkPercentage rate = .ok ()) :
    rate.mantissa ≤ Nat.pow 10 rate.scale := by
  unfold checkPercentage at h
  split at h
  · cases h
  · next hrange =>
    rw [Bool.or_eq_true, not_or] at hrange
    obtain ⟨hnegative, hexceeds⟩ := hrange
    cases hsign : rate.negative with
    | true =>
      -- A sign without a negative value is that of a zero.
      have hzero : rate.mantissa = 0 := by
        simpa [Rate.isNegative, hsign] using hnegative
      rw [hzero]
      exact Nat.zero_le _
    | false => simpa [Rate.exceedsOne, hsign] using hexceeds

namespace Schedule

variable {s : Schedule} {fee : CoinSet} {x y : Nat}

/-! ## The percentage -/

/-- The percentage is at most the value. -/
theorem percentageOf_le (s : Schedule) (value : CoinSet) :
    s.percentageOf value ≤ value.amountOf s.params.baseDenom := by
  have hrate := mantissa_le_of_checkPercentage (Params.check_eq_ok_iff.1 s.valid).2.1
  apply Nat.div_le_of_le_mul
  rw [Nat.mul_comm]
  exact Nat.mul_le_mul_right _ hrate

/-- The percentage of a higher value is no lower. -/
theorem percentageOf_mono {value value' : CoinSet}
    (h : value.amountOf s.params.baseDenom ≤ value'.amountOf s.params.baseDenom) :
    s.percentageOf value ≤ s.percentageOf value' :=
  Nat.div_le_div_right (Nat.mul_le_mul_right _ h)

/-- What is held of other denominations does not count. -/
theorem surcharge_congr {value value' : CoinSet}
    (h : value.amountOf s.params.baseDenom = value'.amountOf s.params.baseDenom) :
    s.surcharge value = s.surcharge value' := by
  unfold surcharge percentageFee
  rw [h]

/-! ## What a percentage becomes -/

/-- The maximum holds the base denomination in any case, so that only others are in question. -/
theorem maximum_denoms_iff (s : Schedule) :
    s.params.maximum.denoms = [s.params.baseDenom] ↔
      ∀ denom, denom ≠ s.params.baseDenom → s.params.maximum.amountOf denom = 0 := by
  rw [CoinSet.denoms_eq_singleton_iff]
  constructor
  · intro h denom hne
    exact Nat.eq_zero_of_not_pos fun hpos => hne ((h denom).1 hpos)
  · intro h denom
    refine ⟨fun hpos => ?_, fun heq => heq ▸ s.maximum_pos⟩
    by_contra hne
    exact absurd (h denom hne) (Nat.ne_of_gt hpos)

/-- A percentage below the minimum becomes the minimum. -/
theorem clamp_of_below (h : s.HoldsOnly fee x)
    (hlow : x < s.params.minimum.amountOf s.params.baseDenom) :
    s.clamp fee = s.params.minimum := by
  rw [clamp, if_pos ((minimum_dominates_iff h).2 hlow)]

/-- A percentage above a maximum of one denomination becomes the maximum. -/
theorem clamp_of_above (h : s.HoldsOnly fee x)
    (hleast : s.params.minimum.amountOf s.params.baseDenom ≤ x)
    (halone : s.params.maximum.denoms = [s.params.baseDenom])
    (hhigh : s.params.maximum.amountOf s.params.baseDenom < x) :
    s.clamp fee = s.params.maximum := by
  have hlow : ¬ s.params.minimum.dominates fee = true := by
    rwa [minimum_dominates_iff h, Nat.not_lt]
  have habove := (dominates_maximum_iff h).2 ⟨s.maximum_denoms_iff.1 halone, hhigh⟩
  rw [clamp, if_neg hlow, if_pos habove]

/-- Any other percentage stays what it is. -/
theorem clamp_of_between (h : s.HoldsOnly fee x)
    (hleast : s.params.minimum.amountOf s.params.baseDenom ≤ x)
    (hmost : ¬ (s.params.maximum.denoms = [s.params.baseDenom] ∧
      s.params.maximum.amountOf s.params.baseDenom < x)) :
    s.clamp fee = fee := by
  have hlow : ¬ s.params.minimum.dominates fee = true := by
    rwa [minimum_dominates_iff h, Nat.not_lt]
  have hhigh : ¬ fee.dominates s.params.maximum = true := by
    rwa [dominates_maximum_iff h, ← s.maximum_denoms_iff]
  rw [clamp, if_neg hlow, if_neg hhigh]

/-- The surcharge is the clamped percentage, which is always found. -/
theorem surcharge_eq_clamp (s : Schedule) (value : CoinSet) :
    ∃ fee, s.surcharge value = .ok (s.clamp fee) ∧ s.HoldsOnly fee (s.percentageOf value) := by
  obtain ⟨fee, hfee, honly⟩ := s.percentageFee_eq_ok value
  exact ⟨fee, by rw [surcharge, hfee]; rfl, honly⟩

/-! ## The amount that is charged -/

/-- What is charged of the base denomination for a percentage. -/
def bounded (s : Schedule) (x : Nat) : Nat :=
  if x < s.params.minimum.amountOf s.params.baseDenom then
    s.params.minimum.amountOf s.params.baseDenom
  else if s.params.maximum.denoms = [s.params.baseDenom] ∧
      s.params.maximum.amountOf s.params.baseDenom < x then
    s.params.maximum.amountOf s.params.baseDenom
  else x

/-- Clamping a percentage leaves the amount that is to be charged. -/
theorem amountOf_clamp (h : s.HoldsOnly fee x) :
    (s.clamp fee).amountOf s.params.baseDenom = s.bounded x := by
  unfold bounded
  split
  · next hlow => rw [clamp_of_below h hlow]
  · next hlow =>
    have hleast := Nat.le_of_not_lt hlow
    split
    · next hhigh => rw [clamp_of_above h hleast hhigh.1 hhigh.2]
    · next hhigh => rw [clamp_of_between h hleast hhigh, h.base]

/-- What is charged is never nothing. -/
theorem bounded_pos (s : Schedule) (x : Nat) : 0 < s.bounded x := by
  have hminimum := s.minimum_pos
  have hmaximum := s.maximum_pos
  unfold bounded
  split
  · exact hminimum
  · split
    · exact hmaximum
    · omega

/-- With bounds that do not cross, more is never charged for a lower percentage. -/
theorem bounded_mono
    (hbounds : s.params.minimum.amountOf s.params.baseDenom ≤
      s.params.maximum.amountOf s.params.baseDenom) (h : x ≤ y) : s.bounded x ≤ s.bounded y := by
  unfold bounded
  by_cases halone : s.params.maximum.denoms = [s.params.baseDenom]
  · -- Both bounds hold: two percentages on different sides of a bound are ordered by it.
    simp only [halone, true_and]
    split_ifs <;> omega
  · -- The maximum is out of reach, and only the minimum bounds the percentage.
    simp only [halone, false_and, if_false]
    split_ifs <;> omega

/-- What is charged is at most the minimum or at most the percentage, also if the bounds cross. -/
theorem bounded_le (s : Schedule) (x : Nat) :
    s.bounded x ≤ max (s.params.minimum.amountOf s.params.baseDenom) x := by
  unfold bounded
  split
  · exact Nat.le_max_left _ _
  · split
    · next hhigh => exact Nat.le_trans (Nat.le_of_lt hhigh.2) (Nat.le_max_right _ _)
    · exact Nat.le_max_right _ _

/-- Every value has a surcharge, and it holds the bounded percentage. -/
theorem surcharge_amount (s : Schedule) (value : CoinSet) :
    ∃ fee, s.surcharge value = .ok fee ∧
      fee.amountOf s.params.baseDenom = s.bounded (s.percentageOf value) := by
  obtain ⟨fee, hfee, honly⟩ := s.surcharge_eq_clamp value
  exact ⟨s.clamp fee, hfee, amountOf_clamp honly⟩

/-! ## The surcharge -/

/-- The surcharge is always found, and is told by the percentage: the whole minimum for a percentage
below it, the whole maximum for one above it if that holds nothing but the base denomination, and
else the percentage. It is never free, and depends on the base denomination of the value alone. -/
theorem surcharge_exact (s : Schedule) (value : CoinSet) :
    ∃ fee, s.surcharge value = .ok fee ∧
      (s.percentageOf value < s.params.minimum.amountOf s.params.baseDenom →
        fee = s.params.minimum) ∧
      (s.params.minimum.amountOf s.params.baseDenom ≤ s.percentageOf value →
        (s.params.maximum.denoms = [s.params.baseDenom] ∧
          s.params.maximum.amountOf s.params.baseDenom < s.percentageOf value →
            fee = s.params.maximum) ∧
        (¬ (s.params.maximum.denoms = [s.params.baseDenom] ∧
          s.params.maximum.amountOf s.params.baseDenom < s.percentageOf value) →
            fee.entries = [(s.params.baseDenom, s.percentageOf value)])) ∧
      0 < fee.amountOf s.params.baseDenom ∧
      ∀ other : CoinSet, other.amountOf s.params.baseDenom = value.amountOf s.params.baseDenom →
        s.surcharge other = .ok fee := by
  -- The percentage is found first, and then told apart by the bounds.
  obtain ⟨fee, hfee, honly⟩ := s.surcharge_eq_clamp value
  refine ⟨s.clamp fee, hfee, fun hlow => clamp_of_below honly hlow, fun hleast => ⟨?_, ?_⟩, ?_,
    fun other hother => (surcharge_congr hother).trans hfee⟩
  · rintro ⟨halone, hhigh⟩
    exact clamp_of_above honly hleast halone hhigh
  · intro hmost
    -- The minimum is positive, and so is what is not below it: there is an entry.
    have hpos := Nat.lt_of_lt_of_le s.minimum_pos hleast
    rw [clamp_of_between honly hleast hmost]
    exact CoinSet.entries_eq_singleton hpos honly
  · rw [amountOf_clamp honly]
    exact s.bounded_pos _

/-- With bounds that do not cross, no value is charged more of the base denomination than a higher
one. Whatever the bounds, the charge is at most the minimum or at most the value. -/
theorem surcharge_monotone (s : Schedule) :
    (s.params.minimum.amountOf s.params.baseDenom ≤
        s.params.maximum.amountOf s.params.baseDenom →
      ∀ value value' : CoinSet,
        value.amountOf s.params.baseDenom ≤ value'.amountOf s.params.baseDenom →
        ∃ fee fee', s.surcharge value = .ok fee ∧ s.surcharge value' = .ok fee' ∧
          fee.amountOf s.params.baseDenom ≤ fee'.amountOf s.params.baseDenom) ∧
      ∀ value : CoinSet, ∃ fee, s.surcharge value = .ok fee ∧
        fee.amountOf s.params.baseDenom ≤
          max (s.params.minimum.amountOf s.params.baseDenom)
            (value.amountOf s.params.baseDenom) := by
  constructor
  · intro hbounds value value' hle
    -- Charges are percentages kept between the bounds, and both steps are monotone.
    obtain ⟨fee, hfee, hamount⟩ := s.surcharge_amount value
    obtain ⟨fee', hfee', hamount'⟩ := s.surcharge_amount value'
    refine ⟨fee, fee', hfee, hfee', ?_⟩
    rw [hamount, hamount']
    exact bounded_mono hbounds (percentageOf_mono hle)
  · intro value
    obtain ⟨fee, hfee, hamount⟩ := s.surcharge_amount value
    refine ⟨fee, hfee, ?_⟩
    calc fee.amountOf s.params.baseDenom = s.bounded (s.percentageOf value) := hamount
      _ ≤ max (s.params.minimum.amountOf s.params.baseDenom) (s.percentageOf value) :=
        s.bounded_le _
      _ ≤ _ := max_le_max (Nat.le_refl _) (s.percentageOf_le value)

open Chain.Sample (coins)

/-- Of a value of 500 and one of 10000, the percentages are charged: the maximum holds a second
denomination. -/
theorem surcharge_monotone_sample :
    Sample.schedule.params.minimum.amountOf Sample.schedule.params.baseDenom ≤
        Sample.schedule.params.maximum.amountOf Sample.schedule.params.baseDenom ∧
      (coins 500).amountOf Sample.schedule.params.baseDenom ≤
        (coins 10000).amountOf Sample.schedule.params.baseDenom ∧
      ∃ fee fee', Sample.schedule.surcharge (coins 500) = .ok fee ∧
        Sample.schedule.surcharge (coins 10000) = .ok fee' ∧
          fee.amountOf "utoll" ≤ fee'.amountOf "utoll" := by
  have hbounds : Sample.schedule.params.minimum.amountOf Sample.schedule.params.baseDenom ≤
      Sample.schedule.params.maximum.amountOf Sample.schedule.params.baseDenom := by
    decide +kernel
  have hle : (coins 500).amountOf Sample.schedule.params.baseDenom ≤
      (coins 10000).amountOf Sample.schedule.params.baseDenom := by decide +kernel
  exact ⟨hbounds, hle, (surcharge_monotone Sample.schedule).1 hbounds _ _ hle⟩

/-! ## Clamping twice -/

/-- Clamping gives one of the bounds, or the fee itself. -/
theorem clamp_eq_or (s : Schedule) (fee : CoinSet) :
    s.clamp fee = s.params.minimum ∨ s.clamp fee = s.params.maximum ∨ s.clamp fee = fee := by
  unfold clamp
  split
  · exact Or.inl rfl
  · split
    · exact Or.inr (Or.inl rfl)
    · exact Or.inr (Or.inr rfl)

/-- The minimum does not dominate itself, so that only the maximum can move it. -/
theorem clamp_minimum (s : Schedule) :
    s.clamp s.params.minimum =
      if s.params.minimum.dominates s.params.maximum then s.params.maximum
      else s.params.minimum := by
  rw [clamp, CoinSet.dominates_self]
  rfl

/-- The maximum does not dominate itself, so that only the minimum can move it. -/
theorem clamp_maximum (s : Schedule) :
    s.clamp s.params.maximum =
      if s.params.minimum.dominates s.params.maximum then s.params.minimum
      else s.params.maximum := by
  rw [clamp, CoinSet.dominates_self]
  rfl

/-- If the minimum does not dominate the maximum, clamping leaves both as they are. Any other result
of a clamp is a fee that has been kept, and is kept again. -/
theorem clamp_clamp (h : s.params.minimum.dominates s.params.maximum = false) (fee : CoinSet) :
    s.clamp (s.clamp fee) = s.clamp fee := by
  -- Whichever of the three comes out, the second clamp gives it again.
  rcases s.clamp_eq_or fee with hmin | hmax | hkept
  · rw [hmin, clamp_minimum, h]
    rfl
  · rw [hmax, clamp_maximum, h]
    rfl
  · rw [hkept, hkept]

/-- A minimum that dominates the maximum is moved to the maximum, and that is moved back. -/
theorem clamp_alternates (h : s.params.minimum.dominates s.params.maximum = true) :
    s.clamp s.params.minimum = s.params.maximum ∧ s.clamp s.params.maximum = s.params.minimum := by
  rw [clamp_minimum, clamp_maximum, h]
  exact ⟨rfl, rfl⟩

/-- Some fee is moved by a second clamp if the minimum dominates the maximum. -/
theorem exists_clamp_clamp_ne (h : s.params.minimum.dominates s.params.maximum = true) :
    ∃ fee, s.clamp (s.clamp fee) ≠ s.clamp fee := by
  obtain ⟨hmin, hmax⟩ := clamp_alternates h
  refine ⟨s.params.minimum, fun heq => ?_⟩
  -- The second clamp would leave the first one's maximum as it is, instead of the minimum.
  rw [hmin, hmax] at heq
  rw [heq, CoinSet.dominates_self] at h
  cases h

/-- One percent as surcharge, with a minimum of ten above the maximum of one. -/
def Sample.crossed : Schedule :=
  ⟨{ Chain.Sample.genesis.economy.feeParams with minimum := coins 10, maximum := coins 1 },
    Except.eq_ok_of_isOk (by decide +kernel)⟩

/-- A second clamp changes nothing, whatever the fee, exactly if the minimum does not dominate the
maximum. Parameters whose minimum does are accepted, and then some fee is moved once more. -/
theorem clamp_idempotent_iff :
    (∀ s : Schedule,
      ((∀ fee, s.clamp (s.clamp fee) = s.clamp fee) ↔
        s.params.minimum.dominates s.params.maximum = false) ∧
      (s.params.minimum.dominates s.params.maximum = true →
        ∃ fee, s.clamp (s.clamp fee) ≠ s.clamp fee)) ∧
    ∃ s : Schedule, s.params.minimum.dominates s.params.maximum = true := by
  refine ⟨fun s => ⟨⟨fun hkept => ?_, clamp_clamp⟩, exists_clamp_clamp_ne⟩,
    Sample.crossed, by decide +kernel⟩
  -- If it did dominate the maximum, there would be a fee that is moved.
  rw [Bool.eq_false_iff]
  intro hdominates
  obtain ⟨fee, hne⟩ := exists_clamp_clamp_ne hdominates
  exact hne (hkept fee)

end Schedule

end ChainEconomy.Fee
