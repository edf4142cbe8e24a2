import ChainEconomy.Proofs.AccruedValue
import ChainEconomy.Proofs.ValueRoundTrip

/-!
# Rates as fixed-point numbers

A rate is converted by adding places to its mantissa or by cutting places off, depending on its
scale. Both are the same division: the fixed-point number is the value of the rate, in atomic units
and rounded down. What holds of values carries over, order and upper bounds alike.

Sensible mint parameters have a rate below one, and what is below one stays so when it is rounded
down. A second of an accrual therefore never adds more than there is of the supply.

## Key results

- `Rate.floor_value`: the division rounds the value down
- `Fixed.ofRate_eq_error_iff`, `Fixed.ofRate_eq_ok_iff`: which rates are converted, and to what
- `Mint.Params.exists_rate`: sensible parameters have a fixed-point rate below one
- `Mint.accrualSeconds`, `Mint.accrue_eq_sum`, `Mint.estimate_eq_sum`: the seconds that an accrual
  goes through, and what they add
- `Mint.rates_truncate`: conversion, and what it means for accruals
-/

namespace ChainEconomy

/-! ## Values of rates -/

namespace Rate

/-- A rate is negative if its value is. A minus sign alone does not make it so. -/
theorem isNegative_iff {r : Rate} : r.isNegative = true ↔ r.value < 0 := by
  have hscale : (0 : ℚ) < 10 ^ r.scale := by positivity
  rw [value, div_lt_iff₀ hscale, zero_mul, isNegative, Bool.and_eq_true_iff, Nat.blt_eq]
  cases r.negative with
  | false => simp
  | true => simp

/-- A rate is at least one if its value is. -/
theorem atLeastOne_iff {r : Rate} : r.atLeastOne = true ↔ 1 ≤ r.value := by
  have hscale : (0 : ℚ) < 10 ^ r.scale := by positivity
  rw [value, le_div_iff₀ hscale, one_mul, atLeastOne, Bool.and_eq_true_iff, Nat.ble_eq]
  cases r.negative with
  | false =>
    simp only [Bool.not_false, true_and, Bool.false_eq_true, if_false]
    exact_mod_cast Iff.rfl
  | true =>
    -- What has a sign is zero at most.
    have hbelow : ¬(10 : ℚ) ^ r.scale ≤ -(r.mantissa : ℚ) := by
      have hmantissa : (0 : ℚ) ≤ r.mantissa := Nat.cast_nonneg _
      linarith
    simpa using hbelow

/-- The value of a rate that is not negative is its mantissa with the point put in. -/
theorem value_eq {r : Rate} (h : r.isNegative = false) : r.value = r.mantissa / 10 ^ r.scale := by
  rw [value]
  split
  · next hsign =>
    -- A zero may have a sign.
    have hzero : r.mantissa = 0 := by
      rw [isNegative, hsign, Bool.true_and, ← Bool.not_eq_true, Nat.blt_eq] at h
      exact Nat.eq_zero_of_not_pos h
    rw [hzero, Nat.cast_zero, neg_zero]
  · rfl

/-- The division of the mantissa rounds the value down. -/
theorem floor_value {r : Rate} (h : r.isNegative = false) :
    ⌊r.value * 10 ^ 18⌋₊ = r.mantissa * 10 ^ 18 / 10 ^ r.scale := by
  have hquotient :
      r.value * 10 ^ 18 = ((r.mantissa * 10 ^ 18 : ℕ) : ℚ) / ((10 ^ r.scale : ℕ) : ℚ) := by
    rw [value_eq h]
    push_cast
    ring
  rw [hquotient, Nat.floor_div_eq_div]

end Rate

/-! ## Conversion -/

namespace Fixed

/-- The rates below zero are refused. -/
theorem ofRate_eq_error_iff {r : Rate} {e : Error} :
    ofRate r = .error e ↔ r.value < 0 ∧ e = .negative r.render := by
  rw [← Rate.isNegative_iff]
  cases h : r.isNegative with
  | false => simp [ofRate_eq_ok h]
  | true => simp [ofRate, h, eq_comm]

/-- All other rates are rounded down to a whole number of atomic units. -/
theorem ofRate_eq_ok_iff {r : Rate} {a : Fixed} :
    ofRate r = .ok a ↔ 0 ≤ r.value ∧ a.atomics = ⌊r.value * 10 ^ 18⌋₊ := by
  rw [← not_lt, ← Rate.isNegative_iff, Bool.not_eq_true]
  cases h : r.isNegative with
  | false =>
    -- A number is given by its atomic units.
    rw [ofRate_eq_ok h, Rate.floor_value h, Except.ok.injEq, eq_self_iff_true, true_and]
    constructor
    · rintro rfl
      rfl
    · intro ha
      cases a
      exact congrArg mk ha.symm
  | true => simp [ofRate, h]

/-- Every rate from zero on is converted. -/
theorem exists_ofRate_eq_ok {r : Rate} (h : 0 ≤ r.value) :
    ∃ a, ofRate r = .ok a ∧ a.atomics = ⌊r.value * 10 ^ 18⌋₊ :=
  ⟨⟨⌊r.value * 10 ^ 18⌋₊⟩, ofRate_eq_ok_iff.2 ⟨h, rfl⟩, rfl⟩

/-- The higher of two rates gives no smaller number. -/
theorem atomics_le_of_value_le {r r' : Rate} {a a' : Fixed} (ha : ofRate r = .ok a)
    (ha' : ofRate r' = .ok a') (h : r.value ≤ r'.value) : a.atomics ≤ a'.atomics := by
  rw [(ofRate_eq_ok_iff.1 ha).2, (ofRate_eq_ok_iff.1 ha').2]
  exact Nat.floor_le_floor (mul_le_mul_of_nonneg_right h (by positivity))

/-- What is below one is so after rounding down. -/
theorem toRat_lt_one {r : Rate} {a : Fixed} (ha : ofRate r = .ok a) (h : r.value < 1) :
    a.toRat < 1 := by
  obtain ⟨hvalue, hatomics⟩ := ofRate_eq_ok_iff.1 ha
  have hfloor : (a.atomics : ℚ) ≤ r.value * 10 ^ 18 := by
    rw [hatomics]
    exact Nat.floor_le (by positivity)
  have hunit : (Fixed.unit : ℚ) = 10 ^ 18 := by
    rw [show Fixed.unit = 10 ^ 18 from rfl]
    norm_num
  rw [toRat, div_lt_one Mint.unit_pos, hunit]
  linarith

/-- A part of a number is not more than the number. -/
theorem mulTruncate_le {rate : Fixed} (h : rate.toRat < 1) (x : Fixed) :
    (x.mulTruncate rate).atomics ≤ x.atomics := by
  have hrate : rate.atomics ≤ unit := by
    rw [toRat, div_lt_one Mint.unit_pos] at h
    exact_mod_cast h.le
  rw [mulTruncate]
  exact Nat.div_le_of_le_mul (Nat.mul_comm unit _ ▸ Nat.mul_le_mul_left x.atomics hrate)

end Fixed

namespace Mint

/-- Sensible parameters have a fixed-point rate, and it is below one. -/
theorem Params.exists_rate {params : Params} (h : params.check = .ok ()) :
    ∃ rate, params.rate = .ok rate ∧ Fixed.ofRate params.ratePerSecond = .ok rate ∧
      rate.toRat < 1 := by
  have hcheck := (Params.check_eq_ok_iff.1 h).2.1
  obtain ⟨hnegative, hone⟩ := checkRate_eq_ok_iff.1 hcheck
  have hvalue : params.ratePerSecond.value < 1 := by
    rw [← not_le, ← Rate.atLeastOne_iff, hone]
    exact Bool.false_ne_true
  have hfixed := Fixed.ofRate_eq_ok hnegative
  exact ⟨_, Except.check_eq_ok_iff.2 ⟨hcheck, Except.mapError_eq_ok_iff.2 hfixed⟩, hfixed,
    Fixed.toRat_lt_one hfixed hvalue⟩

/-! ## The seconds of an accrual -/

/-- A second of an accrual: the estimate of the supply that it starts with, and what it adds. -/
structure Second where
  estimate : Fixed
  increment : Fixed

/-- The seconds that are gone through, up to the first one that adds nothing. -/
def secondsFrom (rate : Fixed) : Nat → Fixed → List Second
  | 0, _ => []
  | seconds + 1, estimate =>
    let increment := estimate.mulTruncate rate
    ⟨estimate, increment⟩ ::
      if increment.isZero then [] else secondsFrom rate seconds (estimate.add increment)

/-- The seconds that an accrual goes through: none, if nothing accrues at all. -/
def accrualSeconds (supply : Nat) (rate : Fixed) (seconds : UInt64) : List Second :=
  if rate.isZero then [] else secondsFrom rate seconds.toNat (Fixed.ofNat supply)

/-- What some seconds add, in atomic units. -/
def added (seconds : List Second) : Nat := (seconds.map fun s => s.increment.atomics).sum

/-- The first second adds what it adds, and the others the rest. -/
theorem added_cons (s : Second) (rest : List Second) :
    added (s :: rest) = s.increment.atomics + added rest := by
  rw [added, List.map_cons, List.sum_cons, added]

/-- What is owed at the end is what was owed at the start, and what the seconds have added. -/
theorem compound_eq_sum (rate : Fixed) (seconds : Nat) (estimate owed : Fixed) :
    (compound rate seconds estimate owed).atomics =
      owed.atomics + added (secondsFrom rate seconds estimate) := by
  -- By induction on the seconds, for any estimate.
  induction seconds generalizing estimate owed with
  | zero => rfl
  | succ seconds ih =>
    rw [compound, secondsFrom, added_cons]
    dsimp only
    split
    · next hzero =>
      -- Both stop here, and the last second has added nothing.
      have hnothing : (estimate.mulTruncate rate).atomics = 0 := by
        simpa [Fixed.isZero] using hzero
      rw [hnothing]
      rfl
    · rw [ih, Fixed.add, Nat.add_assoc]

/-- An accrual is worth its leftover and what its seconds add. -/
theorem accrue_eq_sum (supply : Nat) (rate leftover : Fixed) (seconds : UInt64) :
    (accrue supply rate leftover seconds).value =
      leftover.atomics + added (accrualSeconds supply rate seconds) := by
  unfold Accrual.value accrue accrualSeconds
  dsimp only
  rw [Fixed.floor_fract]
  split
  · -- A rate of zero adds nothing, and no second is gone through.
    rfl
  · exact compound_eq_sum rate seconds.toNat (Fixed.ofNat supply) leftover

/-- Every second works on the estimate that the seconds before it have led to. -/
theorem estimate_eq_sum {rate estimate : Fixed} {seconds : Nat} {before after : List Second}
    {s : Second} (h : secondsFrom rate seconds estimate = before ++ s :: after) :
    s.estimate.atomics = estimate.atomics + added before ∧
      s.increment = s.estimate.mulTruncate rate := by
  -- Induction on the seconds that are left. The first of them is the one in question, or it has
  -- raised the estimate for the others.
  induction seconds generalizing estimate before with
  | zero => simp [secondsFrom] at h
  | succ seconds ih =>
    rw [secondsFrom] at h
    cases before with
    | nil =>
      obtain ⟨rfl, -⟩ := List.cons.inj h
      exact ⟨rfl, rfl⟩
    | cons first before =>
      obtain ⟨rfl, hrest⟩ := List.cons.inj h
      split at hrest
      · simp at hrest
      · obtain ⟨hestimate, hincrement⟩ := ih hrest
        refine ⟨?_, hincrement⟩
        rw [hestimate, added_cons, Fixed.add, Nat.add_assoc]

/-- The first estimate of an accrual is the supply. -/
theorem accrualSeconds_eq_append {supply : Nat} {rate : Fixed} {seconds : UInt64}
    {before after : List Second} {s : Second}
    (h : accrualSeconds supply rate seconds = before ++ s :: after) :
    s.estimate.atomics = supply * Fixed.unit + added before ∧
      s.increment = s.estimate.mulTruncate rate := by
  unfold accrualSeconds at h
  split at h
  · simp at h
  · exact estimate_eq_sum h

/-- A rate is refused exactly if its value is below zero. Every other rate is converted to its value
in atomic units, rounded down, and the higher of two rates to no smaller number. Sensible mint
parameters have a rate, and it is below one. At this rate no second of an accrual adds more than the
supply as it is estimated when the second starts, which is what there was at first and what the
seconds before have added. -/
theorem rates_truncate (r r' : Rate) (params : Params) :
    ((∃ e, Fixed.ofRate r = .error e) ↔ r.value < 0) ∧
      (0 ≤ r.value → ∃ a, Fixed.ofRate r = .ok a ∧ a.atomics = ⌊r.value * 10 ^ 18⌋₊) ∧
      (∀ a a', Fixed.ofRate r = .ok a → Fixed.ofRate r' = .ok a' → r.value ≤ r'.value →
        a.atomics ≤ a'.atomics) ∧
      (params.check = .ok () → ∃ rate, params.rate = .ok rate ∧
        Fixed.ofRate params.ratePerSecond = .ok rate ∧ rate.toRat < 1 ∧
        ∀ supply leftover seconds,
          (accrue supply rate leftover seconds).value =
              leftover.atomics + added (accrualSeconds supply rate seconds) ∧
            ∀ before s after, accrualSeconds supply rate seconds = before ++ s :: after →
              s.estimate.atomics = supply * Fixed.unit + added before ∧
                s.increment = s.estimate.mulTruncate rate ∧
                s.increment.atomics ≤ s.estimate.atomics) := by
  refine ⟨?_, Fixed.exists_ofRate_eq_ok, fun _ _ => Fixed.atomics_le_of_value_le, fun hcheck => ?_⟩
  · simp only [Fixed.ofRate_eq_error_iff, exists_and_left, exists_eq, and_true]
  · obtain ⟨rate, hrate, hfixed, hone⟩ := Params.exists_rate hcheck
    refine ⟨rate, hrate, hfixed, hone, fun supply leftover seconds =>
      ⟨accrue_eq_sum supply rate leftover seconds, fun before s after h => ?_⟩⟩
    -- What a second adds is a part of its estimate.
    obtain ⟨hestimate, hincrement⟩ := accrualSeconds_eq_append h
    exact ⟨hestimate, hincrement, hincrement ▸ Fixed.mulTruncate_le hone s.estimate⟩

namespace Sample

/-- The highest rate below one with 27 places. -/
def highestRate : Rate := ⟨false, 999999999999999999999999999, 27, by decide, by decide⟩

/-- A rate of nearly two atomic units. -/
def tinyRate : Rate := ⟨false, 19, 19, by decide, by decide⟩

/-- Mint parameters with the highest rate. -/
def steepParams : Params := ⟨"utoll", highestRate, 1⟩

end Sample

/-- Of the two rates, one loses a place and the other one nine. At the higher one, a supply of one
unit nearly doubles every second, but does not double. -/
theorem rates_truncate_sample :
    Sample.tinyRate.value ≤ Sample.highestRate.value ∧
      Fixed.ofRate Sample.tinyRate = .ok ⟨1⟩ ∧
      Fixed.ofRate Sample.highestRate = .ok ⟨10 ^ 18 - 1⟩ ∧
      (⟨1⟩ : Fixed).atomics ≤ (⟨10 ^ 18 - 1⟩ : Fixed).atomics ∧
      Sample.steepParams.check = .ok () ∧
      ∃ rate, Sample.steepParams.rate = .ok rate ∧ rate.toRat < 1 ∧
        (accrualSeconds 1 rate 3).length = 3 ∧
        ∀ s ∈ accrualSeconds 1 rate 3, s.increment.atomics ≤ s.estimate.atomics := by
  have htiny : Fixed.ofRate Sample.tinyRate = .ok ⟨1⟩ := by decide
  have hhighest : Fixed.ofRate Sample.highestRate = .ok ⟨10 ^ 18 - 1⟩ := by decide
  have hvalue : Sample.tinyRate.value ≤ Sample.highestRate.value := by
    norm_num [Rate.value, Sample.tinyRate, Sample.highestRate]
  have hcheck : Sample.steepParams.check = .ok () := by decide +kernel
  obtain ⟨-, -, hmono, hsensible⟩ :=
    rates_truncate Sample.tinyRate Sample.highestRate Sample.steepParams
  obtain ⟨rate, hrate, hfixed, hone, hseconds⟩ := hsensible hcheck
  refine ⟨hvalue, htiny, hhighest, hmono _ _ htiny hhighest hvalue, hcheck, rate, hrate, hone, ?_,
    fun s hs => ?_⟩
  · cases hfixed.symm.trans hhighest
    decide +kernel
  · obtain ⟨before, after, hsplit⟩ := List.append_of_mem hs
    exact ((hseconds 1 Fixed.zero 3).2 before s after hsplit).2.2

end Mint

end ChainEconomy
