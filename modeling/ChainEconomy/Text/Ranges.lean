/-! # Character ranges

Properties of characters are kept as lists of inclusive ranges of code points. -/

namespace ChainEconomy.Text

/-- Whether a character's code point lies in one of the inclusive ranges. -/
def inRanges (ranges : List (Nat × Nat)) (c : Char) : Bool :=
  ranges.any fun r => Nat.ble r.1 c.toNat && Nat.ble c.toNat r.2

/-- A character lies in the ranges exactly if one of them holds its code point. -/
theorem inRanges_eq_true_iff {ranges : List (Nat × Nat)} {c : Char} :
    inRanges ranges c = true ↔ ∃ r ∈ ranges, r.1 ≤ c.toNat ∧ c.toNat ≤ r.2 := by
  simp [inRanges]

end ChainEconomy.Text
