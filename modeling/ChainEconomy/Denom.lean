import ChainEconomy.Text.Digits

/-! # Denominations

The name of a unit of account: 3 to 128 characters, the first an ASCII letter, the others ASCII
letters, digits or one of `/`, `:`, `.`, `_`, `-`. -/

namespace ChainEconomy.Denom

/-- Whether a character may stand after the first one of a denomination. -/
def isTail (c : Char) : Bool :=
  c.isAlphanum || c = '/' || c = ':' || c = '.' || c = '_' || c = '-'

/-- Whether characters form a denomination. -/
def isDenomChars : List Char → Bool
  | [] => false
  | c :: rest => c.isAlpha && rest.all isTail && Nat.ble 2 rest.length && Nat.ble rest.length 127

/-- Whether a text is a denomination. -/
def isDenom (s : String) : Bool := isDenomChars s.toList

/-- A denomination does not start with a digit. -/
theorem head_not_digit {c : Char} {rest : List Char} (h : isDenomChars (c :: rest) = true) :
    c.isDigit = false := by
  simp only [isDenomChars, Bool.and_eq_true] at h
  obtain ⟨⟨⟨h, -⟩, -⟩, -⟩ := h
  have letter : (decide ('A'.val ≤ c.val ∧ c.val ≤ 'Z'.val) ||
      (decide ('a'.val ≤ c.val) && decide (c.val ≤ 'z'.val))) = true := h
  simp only [Bool.or_eq_true, Bool.and_eq_true, decide_eq_true_eq, UInt32.le_iff_toNat_le] at letter
  simp only [Bool.eq_false_iff, ne_eq, Char.isDigit_iff_toNat]
  simp at letter ⊢
  omega

/-- A denomination is not empty. -/
theorem ne_empty {s : String} (h : isDenom s = true) : s ≠ "" := by
  rintro rfl
  exact absurd h (by decide)

example : isDenom "utoll" = true ∧ isDenom "ut" = false ∧ isDenom "1ab" = false := by decide

end ChainEconomy.Denom
