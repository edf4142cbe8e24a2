import ChainEconomy.Text.Ranges

/-! # Blank characters

The 25 characters with the Unicode property `White_Space`, and the removal of such characters from
both ends of a text.  -/

namespace ChainEconomy.Text

/-- The code points with the property `White_Space`. -/
def blankRanges : List (Nat × Nat) :=
  [(0x9, 0xD), (0x20, 0x20), (0x85, 0x85), (0xA0, 0xA0), (0x1680, 0x1680), (0x2000, 0x200A),
    (0x2028, 0x2029), (0x202F, 0x202F), (0x205F, 0x205F), (0x3000, 0x3000)]

/-- Whether a character is white space. -/
def isBlank (c : Char) : Bool := inRanges blankRanges c

/-- The text without the white space at its two ends. -/
def trim (cs : List Char) : List Char :=
  ((cs.dropWhile isBlank).reverse.dropWhile isBlank).reverse

/-- Whether a text is empty or holds white space only. -/
def allBlank (cs : List Char) : Bool := cs.all isBlank

example : (blankRanges.map fun r => r.2 - r.1 + 1).sum = 25 := by decide

/-- A text that neither starts nor ends with white space is left alone. -/
theorem trim_eq_self {cs : List Char} (hfirst : ∀ c ∈ cs.head?, isBlank c = false)
    (hlast : ∀ c ∈ cs.getLast?, isBlank c = false) : trim cs = cs := by
  have drop : ∀ {l : List Char}, (∀ c ∈ l.head?, isBlank c = false) → l.dropWhile isBlank = l := by
    intro l h
    cases l with
    | nil => rfl
    | cons c rest => simp [h c (by simp)]
  unfold trim
  rw [drop hfirst, drop (by simpa using hlast), List.reverse_reverse]

end ChainEconomy.Text
