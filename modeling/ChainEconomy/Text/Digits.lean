/-! # Decimal digits

Natural numbers as text: their decimal digits, the value of a run of digits, and padding with
zeros. -/

namespace ChainEconomy.Text

/-- The value of a decimal digit. -/
def digitValue (c : Char) : Nat := c.toNat - 48

/-- The value of a run of decimal digits, the most significant first. -/
def digitsValue (cs : List Char) : Nat := cs.foldl (fun n c => n * 10 + digitValue c) 0

/-- Whether every character is a decimal digit. -/
def allDigits (cs : List Char) : Bool := cs.all Char.isDigit

/-- The decimal digits of a number, without leading zeros; zero is `0`. -/
def decimal (n : Nat) : List Char := Nat.toDigits 10 n

/-- The text with zeros in front of it, up to a width. -/
def zeroPadded (width : Nat) (cs : List Char) : List Char :=
  List.replicate (width - cs.length) '0' ++ cs

@[simp] theorem digitsValue_nil : digitsValue [] = 0 := rfl

/-- A padded text has the width, unless it was wider before. -/
theorem length_zeroPadded (width : Nat) (cs : List Char) :
    (zeroPadded width cs).length = max width cs.length := by
  simp [zeroPadded]; omega

/-- Reading one more digit multiplies by ten and adds. -/
theorem digitsValue_concat (cs : List Char) (c : Char) :
    digitsValue (cs ++ [c]) = digitsValue cs * 10 + digitValue c := by
  simp [digitsValue]

example : digitsValue (decimal 0) = 0 ∧ digitsValue (decimal 1234567890) = 1234567890 := by decide

end ChainEconomy.Text
