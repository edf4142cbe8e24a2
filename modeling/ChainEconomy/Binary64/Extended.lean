import ChainEconomy.Binary64.Shortest

/-! # Signed, infinite and undefined numbers

The binary format as a whole: a sign in front of a finite number, two infinities, and the result of
an undefined operation. Decimal text is read to the nearest number and written back in its shortest
form without an exponent. -/

namespace ChainEconomy.Binary64

/-- The number nearest to `digits · 10^power`; none when it is too large for the format. -/
def ofDecimal (digits : Nat) (power : Int) : Option Binary64 :=
  if digits = 0 then some zero
  else
    let leading : Int := (Text.decimal digits).length + power
    -- Far outside of the format the power of ten is not worth computing.
    if 310 < leading then none
    else if leading < -330 then some zero
    else if 0 ≤ power then ofRatio (digits * Nat.pow 10 power.toNat) 1
    else ofRatio digits (Nat.pow 10 (-power).toNat)

/-- Any number of the binary format. -/
inductive Extended where
  | finite (negative : Bool) (magnitude : Binary64)
  | infinite (negative : Bool)
  | undefined
  deriving DecidableEq, Repr

namespace Extended

/-- The number nearest to a decimal number, or an infinity where that is too large. -/
def ofDecimal (negative : Bool) (digits : Nat) (power : Int) : Extended :=
  match Binary64.ofDecimal digits power with
  | some magnitude => .finite negative magnitude
  | none => .infinite negative

/-- The text of a number. -/
def render : Extended → List Char
  | .finite negative magnitude => (if negative then ['-'] else []) ++ magnitude.toText
  | .infinite false => ['i', 'n', 'f']
  | .infinite true => ['-', 'i', 'n', 'f']
  | .undefined => ['N', 'a', 'N']

/-- Whether a number is zero, of either sign. -/
def isZero : Extended → Bool
  | .finite _ magnitude => magnitude.mantissa = 0
  | _ => false

/-- The nearest whole number of 64 bits, a half going away from zero. -/
def toWord : Extended → UInt64
  | .finite false magnitude => UInt64.ofNat (min magnitude.round (Nat.pow 2 64 - 1))
  | .infinite false => UInt64.ofNat (Nat.pow 2 64 - 1)
  | _ => 0

/-! ## Reading -/

/-- Takes the sign off a text. -/
def splitSign : List Char → Bool × List Char
  | '-' :: rest => (true, rest)
  | '+' :: rest => (false, rest)
  | cs => (false, cs)

/-- Reads a whole number with a sign. -/
def readInteger (cs : List Char) : Option Int :=
  let (negative, digits) := splitSign cs
  if digits.isEmpty || !Text.allDigits digits then none
  else
    let n : Int := Text.digitsValue digits
    some (if negative then -n else n)

/-- Reads the exponent of a number, of which nothing may be left. -/
def readExponent : List Char → Option Int
  | [] => some 0
  | c :: rest => if c = 'e' ∨ c = 'E' then readInteger rest else none

/-- Reads a number without a sign: digits with a point anywhere or nowhere, and an exponent. -/
def readUnsigned (negative : Bool) (cs : List Char) : Option Extended :=
  let whole := cs.takeWhile Char.isDigit
  let rest := cs.dropWhile Char.isDigit
  let (fraction, rest) :=
    match rest with
    | '.' :: after => (after.takeWhile Char.isDigit, after.dropWhile Char.isDigit)
    | _ => ([], rest)
  if whole.isEmpty && fraction.isEmpty then none
  else
    (readExponent rest).map fun exponent =>
      ofDecimal negative (Text.digitsValue (whole ++ fraction)) (exponent - fraction.length)

/-- Reads a number; the words for infinity and for an undefined number are written in any case. -/
def parse? (cs : List Char) : Option Extended :=
  let (negative, rest) := splitSign cs
  let word := rest.map Char.toLower
  if word = "inf".toList ∨ word = "infinity".toList then some (.infinite negative)
  else if word = "nan".toList then some .undefined
  else readUnsigned negative rest

example : (parse? "-12.50".toList).map render = some "-12.5".toList := by decide +kernel
example : (parse? ".5e1".toList).map toWord = some 5 := by decide +kernel
example : parse? "1e400".toList = some (.infinite false) := by decide +kernel
example : parse? ".".toList = none := by decide +kernel

end Extended

end ChainEconomy.Binary64
