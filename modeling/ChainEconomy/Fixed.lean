import ChainEconomy.Rate
import ChainEconomy.Text.Blank
import ChainEconomy.Text.Split

/-! # Fixed-point numbers

Non-negative numbers with 18 decimal places, kept as a whole number of atomic units. Products are
truncated, the only rounding there is; sums are exact and nothing overflows. -/

namespace ChainEconomy

/-- A non-negative number of atomic units, `10^18` of which make one. -/
structure Fixed where
  atomics : Nat
  deriving DecidableEq, Repr

namespace Fixed

/-- The number of decimal places. -/
def places : Nat := 18

/-- The number of atomic units in one. -/
def unit : Nat := Nat.pow 10 18

/-- Why a number is refused. -/
inductive Error where
  | negative (text : String)
  | malformed (text : String)
  | tooPrecise (text : String)
  deriving DecidableEq, Repr

/-- The wording of a refusal. -/
def Error.message : Error → String
  | .negative text => s!"decimal must not be negative: {text}"
  | .malformed text => "malformed decimal: " ++ Text.quoted text
  | .tooPrecise text =>
    "decimal " ++ Text.quoted text ++ " has more than 18 fractional digits"

/-- The number zero. -/
def zero : Fixed := ⟨0⟩

/-- The number one. -/
def one : Fixed := ⟨unit⟩

instance : Inhabited Fixed := ⟨zero⟩

/-- A whole number. -/
def ofNat (n : Nat) : Fixed := ⟨n * unit⟩

/-- The sum of two numbers. -/
def add (a b : Fixed) : Fixed := ⟨a.atomics + b.atomics⟩

/-- The product of two numbers, without the part below one atomic unit. -/
def mulTruncate (a b : Fixed) : Fixed := ⟨a.atomics * b.atomics / unit⟩

/-- The whole part. -/
def floor (a : Fixed) : Nat := a.atomics / unit

/-- The part below one. -/
def fract (a : Fixed) : Fixed := ⟨a.atomics % unit⟩

/-- Whether the number is zero. -/
def isZero (a : Fixed) : Bool := Nat.beq a.atomics 0

/-- Whether the number is below one. -/
def isBelowOne (a : Fixed) : Bool := Nat.blt a.atomics unit

/-- A rate as a fixed-point number; places beyond the eighteenth are cut off. -/
def ofRate (r : Rate) : Except Error Fixed :=
  if r.isNegative then .error (.negative r.render)
  else if r.scale ≤ places then .ok ⟨r.mantissa * Nat.pow 10 (places - r.scale)⟩
  else .ok ⟨r.mantissa / Nat.pow 10 (r.scale - places)⟩

/-- The whole part, a point, and all 18 places. -/
def renderChars (a : Fixed) : List Char :=
  Text.decimal a.floor ++ '.' :: Text.zeroPadded places (Text.decimal a.fract.atomics)

/-- The text of a number. -/
def render (a : Fixed) : String := String.ofList a.renderChars

instance : ToString Fixed := ⟨render⟩

/-- Reads a number: digits, then perhaps a point and at most 18 more digits. -/
def parse (cs : List Char) : Except Error Fixed :=
  let text := Text.trim cs
  if text.head? = some '-' then .error (.negative (String.ofList text))
  else
    let (whole, fraction) := (Text.splitOnce? '.' text).getD (text, [])
    if whole.isEmpty || !Text.allDigits whole || !Text.allDigits fraction then
      .error (.malformed (String.ofList text))
    else if places < fraction.length then .error (.tooPrecise (String.ofList text))
    else
      .ok ⟨Text.digitsValue (whole ++ fraction ++ List.replicate (places - fraction.length) '0')⟩

/-- A number as a string of its text. -/
def toJson (a : Fixed) : Json := .string a.render

/-- Reads a number from a string. -/
def ofJson (j : Json) : Except Json.Fault Fixed :=
  match j.toText with
  | .error f => .error f
  | .ok s =>
    match parse s.toList with
    | .ok a => .ok a
    | .error e => .error (Json.Fault.at (.rejected e.message)).detached

/-- Whether places are added or cut off, the mantissa in atomic units is divided by the power of ten
that the scale stands for. -/
theorem ofRate_eq_ok {r : Rate} (h : r.isNegative = false) :
    ofRate r = .ok ⟨r.mantissa * Nat.pow 10 places / Nat.pow 10 r.scale⟩ := by
  have hpos : ∀ n, 0 < Nat.pow 10 n := fun n => Nat.pow_pos (by decide)
  have hadd : ∀ m n, Nat.pow 10 (m + n) = Nat.pow 10 m * Nat.pow 10 n := fun m n =>
    Nat.pow_add 10 m n
  unfold ofRate
  rw [if_neg (by rw [h]; exact Bool.false_ne_true)]
  split
  · next hle =>
    -- Up to 18 places, the multiplication by the missing ones cancels in the quotient.
    have hplaces : Nat.pow 10 places = Nat.pow 10 (places - r.scale) * Nat.pow 10 r.scale := by
      rw [← hadd, Nat.sub_add_cancel hle]
    rw [hplaces, ← Nat.mul_assoc, Nat.mul_div_cancel _ (hpos r.scale)]
  · next hlt =>
    -- Beyond 18 places, both sides of the quotient have 18 of them to spare.
    have hscale : Nat.pow 10 r.scale = Nat.pow 10 (r.scale - places) * Nat.pow 10 places := by
      rw [← hadd, Nat.sub_add_cancel (Nat.le_of_not_le hlt)]
    rw [hscale, Nat.mul_div_mul_right _ _ (hpos places)]

/-- Whole part and fraction make up the number. -/
theorem floor_fract (a : Fixed) : a.floor * unit + a.fract.atomics = a.atomics :=
  Nat.div_add_mod' a.atomics unit

/-- A fractional part is below one. -/
theorem fract_isBelowOne (a : Fixed) : a.fract.isBelowOne = true := by
  simpa [isBelowOne, fract] using Nat.mod_lt a.atomics (by decide : 0 < unit)

end Fixed

end ChainEconomy
