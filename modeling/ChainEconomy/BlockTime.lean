import ChainEconomy.Json.Record
import ChainEconomy.Text.Digits

/-! # Block time

The time of a block in microseconds, a word of 64 bits. Sums stop at the largest word instead of
wrapping around. -/

namespace ChainEconomy

/-- A number as a word of 64 bits; the largest word stands for all numbers above it. -/
def saturate (n : Nat) : UInt64 :=
  if Nat.ble n Json.maxWord then UInt64.ofNat n else UInt64.ofNat Json.maxWord

/-- A saturated number is the smaller of itself and the largest word. -/
theorem toNat_saturate (n : Nat) : (saturate n).toNat = min n Json.maxWord := by
  unfold saturate
  split
  · next h =>
    have h : n ≤ Json.maxWord := by simpa using h
    rw [UInt64.toNat_ofNat_of_lt' (Nat.lt_of_le_of_lt h (by decide)), Nat.min_eq_left h]
  · next h =>
    have h : Json.maxWord ≤ n := by simp at h; omega
    rw [Nat.min_eq_right h]
    rfl

/-- The time of a block. -/
structure BlockTime where
  micros : UInt64
  deriving DecidableEq, Repr, Inhabited

namespace BlockTime

/-- The time before the first block. -/
def genesis : BlockTime := ⟨0⟩

/-- The number of microseconds in a second. -/
def microsPerSecond : Nat := 1000000

/-- A time in whole seconds. -/
def ofSeconds (seconds : UInt64) : BlockTime := ⟨saturate (seconds.toNat * microsPerSecond)⟩

/-- Whole seconds since an earlier time; none unless that time is strictly earlier. -/
def wholeSecondsSince (now earlier : BlockTime) : Option UInt64 :=
  if Nat.ble now.micros.toNat earlier.micros.toNat then none
  else some (UInt64.ofNat ((now.micros.toNat - earlier.micros.toNat) / microsPerSecond))

/-- A later time. -/
def addMicros (t : BlockTime) (micros : UInt64) : BlockTime :=
  ⟨saturate (t.micros.toNat + micros.toNat)⟩

/-- Seconds with six decimal places. -/
def render (t : BlockTime) : String :=
  let n := t.micros.toNat
  String.ofList (Text.decimal (n / microsPerSecond) ++
    '.' :: Text.zeroPadded 6 (Text.decimal (n % microsPerSecond)) ++ ['s'])

instance : ToString BlockTime := ⟨render⟩

/-- A time as a number of microseconds. -/
def toJson (t : BlockTime) : Json := .natural t.micros.toNat

/-- Reads a time from a number of microseconds. -/
def ofJson (j : Json) : Except Json.Fault BlockTime := j.toUInt64.map BlockTime.mk

end BlockTime

end ChainEconomy
