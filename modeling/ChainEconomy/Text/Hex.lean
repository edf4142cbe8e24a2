/-! # Hexadecimal text

Bytes as pairs of hexadecimal digits. Writing uses lowercase digits, reading takes either case and
names the first byte of the text that is no digit. -/

namespace ChainEconomy

/-- A string of bytes: a key or a value of a store, an address, an encoded text. -/
abbrev Bytes := List UInt8

namespace Text.Hex

/-- The lowercase digit of a number below 16. -/
def digit (n : Nat) : Char := Char.ofNat (if n < 10 then 48 + n else 87 + n)

/-- The value of a hexadecimal digit, given as a byte. -/
def value? (b : UInt8) : Option Nat :=
  let n := b.toNat
  if 48 ≤ n ∧ n ≤ 57 then some (n - 48)
  else if 97 ≤ n ∧ n ≤ 102 then some (n - 87)
  else if 65 ≤ n ∧ n ≤ 70 then some (n - 55)
  else none

/-- Two lowercase digits for each byte. -/
def encode (bytes : Bytes) : List Char :=
  bytes.flatMap fun b => [digit (b.toNat / 16), digit (b.toNat % 16)]

/-- A byte of the text that is no hexadecimal digit, and where it stands. -/
structure BadDigit where
  byte : UInt8
  position : Nat
  deriving DecidableEq, Repr

/-- Reads pairs of digits from position `i` on; a digit left over at the end is ignored. -/
def decodeFrom (i : Nat) : Bytes → Except BadDigit Bytes
  | high :: low :: rest =>
    match value? high, value? low with
    | none, _ => .error ⟨high, i⟩
    | some _, none => .error ⟨low, i + 1⟩
    | some h, some l =>
      match decodeFrom (i + 2) rest with
      | .error e => .error e
      | .ok bytes => .ok (UInt8.ofNat (16 * h + l) :: bytes)
  | _ => .ok []

/-- Reads a text of hexadecimal digits. -/
def decode (text : Bytes) : Except BadDigit Bytes := decodeFrom 0 text

/-- Bytes as lowercase hexadecimal text. -/
def render (bytes : Bytes) : String := String.ofList (encode bytes)

/-- Two digits for each byte. -/
@[simp] theorem length_encode (bytes : Bytes) : (encode bytes).length = 2 * bytes.length := by
  induction bytes with
  | nil => rfl
  | cons b rest ih =>
    simp only [encode, List.flatMap_cons, List.length_append, List.length_cons, List.length_nil]
      at ih ⊢
    omega

/-- Each pair of digits read gives one byte. -/
theorem length_of_decodeFrom {i : Nat} {text bytes : Bytes} (h : decodeFrom i text = .ok bytes) :
    bytes.length = text.length / 2 := by
  match text with
  | [] => cases h; rfl
  | [_] => cases h; simp
  | high :: low :: rest =>
    simp only [decodeFrom] at h
    split at h
    · cases h
    · cases h
    · split at h
      · cases h
      · next read =>
        cases h
        simp only [List.length_cons, length_of_decodeFrom read]
        omega

end Text.Hex

end ChainEconomy
