import ChainEconomy.Text.Hex

/-! # UTF-8

Text as bytes. A code point below `0x80` is one byte, below `0x800` two, below `0x10000` three, and
four above. Reading accepts only the shortest form of a code point and no surrogate; a refusal says
where the unreadable sequence starts and how long it is, or that the text stops inside one. -/

namespace ChainEconomy.Text.Utf8

/-- The bytes of one character. -/
def encodeChar (c : Char) : Bytes :=
  let n := c.toNat
  if n < 0x80 then [UInt8.ofNat n]
  else if n < 0x800 then [UInt8.ofNat (0xC0 + n / 64), UInt8.ofNat (0x80 + n % 64)]
  else if n < 0x10000 then
    [UInt8.ofNat (0xE0 + n / 4096), UInt8.ofNat (0x80 + n / 64 % 64), UInt8.ofNat (0x80 + n % 64)]
  else
    [UInt8.ofNat (0xF0 + n / 262144), UInt8.ofNat (0x80 + n / 4096 % 64),
      UInt8.ofNat (0x80 + n / 64 % 64), UInt8.ofNat (0x80 + n % 64)]

/-- The bytes of a text. -/
def encode (cs : List Char) : Bytes := cs.flatMap encodeChar

/-- The bytes of a string. -/
def ofString (s : String) : Bytes := encode s.toList

/-- Why bytes are no text. -/
inductive Unreadable where
  /-- The `length` bytes from `start` on begin no character. -/
  | invalid (start length : Nat)
  /-- The bytes stop inside the character that starts at `start`. -/
  | incomplete (start : Nat)
  deriving DecidableEq, Repr

/-- Where the unreadable bytes start. -/
def Unreadable.start : Unreadable → Nat
  | .invalid start _ => start
  | .incomplete start => start

/-- The wording of a refusal. -/
def Unreadable.message : Unreadable → String
  | .invalid start length => s!"invalid utf-8 sequence of {length} bytes from index {start}"
  | .incomplete start => s!"incomplete utf-8 byte sequence from index {start}"

/-- A byte inside a character: `10xxxxxx`. -/
def isTail (b : UInt8) : Bool := Nat.ble 0x80 b.toNat && Nat.ble b.toNat 0xBF

/-- The bytes that may stand second after a given first byte of a character of three or four. -/
def isSecond (first second : UInt8) : Bool :=
  match first.toNat with
  | 0xE0 => Nat.ble 0xA0 second.toNat && Nat.ble second.toNat 0xBF
  | 0xED => Nat.ble 0x80 second.toNat && Nat.ble second.toNat 0x9F
  | 0xF0 => Nat.ble 0x90 second.toNat && Nat.ble second.toNat 0xBF
  | 0xF4 => Nat.ble 0x80 second.toNat && Nat.ble second.toNat 0x8F
  | _ => isTail second

/-- The number of bytes of the character that a byte starts, zero when it starts none. -/
def width (first : UInt8) : Nat :=
  let n := first.toNat
  if n < 0x80 then 1
  else if n < 0xC2 then 0
  else if n < 0xE0 then 2
  else if n < 0xF0 then 3
  else if n < 0xF5 then 4
  else 0

/-- The code point bits of a byte inside a character. -/
def tailBits (b : UInt8) : Nat := b.toNat - 0x80

/-- A character in front of what the rest of the bytes read as. -/
def consChar (n : Nat) (rest : Except Unreadable (List Char)) : Except Unreadable (List Char) :=
  rest.map (Char.ofNat n :: ·)

/-- Reads the bytes that start at `i` as text. -/
def decodeFrom (i : Nat) : Bytes → Except Unreadable (List Char)
  | [] => .ok []
  | a :: rest =>
    match width a with
    | 1 => consChar a.toNat (decodeFrom (i + 1) rest)
    | 2 =>
      match rest with
      | [] => .error (.incomplete i)
      | b :: rest =>
        if isTail b then
          consChar ((a.toNat - 0xC0) * 64 + tailBits b) (decodeFrom (i + 2) rest)
        else .error (.invalid i 1)
    | 3 =>
      match rest with
      | [] => .error (.incomplete i)
      | [b] => if isSecond a b then .error (.incomplete i) else .error (.invalid i 1)
      | b :: c :: rest =>
        if !isSecond a b then .error (.invalid i 1)
        else if isTail c then
          consChar ((a.toNat - 0xE0) * 4096 + tailBits b * 64 + tailBits c)
            (decodeFrom (i + 3) rest)
        else .error (.invalid i 2)
    | 4 =>
      match rest with
      | [] => .error (.incomplete i)
      | [b] => if isSecond a b then .error (.incomplete i) else .error (.invalid i 1)
      | [b, c] =>
        if !isSecond a b then .error (.invalid i 1)
        else if isTail c then .error (.incomplete i) else .error (.invalid i 2)
      | b :: c :: d :: rest =>
        if !isSecond a b then .error (.invalid i 1)
        else if !isTail c then .error (.invalid i 2)
        else if isTail d then
          consChar
            ((a.toNat - 0xF0) * 262144 + tailBits b * 4096 + tailBits c * 64 + tailBits d)
            (decodeFrom (i + 4) rest)
        else .error (.invalid i 3)
    | _ => .error (.invalid i 1)

/-- Reads bytes as text. -/
def decode (bytes : Bytes) : Except Unreadable (List Char) := decodeFrom 0 bytes

/-- Reads bytes as text in at most `steps` pieces, with `standIn` between them. -/
def decodePieces (standIn : List Char) : Nat → Bytes → List Char
  | 0, _ => []
  | steps + 1, bytes =>
    match decode bytes with
    | .ok cs => cs
    | .error e =>
      (decode (bytes.take e.start)).toOption.getD [] ++ standIn ++
        decodePieces standIn steps (bytes.drop (e.start + 1))

/-- Reads bytes as text, with `standIn` in the place of each byte that belongs to no character. -/
def decodeWith (standIn : List Char) (bytes : Bytes) : List Char :=
  decodePieces standIn (bytes.length + 1) bytes

/-- Bytes that are text are read as that text. -/
theorem decodeWith_of_decode {standIn : List Char} {bytes : Bytes} {cs : List Char}
    (h : decode bytes = .ok cs) : decodeWith standIn bytes = cs := by
  simp [decodeWith, decodePieces, h]

example : decodeWith ['?'] [0x61, 0xE2, 0x82, 0x62] = ['a', '?', '?', 'b'] := by rfl
example : decode (encode ['a', 'é', '€', '😀']) = .ok ['a', 'é', '€', '😀'] := by rfl
example : decode [0x61, 0xE2, 0x82] = .error (.incomplete 1) := by rfl
example : decode [0x61, 0xED, 0xA0, 0x80] = .error (.invalid 1 1) := by rfl

end ChainEconomy.Text.Utf8
