import ChainEconomy.Address
import ChainEconomy.Proofs.TextRoundTrip

/-!
# Addresses as text

A text is an address if it consists of `t` and 64 hexadecimal digits, and the texts of one address
differ in nothing but the case of their digits.

Reading counts bytes and looks at bytes, not at characters. This makes no difference: a character
beyond ASCII starts with a byte beyond ASCII, which is no digit, so that wherever all bytes are
digits, each of them is a character of its own. What is read and what is written are both compared
with the halves of the bytes of the address. The digits that are read have these halves for values,
and whatever has these values is, up to case, the digits that are written.

## Key results

- `Hex.decodeFrom_of_halves`, `Hex.halves_of_decodeFrom`: which bytes are read from digits
- `Hex.map_value?_encode`: the values of digits, seen from the characters
- `parse_eq_ok_iff`, `exists_parse_iff`: which texts are read as an address, and which as any
- `address_texts_exact`: the texts of addresses
-/

namespace ChainEconomy

namespace Text

/-! ## Bytes of characters -/

namespace Utf8

/-- The bytes of a text are those of its first character, followed by those of the rest. -/
theorem encode_cons (c : Char) (cs : List Char) : encode (c :: cs) = encodeChar c ++ encode cs :=
  List.flatMap_cons

/-- A character of ASCII is one byte, and any other one starts with a byte beyond ASCII. -/
theorem encodeChar_eq_cons (c : Char) :
    ∃ first rest, encodeChar c = first :: rest ∧
      (first.toNat = c.toNat ∧ rest = [] ∨ 0x80 ≤ first.toNat ∧ 0x80 ≤ c.toNat) := by
  have hrange := toNat_ranges c
  have hbyte : ∀ {n : Nat}, n < 256 → (UInt8.ofNat n).toNat = n := UInt8.toNat_ofNat_of_lt'
  unfold encodeChar
  dsimp only
  -- The four ranges of characters, by the number of their bytes. Only the first byte matters.
  split
  · exact ⟨_, _, rfl, .inl ⟨hbyte (by omega), rfl⟩⟩
  · split
    · exact ⟨_, _, rfl, .inr ⟨by rw [hbyte (by omega)]; omega, by omega⟩⟩
    · split
      · exact ⟨_, _, rfl, .inr ⟨by rw [hbyte (by omega)]; omega, by omega⟩⟩
      · exact ⟨_, _, rfl, .inr ⟨by rw [hbyte (by omega)]; omega, by omega⟩⟩

/-- A character has as many bytes as the language counts for it. -/
theorem length_encodeChar (c : Char) : (encodeChar c).length = c.utf8Size := by
  have hval : c.val.toNat = c.toNat := rfl
  unfold encodeChar Char.utf8Size
  simp only [UInt32.le_iff_toNat_le, UInt32.toNat_ofNatLT, hval]
  split_ifs <;> first | rfl | omega

/-- A text has as many bytes as the language counts for it. -/
theorem length_encode (cs : List Char) : (encode cs).length = String.utf8Len cs := by
  induction cs with
  | nil => rfl
  | cons c cs ih =>
    rw [encode_cons, List.length_append, length_encodeChar, ih, String.utf8Len_cons, Nat.add_comm]

/-- A string takes as many bytes as its text is written with. -/
theorem length_ofString (s : String) : (ofString s).length = s.utf8ByteSize := by
  rw [ofString, length_encode, ← String.utf8ByteSize_ofList, String.ofList_toList]

end Utf8

namespace Hex

/-! ## Digits -/

/-- The capital letters move up by 32, and nothing else moves. -/
theorem toNat_toLower (c : Char) :
    c.toLower.toNat = if 65 ≤ c.toNat ∧ c.toNat ≤ 90 then c.toNat + 32 else c.toNat := by
  have hupper : c.val ≥ 'A'.val ∧ c.val ≤ 'Z'.val ↔ 65 ≤ c.toNat ∧ c.toNat ≤ 90 := by
    simp only [ge_iff_le, UInt32.le_iff_toNat_le]
    rfl
  unfold Char.toLower
  split
  · next h =>
    have hbound := (hupper.1 h).2
    rw [if_pos (hupper.1 h)]
    show (c.val + 32).toNat = c.toNat + 32
    -- The word has room above the capital letters, so that the sum does not wrap around.
    rw [UInt32.toNat_add]
    show (c.toNat + 32) % 2 ^ 32 = c.toNat + 32
    omega
  · next h => rw [if_neg (mt hupper.2 h)]

/-- The digits are `0` to `9`, followed by `a` to `f`. -/
private theorem toNat_digit : ∀ n < 16, (digit n).toNat = if n < 10 then 48 + n else 87 + n := by
  decide

/-- A digit is written in one way in lowercase, and in another one if it is a letter. -/
theorem toLower_eq_digit_iff {c : Char} {n : Nat} (hn : n < 16) :
    c.toLower = digit n ↔
      n < 10 ∧ c.toNat = 48 + n ∨ 10 ≤ n ∧ (c.toNat = 87 + n ∨ c.toNat = 55 + n) := by
  rw [← Char.toNat_inj, toNat_toLower, toNat_digit n hn]
  -- The three ranges of digits lie apart from each other, which is arithmetic.
  split_ifs <;> omega

/-- A hexadecimal digit is one that has a value below 16, up to case. -/
theorem isHexDigit_iff {c : Char} : c.isHexDigit = true ↔ ∃ n < 16, c.toLower = digit n := by
  have hval : c.val.toNat = c.toNat := rfl
  have hranges : c.isHexDigit = true ↔ 48 ≤ c.toNat ∧ c.toNat ≤ 57 ∨
      97 ≤ c.toNat ∧ c.toNat ≤ 102 ∨ 65 ≤ c.toNat ∧ c.toNat ≤ 70 := by
    simp only [Char.isHexDigit, Char.isDigit, Bool.or_eq_true, Bool.and_eq_true,
      decide_eq_true_eq, ge_iff_le, UInt32.le_iff_toNat_le, hval, or_assoc]
    rfl
  rw [hranges]
  constructor
  · -- One case for each range: the decimal digits, the small letters and the capital ones.
    rintro (h | h | h)
    · exact ⟨c.toNat - 48, by omega, (toLower_eq_digit_iff (by omega)).2 (by omega)⟩
    · exact ⟨c.toNat - 87, by omega, (toLower_eq_digit_iff (by omega)).2 (by omega)⟩
    · exact ⟨c.toNat - 55, by omega, (toLower_eq_digit_iff (by omega)).2 (by omega)⟩
  · rintro ⟨n, hn, h⟩
    rw [toLower_eq_digit_iff hn] at h
    omega

/-- No digit has a value of 16 or more. -/
theorem value?_lt {b : UInt8} {n : Nat} (h : value? b = some n) : n < 16 := by
  unfold value? at h
  dsimp only at h
  split_ifs at h <;> injection h <;> omega

/-- The value of a byte tells whether a character is a digit, if the byte stands for the character
or neither is of ASCII. -/
theorem value?_eq_some_iff {b : UInt8} {c : Char} {n : Nat} (hn : n < 16)
    (h : b.toNat = c.toNat ∨ 0x80 ≤ b.toNat ∧ 0x80 ≤ c.toNat) :
    value? b = some n ↔ c.toLower = digit n := by
  rw [toLower_eq_digit_iff hn]
  unfold value?
  dsimp only
  split_ifs <;> simp only [Option.some.injEq, false_iff] <;> omega

/-! ## Halves of bytes -/

/-- The values of the digits that bytes are written with. -/
def halves (bytes : Bytes) : List Nat := bytes.flatMap fun b => [b.toNat / 16, b.toNat % 16]

/-- The halves of the first byte come first. -/
theorem halves_cons (b : UInt8) (bytes : Bytes) :
    halves (b :: bytes) = b.toNat / 16 :: b.toNat % 16 :: halves bytes := rfl

/-- Bytes are written digit by digit, from their halves. -/
theorem encode_eq_map (bytes : Bytes) : encode bytes = (halves bytes).map digit := by
  rw [encode, halves, List.map_flatMap]
  rfl

/-- Half of a byte is less than 16. -/
theorem lt_of_mem_halves {bytes : Bytes} {n : Nat} (h : n ∈ halves bytes) : n < 16 := by
  obtain ⟨b, -, hn⟩ := List.mem_flatMap.1 h
  have hb : b.toNat < 256 := b.toNat_lt
  simp only [List.mem_cons, List.not_mem_nil, or_false] at hn
  omega

/-- Digits that have the halves of bytes for values are read as the bytes. -/
theorem decodeFrom_of_halves {text bytes : Bytes} (i : Nat)
    (h : text.map value? = (halves bytes).map some) : decodeFrom i text = .ok bytes := by
  -- Two digits are read for each byte, so that the induction is on the bytes.
  induction bytes generalizing i text with
  | nil =>
    rw [List.map_eq_nil_iff.1 h]
    rfl
  | cons b bytes ih =>
    rw [halves_cons, List.map_cons, List.map_cons] at h
    obtain ⟨high, _, rfl, hhigh, h⟩ := List.map_eq_cons_iff.1 h
    obtain ⟨low, rest, rfl, hlow, hrest⟩ := List.map_eq_cons_iff.1 h
    -- The byte is put together again from its halves.
    have hbyte : 16 * (b.toNat / 16) + b.toNat % 16 = b.toNat := Nat.div_add_mod _ _
    rw [decodeFrom, hhigh, hlow, ih (i + 2) hrest]
    dsimp only
    rw [hbyte, UInt8.ofNat_toNat]

/-- The bytes that are read have the values of the digits for halves, if no digit is left over. -/
theorem halves_of_decodeFrom {i : Nat} {text bytes : Bytes} (heven : text.length % 2 = 0)
    (h : decodeFrom i text = .ok bytes) : text.map value? = (halves bytes).map some := by
  fun_induction decodeFrom i text generalizing bytes with
  -- No bytes are read where a digit is refused.
  | case1 | case2 | case3 => cases h
  | case4 i high low rest m n hlow hhigh read hread ih =>
    cases h
    have hm : m < 16 := value?_lt hhigh
    have hn : n < 16 := value?_lt hlow
    have hbyte : (UInt8.ofNat (16 * m + n)).toNat = 16 * m + n :=
      -- A byte has room for two values below 16, and gives them back.
      UInt8.toNat_ofNat_of_lt' (show 16 * m + n < 256 by omega)
    have hfirst : (16 * m + n) / 16 = m := by omega
    have hsecond : (16 * m + n) % 16 = n := by omega
    have hrest : rest.map value? = (halves read).map some := by
      refine ih ?_ hread
      rw [List.length_cons, List.length_cons] at heven
      omega
    rw [halves_cons, hbyte, hfirst, hsecond, List.map_cons, List.map_cons, List.map_cons,
      List.map_cons, hhigh, hlow, hrest]
  | case5 text i hshort =>
    cases h
    -- At most one digit is left, and the length excludes the case of one.
    match text with
    | [] => rfl
    | [_] => cases heven
    | high :: low :: rest => exact absurd rfl (hshort high low rest)

/-- What is refused is a byte of the text that is no digit. -/
theorem decodeFrom_eq_error {i : Nat} {text : Bytes} {bad : BadDigit}
    (h : decodeFrom i text = .error bad) : bad.byte ∈ text ∧ value? bad.byte = none := by
  fun_induction decodeFrom i text with
  | case1 i high low rest hhigh =>
    cases h
    exact ⟨List.mem_cons_self, hhigh⟩
  | case2 i high low rest m hlow hhigh =>
    cases h
    exact ⟨List.mem_cons_of_mem _ List.mem_cons_self, hlow⟩
  | case3 i high low rest m n hlow hhigh e hrest ih =>
    cases h
    obtain ⟨hmem, hvalue⟩ := ih hrest
    exact ⟨List.mem_cons_of_mem _ (List.mem_cons_of_mem _ hmem), hvalue⟩
  | case4 | case5 => cases h

/-! ## Digits as characters -/

/-- The bytes of a text have given values exactly if its characters are, up to case, the digits of
these values. -/
theorem map_value?_encode {cs : List Char} {ns : List Nat} (h : ∀ n ∈ ns, n < 16) :
    (Utf8.encode cs).map value? = ns.map some ↔ cs.map Char.toLower = ns.map digit := by
  -- Characters on one side, values on the other: both lists are gone through at once.
  induction cs generalizing ns with
  | nil =>
    cases ns with
    | nil => exact iff_of_true rfl rfl
    | cons n ns => exact ⟨(nomatch ·), (nomatch ·)⟩
  | cons c cs ih =>
    obtain ⟨first, rest, hc, hfirst⟩ := Utf8.encodeChar_eq_cons c
    rw [Utf8.encode_cons, hc, List.cons_append, List.map_cons, List.map_cons]
    cases ns with
    | nil => exact ⟨(nomatch ·), (nomatch ·)⟩
    | cons n ns =>
      obtain ⟨hn, hns⟩ := List.forall_mem_cons.1 h
      have hvalue : value? first = some n ↔ c.toLower = digit n :=
        value?_eq_some_iff hn (hfirst.imp_left And.left)
      rw [List.map_cons, List.map_cons, List.cons_eq_cons, List.cons_eq_cons, ← hvalue]
      refine and_congr_right fun hsome => ?_
      -- Only a character of ASCII starts with the byte of a digit, and it has no other byte.
      rcases hfirst with ⟨-, rfl⟩ | ⟨-, hbeyond⟩
      · exact ih hns
      · have hascii := (toLower_eq_digit_iff hn).1 (hvalue.1 hsome)
        omega

/-- Text is read as bytes exactly if it is, up to case, what the bytes are written as. -/
theorem decode_encode_iff {cs : List Char} {bytes : Bytes}
    (heven : (Utf8.encode cs).length % 2 = 0) :
    decode (Utf8.encode cs) = .ok bytes ↔ cs.map Char.toLower = encode bytes := by
  rw [encode_eq_map, ← map_value?_encode fun _ => lt_of_mem_halves]
  exact ⟨halves_of_decodeFrom heven, decodeFrom_of_halves 0⟩

/-- Letters are written in lowercase. -/
theorem map_toLower_encode (bytes : Bytes) : (encode bytes).map Char.toLower = encode bytes := by
  have hdigit : ∀ n < 16, (digit n).toLower = digit n := by decide
  rw [encode_eq_map, List.map_map]
  exact List.map_congr_left fun n hn => hdigit n (lt_of_mem_halves hn)

/-- Digits are one byte each. -/
theorem length_encode_of_digits {cs : List Char} {ns : List Nat} (h : ∀ n ∈ ns, n < 16)
    (hdigits : cs.map Char.toLower = ns.map digit) : (Utf8.encode cs).length = cs.length := by
  -- Both maps keep the length, so that bytes, values and characters are equally many.
  have hbytes := congrArg List.length ((map_value?_encode h).2 hdigits)
  have hchars := congrArg List.length hdigits
  rw [List.length_map, List.length_map] at hbytes hchars
  rw [hbytes, hchars]

/-- What bytes are written as keeps its length, whatever the case of its letters. -/
theorem length_encode_of_toLower {cs : List Char} {bytes : Bytes}
    (h : cs.map Char.toLower = encode bytes) : (Utf8.encode cs).length = 2 * bytes.length := by
  have hchars : cs.length = 2 * bytes.length := by rw [← length_encode, ← h, List.length_map]
  rw [encode_eq_map] at h
  rw [length_encode_of_digits (fun _ => lt_of_mem_halves) h, hchars]

/-- A text of hexadecimal digits has values. -/
theorem exists_values_of_digits {cs : List Char} (h : ∀ c ∈ cs, c.isHexDigit = true) :
    ∃ ns : List Nat, (∀ n ∈ ns, n < 16) ∧ cs.map Char.toLower = ns.map digit := by
  induction cs with
  | nil => exact ⟨[], nofun, rfl⟩
  | cons c cs ih =>
    obtain ⟨hc, hcs⟩ := List.forall_mem_cons.1 h
    obtain ⟨n, hn, hdigit⟩ := isHexDigit_iff.1 hc
    obtain ⟨ns, hns, hdigits⟩ := ih hcs
    refine ⟨n :: ns, List.forall_mem_cons.2 ⟨hn, hns⟩, ?_⟩
    rw [List.map_cons, List.map_cons, hdigit, hdigits]

/-- Digits are one byte each, and none of them is refused. -/
theorem exists_decode_of_digits {cs : List Char} (h : ∀ c ∈ cs, c.isHexDigit = true) :
    (Utf8.encode cs).length = cs.length ∧ ∃ bytes, decode (Utf8.encode cs) = .ok bytes := by
  obtain ⟨ns, hns, hdigits⟩ := exists_values_of_digits h
  refine ⟨length_encode_of_digits hns hdigits, ?_⟩
  cases hread : decode (Utf8.encode cs) with
  | ok bytes => exact ⟨bytes, rfl⟩
  | error bad =>
    -- Every byte has a value, and a refusal would show one that has none.
    obtain ⟨hmem, hnone⟩ := decodeFrom_eq_error hread
    have hvalue : value? bad.byte ∈ ns.map some :=
      (map_value?_encode hns).2 hdigits ▸ List.mem_map_of_mem hmem
    obtain ⟨n, -, hsome⟩ := List.mem_map.1 hvalue
    cases hsome.trans hnone

end Hex

end Text

namespace Address

open Text

/-! ## Texts of addresses -/

/-- A text is read as an address exactly if it is, up to the case of the digits, what the address is
written as. -/
theorem parse_eq_ok_iff {text : List Char} {a : Address} :
    parse text = .ok a ↔
      ∃ digits, text = 't' :: digits ∧ digits.map Char.toLower = Hex.encode a.bytes := by
  constructor
  · intro h
    -- The three ways to be refused are a wrong first character, a wrong length and a bad digit.
    unfold parse at h
    split at h
    · next digits =>
      dsimp only at h
      split at h
      · next hlength =>
        split at h
        · cases h
        · next bytes hread =>
          cases h
          exact ⟨digits, rfl, (Hex.decode_encode_iff (by rw [hlength])).1 hread⟩
      · cases h
    · cases h
  · rintro ⟨digits, rfl, h⟩
    have hlength : (Utf8.encode digits).length = 64 := by
      rw [Hex.length_encode_of_toLower h, a.length_eq]
    have hread : Hex.decode (Utf8.encode digits) = .ok a.bytes :=
      (Hex.decode_encode_iff (by rw [hlength])).2 h
    rw [parse, dif_pos hlength]
    split
    · next hbad => cases hread.symm.trans hbad
    · next hok => cases hread.symm.trans hok; rfl

/-- The texts that are read are `t` and 64 digits. -/
theorem exists_parse_iff {text : List Char} :
    (∃ a, parse text = .ok a) ↔
      ∃ digits, text = 't' :: digits ∧ digits.length = 64 ∧ ∀ d ∈ digits, d.isHexDigit = true := by
  constructor
  · rintro ⟨a, hread⟩
    obtain ⟨digits, rfl, h⟩ := parse_eq_ok_iff.1 hread
    have hlength := congrArg List.length h
    rw [List.length_map, Hex.length_encode, a.length_eq] at hlength
    refine ⟨digits, rfl, hlength, fun d hd => Hex.isHexDigit_iff.2 ?_⟩
    -- What is written consists of digits only, whatever their case.
    have hmem : d.toLower ∈ Hex.encode a.bytes := h ▸ List.mem_map_of_mem hd
    rw [Hex.encode_eq_map] at hmem
    obtain ⟨n, hn, hdigit⟩ := List.mem_map.1 hmem
    exact ⟨n, Hex.lt_of_mem_halves hn, hdigit.symm⟩
  · rintro ⟨digits, rfl, hlength, hdigits⟩
    obtain ⟨hbytes, bytes, hread⟩ := Hex.exists_decode_of_digits hdigits
    rw [hlength] at hbytes
    have h32 : bytes.length = 32 := by rw [Hex.length_of_decodeFrom hread, hbytes]
    exact ⟨⟨bytes, h32⟩,
      parse_eq_ok_iff.2 ⟨digits, rfl, (Hex.decode_encode_iff (by rw [hbytes])).1 hread⟩⟩

/-- A length that is refused is not the right one. -/
theorem parse_eq_wrongLength {text : List Char} {n : Nat}
    (h : parse text = .error (.wrongLength n)) : (Utf8.encode text).length = n + 1 ∧ n ≠ 64 := by
  unfold parse at h
  split at h
  · next digits =>
    dsimp only at h
    split at h
    · split at h <;> cases h
    · next hlength =>
      cases h
      exact ⟨by rw [Utf8.encode_cons, List.length_append, Nat.add_comm]; rfl, hlength⟩
  · cases h

/-- The text of an address is read as the address. -/
theorem parse_toList_render (a : Address) : parse a.render.toList = .ok a := by
  rw [render, String.toList_ofList]
  exact parse_eq_ok_iff.2 ⟨Hex.encode a.bytes, rfl, Hex.map_toLower_encode a.bytes⟩

/-- A text with a `t` in front is read as the address that it is, with its letters lowercased, the
text of. -/
theorem parse_eq_ok_iff_render {text : String} {a : Address} :
    parse text.toList = .ok a ↔ text.toList.head? = some 't' ∧ a.render = text.toLower := by
  have hrender : a.render = text.toLower ↔ a.renderChars = text.toList.map Char.toLower := by
    rw [render, String.toLower, String.map_eq_internal, String.ofList_inj]
  rw [parse_eq_ok_iff, hrender, renderChars]
  constructor
  · rintro ⟨digits, htext, hdigits⟩
    rw [htext, List.map_cons, hdigits]
    exact ⟨rfl, rfl⟩
  · rintro ⟨hfirst, hletters⟩
    obtain ⟨digits, htext⟩ := List.head?_eq_some_iff.1 hfirst
    rw [htext, List.map_cons] at hletters
    exact ⟨digits, htext, (List.cons_eq_cons.1 hletters).2.symm⟩

/-- Addresses and their texts correspond to each other up to case. The text of an address is read as
the address. A text is read exactly if it is a lowercase `t` and 64 hexadecimal digits of ASCII, in
either case, and what it is read as has the same text with the letters lowercased. A text of 65
bytes with a character beyond ASCII is refused, though not for its length. -/
theorem address_texts_exact (a : Address) (text : String) :
    parse a.render.toList = .ok a ∧
      ((∃ b, parse text.toList = .ok b) ↔
        ∃ digits, text.toList = 't' :: digits ∧ digits.length = 64 ∧
          ∀ d ∈ digits, d.isHexDigit = true) ∧
      (∀ b, parse text.toList = .ok b ↔
        text.toList.head? = some 't' ∧ b.render = text.toLower) ∧
      (text.utf8ByteSize = 65 → (∃ c ∈ text.toList, 0x80 ≤ c.toNat) →
        ∃ e, parse text.toList = .error e ∧ ∀ n, e ≠ .wrongLength n) := by
  refine ⟨parse_toList_render a, exists_parse_iff, fun b => parse_eq_ok_iff_render, ?_⟩
  rintro hsize ⟨c, hc, hbeyond⟩
  cases hread : parse text.toList with
  | ok b =>
    -- All characters of a text that is read are of ASCII.
    obtain ⟨digits, htext, -, hdigits⟩ := exists_parse_iff.1 ⟨b, hread⟩
    rw [htext] at hc
    rcases List.mem_cons.1 hc with rfl | hc
    · exact absurd hbeyond (by decide)
    · obtain ⟨n, hn, hdigit⟩ := Hex.isHexDigit_iff.1 (hdigits c hc)
      have hascii := (Hex.toLower_eq_digit_iff hn).1 hdigit
      omega
  | error e =>
    refine ⟨e, rfl, ?_⟩
    rintro n rfl
    obtain ⟨hlength, hne⟩ := parse_eq_wrongLength hread
    have hbytes : (Utf8.encode text.toList).length = 65 := (Utf8.length_ofString text).trans hsize
    omega

/-- Digits of both cases. -/
def Sample.mixedCase : List Char := 't' :: (List.replicate 32 ['a', 'B']).flatten

/-- As many bytes, the last two of which are one character. -/
def Sample.accented : List Char := 't' :: List.replicate 62 '0' ++ ['é']

/-- Letters of either case are read. A character of two bytes at the end is refused. -/
theorem address_texts_exact_sample :
    parse Sample.mixedCase = .ok ⟨List.replicate 32 0xAB, List.length_replicate⟩ ∧
      (String.ofList Sample.accented).utf8ByteSize = 65 ∧
      ∃ e, parse Sample.accented = .error e ∧ ∀ n, e ≠ .wrongLength n := by
  have hsize : (String.ofList Sample.accented).utf8ByteSize = 65 := by
    rw [String.utf8ByteSize_ofList]
    decide
  have hmixed := (address_texts_exact zero (String.ofList Sample.mixedCase)).2.2.1
  have haccented := (address_texts_exact zero (String.ofList Sample.accented)).2.2.2 hsize
  rw [String.toList_ofList] at hmixed haccented
  refine ⟨(hmixed _).2 ⟨rfl, ?_⟩, hsize, haccented ⟨'é', by decide, by decide⟩⟩
  rw [String.toLower, String.map_eq_internal, String.toList_ofList]
  decide +kernel

end Address

end ChainEconomy
