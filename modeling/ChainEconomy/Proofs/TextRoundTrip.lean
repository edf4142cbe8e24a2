import Mathlib
import ChainEconomy.Text.Blank
import ChainEconomy.Text.Digits
import ChainEconomy.Text.Utf8

/-!
# Text that is read back

Writing text as bytes and numbers as digits loses nothing: what was written is read back, for every
character and for every number. Trimming takes off the white space at both ends of a text and
nothing else.

## Key results

- `Utf8.decode_encode`: the bytes of a text are read as the text
- `digitsValue_decimal`, `allDigits_decimal`: the digits of a number are digits and have its value
- `Strips`, `trim_eq_iff`: what trimming leaves
-/

namespace ChainEconomy.Text

namespace Utf8

/-- A number below 256 is a byte. -/
private theorem toNat_byte {n : Nat} (h : n < 256) : (UInt8.ofNat n).toNat = n :=
  UInt8.toNat_ofNat_of_lt' h

/-- A code point is no surrogate and has at most 21 bits. -/
theorem toNat_ranges (c : Char) :
    c.toNat < 0xD800 ∨ 0xDFFF < c.toNat ∧ c.toNat < 0x110000 := by
  have h := c.valid
  simp only [UInt32.isValidChar, Nat.isValidChar] at h
  exact h

/-- Six bits behind the mark of a continuation make a continuation byte. -/
private theorem isTail_byte {n : Nat} (h : n < 64) : isTail (UInt8.ofNat (0x80 + n)) = true := by
  rw [isTail, toNat_byte (by omega)]
  simp only [Nat.ble_eq, Bool.and_eq_true]
  omega

/-- The six bits are read off it again. -/
private theorem tailBits_byte {n : Nat} (h : n < 64) : tailBits (UInt8.ofNat (0x80 + n)) = n := by
  have hbyte := toNat_byte (n := 0x80 + n) (by omega)
  unfold tailBits
  omega

/-- The second of three bytes is never one that would start a shorter form or a surrogate. -/
private theorem isSecond_of_three (c : Char) (hlow : 0x800 ≤ c.toNat) (hhigh : c.toNat < 0x10000) :
    isSecond (UInt8.ofNat (0xE0 + c.toNat / 4096)) (UInt8.ofNat (0x80 + c.toNat / 64 % 64)) =
      true := by
  have hrange := toNat_ranges c
  unfold isSecond
  rw [toNat_byte (n := 0xE0 + c.toNat / 4096) (by omega)]
  -- Behind `E0` come the longer forms only, and behind `ED` no surrogates.
  split
  · rw [toNat_byte (by omega)]
    simp only [Nat.ble_eq, Bool.and_eq_true]
    omega
  · rw [toNat_byte (by omega)]
    simp only [Nat.ble_eq, Bool.and_eq_true]
    omega
  · omega
  · omega
  · exact isTail_byte (by omega)

/-- The second of four bytes is never one that would start a shorter form or too large a number. -/
private theorem isSecond_of_four (c : Char) (hlow : 0x10000 ≤ c.toNat) :
    isSecond (UInt8.ofNat (0xF0 + c.toNat / 262144)) (UInt8.ofNat (0x80 + c.toNat / 4096 % 64)) =
      true := by
  have hrange := toNat_ranges c
  unfold isSecond
  rw [toNat_byte (n := 0xF0 + c.toNat / 262144) (by omega)]
  -- Behind `F0` come the longer forms only, and behind `F4` no numbers above the last one.
  split
  · omega
  · omega
  · rw [toNat_byte (by omega)]
    simp only [Nat.ble_eq, Bool.and_eq_true]
    omega
  · rw [toNat_byte (by omega)]
    simp only [Nat.ble_eq, Bool.and_eq_true]
    omega
  · exact isTail_byte (by omega)

/-- The bytes of a character are read as the character. -/
theorem decodeFrom_encodeChar (i : Nat) (c : Char) (rest : Bytes) :
    ∃ j, decodeFrom i (encodeChar c ++ rest) = (decodeFrom j rest).map (c :: ·) := by
  have hrange := toNat_ranges c
  have hcons : ∀ n r, n = c.toNat → consChar n r = r.map (c :: ·) := fun n r h => by
    rw [consChar, h, Char.ofNat_toNat]
  unfold encodeChar
  -- By the number of bytes, from one to four. The bits of the character are those of its bytes.
  dsimp only
  split
  · next h1 =>
    -- One byte.
    have hfirst := toNat_byte (n := c.toNat) (by omega)
    have hwidth : width (UInt8.ofNat c.toNat) = 1 := by
      rw [width, hfirst, if_pos h1]
    refine ⟨i + 1, ?_⟩
    rw [List.singleton_append, decodeFrom.eq_def]
    simp only [hwidth, hfirst]
    exact hcons _ _ rfl
  · split
    · next h1 h2 =>
      -- Two bytes, with five bits and six.
      have hfirst := toNat_byte (n := 0xC0 + c.toNat / 64) (by omega)
      have hwidth : width (UInt8.ofNat (0xC0 + c.toNat / 64)) = 2 := by
        rw [width, hfirst]
        rw [if_neg (by omega), if_neg (by omega), if_pos (by omega)]
      refine ⟨i + 2, ?_⟩
      simp only [List.cons_append, List.nil_append, decodeFrom, hwidth, hfirst,
        isTail_byte (Nat.mod_lt _ (by decide : 0 < 64)),
        tailBits_byte (Nat.mod_lt _ (by decide : 0 < 64)), if_true]
      exact hcons _ _ (by omega)
    · split
      · next h1 h2 h3 =>
        -- Three bytes, with four bits and twice six.
        have hfirst := toNat_byte (n := 0xE0 + c.toNat / 4096) (by omega)
        have hwidth : width (UInt8.ofNat (0xE0 + c.toNat / 4096)) = 3 := by
          rw [width, hfirst]
          rw [if_neg (by omega), if_neg (by omega), if_neg (by omega), if_pos (by omega)]
        refine ⟨i + 3, ?_⟩
        simp only [List.cons_append, List.nil_append, decodeFrom, hwidth, hfirst,
          isSecond_of_three c (by omega) h3, Bool.not_true, Bool.false_eq_true, if_false,
          isTail_byte (Nat.mod_lt _ (by decide : 0 < 64)),
          tailBits_byte (Nat.mod_lt _ (by decide : 0 < 64)), if_true]
        exact hcons _ _ (by omega)
      · next h1 h2 h3 =>
        -- Four bytes, with three bits and three times six.
        have hfirst := toNat_byte (n := 0xF0 + c.toNat / 262144) (by omega)
        have hwidth : width (UInt8.ofNat (0xF0 + c.toNat / 262144)) = 4 := by
          rw [width, hfirst]
          rw [if_neg (by omega), if_neg (by omega), if_neg (by omega), if_neg (by omega),
            if_pos (by omega)]
        refine ⟨i + 4, ?_⟩
        simp only [List.cons_append, List.nil_append, decodeFrom, hwidth, hfirst,
          isSecond_of_four c (by omega), Bool.not_true, Bool.false_eq_true, if_false,
          isTail_byte (Nat.mod_lt _ (by decide : 0 < 64)),
          tailBits_byte (Nat.mod_lt _ (by decide : 0 < 64)), if_true]
        exact hcons _ _ (by omega)

/-- The bytes of several characters are read one after the other, from any position. -/
private theorem decodeFrom_encode (i : Nat) (cs : List Char) :
    decodeFrom i (encode cs) = .ok cs := by
  -- By induction on the characters.
  induction cs generalizing i with
  | nil => rfl
  | cons c rest ih =>
    obtain ⟨j, hj⟩ := decodeFrom_encodeChar i c (encode rest)
    have hcons : encode (c :: rest) = encodeChar c ++ encode rest := List.flatMap_cons
    rw [hcons, hj, ih]
    rfl

/-- The bytes of a text are read as the text. -/
theorem decode_encode (cs : List Char) : decode (encode cs) = .ok cs := decodeFrom_encode 0 cs

end Utf8

/-! ## Digits of numbers -/

/-- No number is written without a digit. -/
theorem decimal_ne_nil (n : Nat) : decimal n ≠ [] := Nat.toDigits_ne_nil

/-- What a number is written with are digits. -/
theorem isDigit_of_mem_decimal {n : Nat} {c : Char} (h : c ∈ decimal n) : c.isDigit = true :=
  Nat.isDigit_of_mem_toDigits (by decide) (by decide) h

/-- The text of a number has nothing but digits. -/
theorem allDigits_decimal (n : Nat) : allDigits (decimal n) = true :=
  List.all_eq_true.2 fun _ h => isDigit_of_mem_decimal h

/-- A positive number does not start with a zero. -/
private theorem head?_decimal_ne {n : Nat} (hpos : 0 < n) : (decimal n).head? ≠ some '0' := by
  -- By induction on the number, from its last digit to the first.
  induction n using Nat.strongRecOn with
  | ind n ih =>
    by_cases hten : n < 10
    · rw [decimal, Nat.toDigits_of_lt_base hten, List.head?_cons]
      intro hzero
      have := Nat.digitChar_eq_zero.1 (Option.some.inj hzero)
      omega
    · -- The first digit is that of the number without its last digit.
      have hrest : (decimal (n / 10)).head? ≠ some '0' := ih (n / 10) (by omega) (by omega)
      have hdigits : decimal n = decimal (n / 10) ++ [Nat.digitChar (n % 10)] :=
        Nat.toDigits_of_base_le (by decide) (Nat.le_of_not_lt hten)
      rw [hdigits, List.head?_append_of_ne_nil _ (decimal_ne_nil (n / 10))]
      exact hrest

/-- A number with more than one digit does not start with a zero. -/
theorem decimal_no_leading_zero (n : Nat) :
    ¬((decimal n).length ≠ 1 ∧ (decimal n).head? = some '0') := by
  rintro ⟨hlength, hhead⟩
  rcases Nat.eq_zero_or_pos n with rfl | hpos
  · exact hlength rfl
  · exact head?_decimal_ne hpos hhead

/-- The digits of a number have the value of the number. -/
theorem digitsValue_decimal (n : Nat) : digitsValue (decimal n) = n := by
  have hfold : digitsValue (decimal n) = Nat.ofDigitChars 10 (decimal n) 0 := by
    rw [digitsValue, Nat.ofDigitChars]
    congr 1
    funext value c
    rw [Nat.mul_comm]
    rfl
  rw [hfold]
  exact Nat.ofDigitChars_ten_toDigits

/-- The text of a number starts with a digit. -/
theorem exists_decimal_cons (n : Nat) :
    ∃ c rest, decimal n = c :: rest ∧ c.isDigit = true := by
  cases hd : decimal n with
  | nil => exact absurd hd (decimal_ne_nil n)
  | cons c rest =>
    have hmem : c ∈ decimal n := by
      rw [hd]
      exact List.mem_cons_self
    exact ⟨c, rest, rfl, isDigit_of_mem_decimal hmem⟩

/-- Digits in front count with the power of ten that those behind leave to them. -/
theorem digitsValue_append (front back : List Char) :
    digitsValue (front ++ back) = digitsValue front * 10 ^ back.length + digitsValue back := by
  -- By induction on the digits behind, from the last one on.
  induction back using List.reverseRecOn with
  | nil => simp
  | append_singleton back c ih =>
    rw [← List.append_assoc, digitsValue_concat, digitsValue_concat, ih, List.length_append,
      List.length_singleton, Nat.pow_succ]
    ring

/-- The value that is read digit by digit never falls. -/
theorem le_foldl_digitValue (digits : List Char) (n : Nat) :
    n ≤ digits.foldl (fun n c => n * 10 + digitValue c) n := by
  -- By induction on the digits, with any value to start from.
  induction digits generalizing n with
  | nil => exact Nat.le_refl n
  | cons d digits ih => exact Nat.le_trans (by omega) (ih (n * 10 + digitValue d))

/-- Zeros in front of a number do not change its value. -/
theorem digitsValue_zeroPadded (width : Nat) (cs : List Char) :
    digitsValue (zeroPadded width cs) = digitsValue cs := by
  have hzeros : ∀ n, digitsValue (List.replicate n '0') = 0 := by
    intro n
    induction n with
    | zero => rfl
    | succ n ih =>
      rw [List.replicate_succ', digitsValue_concat, ih]
      rfl
  rw [zeroPadded, digitsValue_append, hzeros, Nat.zero_mul, Nat.zero_add]

/-- Zeros in front are digits as well. -/
theorem allDigits_zeroPadded {width : Nat} {cs : List Char} (h : allDigits cs = true) :
    allDigits (zeroPadded width cs) = true := by
  rw [allDigits, zeroPadded, List.all_append, Bool.and_eq_true_iff]
  refine ⟨List.all_eq_true.2 fun c hc => ?_, h⟩
  rw [List.eq_of_mem_replicate hc]
  decide

/-- No visible ASCII character is white space. -/
theorem isBlank_of_visible {c : Char} (hlow : 33 ≤ c.toNat) (hhigh : c.toNat ≤ 126) :
    isBlank c = false := by
  rw [isBlank, ← Bool.not_eq_true, inRanges_eq_true_iff]
  simp only [blankRanges, List.mem_cons, List.not_mem_nil, or_false, exists_eq_or_imp,
    exists_eq_left]
  omega

/-- No digit is white space. -/
theorem isBlank_of_isDigit {c : Char} (h : c.isDigit = true) : isBlank c = false := by
  obtain ⟨hlow, hhigh⟩ := Char.isDigit_iff_toNat.1 h
  have hlow : 48 ≤ c.toNat := hlow
  have hhigh : c.toNat ≤ 57 := hhigh
  exact isBlank_of_visible (by omega) (by omega)

/-! ## White space at the ends -/

/-- What is left of a text when the white space at its ends is taken off: it has none at its own
ends. -/
structure Strips (text body : List Char) : Prop where
  around : ∃ front back, text = front ++ body ++ back ∧ allBlank front = true ∧
    allBlank back = true
  first : ∀ c ∈ body.head?, isBlank c = false
  last : ∀ c ∈ body.getLast?, isBlank c = false

/-- White space around a text makes no difference to what trimming leaves. -/
theorem trim_append {front body back : List Char} (hfront : allBlank front = true)
    (hback : allBlank back = true) : trim (front ++ body ++ back) = trim body := by
  have hdrop : ∀ {blank cs : List Char}, allBlank blank = true →
      (blank ++ cs).dropWhile isBlank = cs.dropWhile isBlank := fun h =>
    List.dropWhile_append_of_pos (List.all_eq_true.1 h)
  have hreverse : allBlank back.reverse = true := by rwa [allBlank, List.all_reverse]
  unfold trim
  rw [List.append_assoc, hdrop hfront, List.dropWhile_append]
  split
  · next hempty =>
    -- Nothing but white space is left, and all of it goes.
    rw [List.isEmpty_iff.1 hempty, List.dropWhile_eq_nil_iff.2 (List.all_eq_true.1 hback)]
  · rw [List.reverse_append, hdrop hreverse]

/-- Trimming takes off white space only, and all of it. -/
theorem strips_trim (text : List Char) : Strips text (trim text) := by
  have htrim : trim text = (text.dropWhile isBlank).rdropWhile isBlank := rfl
  refine ⟨⟨text.takeWhile isBlank, (text.dropWhile isBlank).rtakeWhile isBlank, ?_, ?_, ?_⟩,
    fun c hc => ?_, fun c hc => ?_⟩
  · -- The two ends that are taken off, and what is left between them.
    rw [htrim, List.append_assoc, List.rdropWhile_append_rtakeWhile,
      List.takeWhile_append_dropWhile]
  · exact List.all_takeWhile
  · exact List.all_eq_true.2 fun c hc => List.mem_rtakeWhile_imp hc
  · have hprefix : [c] <+: text.dropWhile isBlank :=
      (List.singleton_prefix_iff_head?_eq_some.2 hc).trans (List.rdropWhile_prefix isBlank _)
    have hfirst := List.head?_dropWhile_not isBlank text
    rwa [List.singleton_prefix_iff_head?_eq_some.1 hprefix] at hfirst
  · obtain ⟨hne, rfl⟩ := List.mem_getLast?_eq_getLast hc
    exact Bool.eq_false_iff.2 (List.rdropWhile_last_not isBlank _ hne)

/-- Trimming is told by what it leaves. -/
theorem trim_eq_iff {text body : List Char} : trim text = body ↔ Strips text body := by
  constructor
  · rintro rfl
    exact strips_trim text
  · rintro ⟨⟨front, back, rfl, hfront, hback⟩, hfirst, hlast⟩
    rw [trim_append hfront hback, trim_eq_self hfirst hlast]

/-- Where there is no white space, nothing is taken off. -/
theorem strips_self {text : List Char} (h : ∀ c ∈ text, isBlank c = false) : Strips text text where
  around := ⟨[], [], by rw [List.nil_append, List.append_nil], rfl, rfl⟩
  first c hc := h c (List.mem_of_mem_head? hc)
  last c hc := h c (List.mem_of_mem_getLast? hc)

end ChainEconomy.Text
