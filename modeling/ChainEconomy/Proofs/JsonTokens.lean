import ChainEconomy.Json.Document
import ChainEconomy.Proofs.TextRoundTrip

/-!
# Tokens of JSON that are read back

A string in quotation marks is read as the string, whatever its characters are, and a whole number
of at most 64 bits is read as the number, as long as the text behind it does not go on with a
number.

## Key results

- `readString_escape`, `readString_renderString`: strings
- `readNumber_renderInteger`: whole numbers
-/

namespace ChainEconomy.Json

open Text

/-! ## Strings -/

/-- A digit of sixteen is read as its value. -/
private theorem hexValue?_digit : ∀ n < 16, hexValue? (Hex.digit n) = some n := by decide

/-- A control character is written with two digits, behind two zeros. -/
private theorem codeUnit?_control {n : Nat} (h : n < 0x20) :
    codeUnit? '0' '0' (Hex.digit (n / 16)) (Hex.digit (n % 16)) = some n := by
  have hzero : hexValue? '0' = some 0 := by decide
  rw [codeUnit?, hzero, hexValue?_digit (n / 16) (by omega), hexValue?_digit (n % 16) (by omega)]
  simp only [Option.some.injEq]
  omega

/-- A backslash and a letter are read as what they stand for. -/
theorem readString_backslash {e c : Char} (hu : e ≠ 'u') (h : unescape? e = some c)
    (rest : List Char) :
    readString none ('\\' :: e :: rest) = consRead c (readString none rest) := by
  rw [readString.eq_def]
  simp only [Char.reduceEq, if_true, if_false, hu, h, behindHalf]

/-- An escaped character is read as the character. -/
theorem readString_escapeChar (c : Char) (rest : List Char) :
    readString none (escapeChar c ++ rest) = consRead c (readString none rest) := by
  unfold escapeChar
  -- Seven characters are written as a backslash and a letter.
  iterate 7
    split
    · next h => rw [h]; exact readString_backslash (by decide) rfl rest
  split
  · next h =>
    -- A control character is no half of a pair.
    have hunit := codeUnit?_control h
    have hlow : isLowSurrogate c.toNat = false := by simp [isLowSurrogate]; omega
    have hhigh : isHighSurrogate c.toNat = false := by simp [isHighSurrogate]; omega
    simp only [List.cons_append, List.nil_append]
    rw [readString.eq_def]
    simp only [hunit, hlow, hhigh, Char.reduceEq, if_true, if_false, Bool.false_eq_true, behindHalf,
      Char.ofNat_toNat]
  · next hquote hslash _ _ _ _ _ hcontrol =>
    rw [List.singleton_append, readString.eq_def]
    simp only [if_neg hquote, if_neg hslash, if_neg hcontrol, behindHalf]

/-- An escaped text in front of a quotation mark is read as the text. -/
theorem readString_escape (cs rest : List Char) :
    readString none (cs.flatMap escapeChar ++ '"' :: rest) = some (some cs, rest) := by
  -- By induction on the characters.
  induction cs with
  | nil => rw [List.flatMap_nil, List.nil_append, readString.eq_def]; rfl
  | cons c cs ih =>
    rw [List.flatMap_cons, List.append_assoc, readString_escapeChar, ih]
    rfl

/-- A string in quotation marks is read as the string. -/
theorem readString_renderString (s : String) (rest : List Char) :
    ∃ tail, renderString s ++ rest = '"' :: tail ∧
      readString none tail = some (some s.toList, rest) :=
  ⟨s.toList.flatMap escapeChar ++ '"' :: rest, by simp [renderString], readString_escape _ rest⟩

/-! ## Whole numbers -/

/-- The text does not go on with a number. -/
def EndsNumber (rest : List Char) : Prop :=
  ∀ c ∈ rest.head?, c.isDigit = false ∧ c ≠ '.' ∧ c ≠ 'e' ∧ c ≠ 'E'

/-- At the end of the text there is no more of a number. -/
theorem endsNumber_nil : EndsNumber [] := fun _ h => nomatch h

/-- A number ends in front of a character that is no part of one. -/
theorem endsNumber_cons {c : Char} (hdigit : c.isDigit = false) (hpoint : c ≠ '.')
    (hlower : c ≠ 'e') (hupper : c ≠ 'E') (rest : List Char) : EndsNumber (c :: rest) := by
  intro d hd
  cases Option.mem_some_iff.1 hd
  exact ⟨hdigit, hpoint, hlower, hupper⟩

/-- The digits of a number are those in front of what ends it. -/
theorem spanDigits_append {digits rest : List Char} (hdigits : ∀ c ∈ digits, c.isDigit = true)
    (hrest : EndsNumber rest) : spanDigits (digits ++ rest) = (digits, rest) := by
  have hstop : rest.takeWhile Char.isDigit = [] ∧ rest.dropWhile Char.isDigit = rest := by
    -- There is nothing, or something that is no digit.
    cases rest with
    | nil => exact ⟨rfl, rfl⟩
    | cons c rest =>
      have hc := (hrest c rfl).1
      simp [hc]
  rw [spanDigits, List.takeWhile_append_of_pos hdigits, List.dropWhile_append_of_pos hdigits,
    hstop.1, hstop.2, List.append_nil]

/-- Collecting digits goes as far as their value fits. -/
theorem collectWhole_eq {start : Nat} {digits : List Char}
    (h : digits.foldl (fun n c => n * 10 + digitValue c) start ≤ maxWord) :
    collectWhole start digits = (digits.foldl (fun n c => n * 10 + digitValue c) start, 0) := by
  -- By induction on the digits, with any value to start from.
  induction digits generalizing start with
  | nil => rfl
  | cons d ds ih =>
    rw [List.foldl_cons] at h ⊢
    -- The value never falls, so that it fits after each digit if it does after the last one.
    rw [collectWhole, if_pos (Nat.le_trans (le_foldl_digitValue ds _) h)]
    exact ih h

/-- The digits of a number that fits are all collected, and make up the number. -/
theorem collectWhole_decimal {n : Nat} (h : n ≤ maxWord) : collectWhole 0 (decimal n) = (n, 0) := by
  have hvalue := digitsValue_decimal n
  rw [digitsValue] at hvalue
  rw [collectWhole_eq (by rw [hvalue]; exact h), hvalue]

/-- The digits of a number are read as a literal that is nothing but these digits. -/
theorem readUnsigned_decimal (negative : Bool) (n : Nat) {rest : List Char}
    (hrest : EndsNumber rest) :
    readUnsigned negative (decimal n ++ rest) = some (⟨negative, decimal n, none, none⟩, rest) := by
  -- Behind the digits there is neither a fraction nor an exponent.
  have hfraction : readFraction rest = some (none, rest) := by
    cases rest with
    | nil => rfl
    | cons c rest => rw [readFraction, if_neg (hrest c rfl).2.1]
  have hexponent : readExponent rest = some (none, rest) := by
    cases rest with
    | nil => rfl
    | cons c rest =>
      obtain ⟨-, -, hlower, hupper⟩ := hrest c rfl
      rw [readExponent.eq_def]
      simp only [hlower, hupper, or_self, if_false]
  rw [readUnsigned, spanDigits_append (fun _ h => isDigit_of_mem_decimal h) hrest]
  split
  · next heq => exact absurd (Prod.mk.inj heq).1 (decimal_ne_nil n)
  · next whole tail _ heq =>
    obtain ⟨rfl, rfl⟩ := Prod.mk.inj heq
    rw [if_neg (decimal_no_leading_zero n), hfraction]
    simp only [hexponent]

/-- A whole number of at most 64 bits is read as it was written. -/
theorem readNumber_renderInteger {n : Int} (hlow : -(2 ^ 63 : Int) ≤ n) (hhigh : n ≤ maxWord)
    {rest : List Char} (hrest : EndsNumber rest) :
    readNumber (renderInteger n ++ rest) = some (.integer n, rest) := by
  cases n with
  | ofNat n =>
    have hvalue : collectWhole 0 (decimal n) = (n, 0) := collectWhole_decimal (Int.ofNat_le.1 hhigh)
    have hread := readUnsigned_decimal false n hrest
    -- A sign would be read as one, but no digit is a sign.
    have hminus : ∀ tail, decimal n ++ rest ≠ '-' :: tail := fun tail heq => by
      obtain ⟨d, ds, hd, hdigit⟩ := exists_decimal_cons n
      rw [hd, List.cons_append] at heq
      rw [(List.cons.inj heq).1] at hdigit
      exact absurd hdigit (by decide)
    rw [renderInteger, readNumber.eq_def]
    split
    · next tail heq => exact absurd heq (hminus tail)
    · rw [hread]
      simp only [Literal.value, hvalue, Bool.not_false, if_true, Option.getD_some]
      -- Of the two bounds, the upper one is what keeps the number whole.
      rfl
  | negSucc n =>
    have hbound : n + 1 ≤ 2 ^ 63 := by omega
    -- The magnitude of a negative number is a word as well.
    have hvalue : collectWhole 0 (decimal (n + 1)) = (n + 1, 0) :=
      collectWhole_decimal (Nat.le_trans hbound (by decide))
    have hread := readUnsigned_decimal true (n + 1) hrest
    rw [renderInteger, List.cons_append, readNumber]
    simp only [hread, Literal.value, hvalue, Bool.not_true, Bool.false_eq_true, if_false]
    rw [if_pos ⟨Nat.succ_pos n, hbound⟩, Option.getD_some]
    rfl

/-- The text of a whole number starts with a digit or a sign. -/
theorem exists_renderInteger_cons (n : Int) :
    ∃ c rest, renderInteger n = c :: rest ∧ (c.isDigit = true ∨ c = '-') := by
  cases n with
  | ofNat n =>
    obtain ⟨c, rest, hc, hdigit⟩ := exists_decimal_cons n
    exact ⟨c, rest, hc, .inl hdigit⟩
  | negSucc n => exact ⟨'-', decimal (n + 1), rfl, .inr rfl⟩

end ChainEconomy.Json

