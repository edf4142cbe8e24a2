import ChainEconomy.Fixed
import ChainEconomy.Proofs.TextRoundTrip

/-!
# Fixed-point numbers as text

A text is read as a number if it consists of digits, with white space around them, and perhaps of a
point and some more digits. Writing fills the places up with zeros in front, reading fills them up
with zeros behind; since all 18 places are written, nothing is left to be filled up when they are
read again.

The first point ends the whole part. No digit is a point, so that the parts of a text that can be
read are the only ones that it has.

## Key results

- `Spelled`: the texts that stand for a number, with the digits of its parts
- `parse_of_spelled`, `exists_spelled_of_parse`: what is read from them, and that nothing else is
- `parse_renderChars`: the text of a number is read as the number
- `decimal_texts_exact`: all of it
-/

namespace ChainEconomy.Fixed

open Text

/-- A text that stands for a number when the white space around it is taken off: one or more digits,
then perhaps a point and at most 18 more digits. -/
structure Spelled (text whole fraction : List Char) : Prop where
  body : Strips text whole ∧ fraction = [] ∨ Strips text (whole ++ '.' :: fraction)
  whole_ne_nil : whole ≠ []
  whole_digits : allDigits whole = true
  fraction_digits : allDigits fraction = true
  fraction_length : fraction.length ≤ 18

/-- The atomic units of a whole part and a fraction, the fraction with zeros behind it up to 18
places. -/
def atomicsOf (whole fraction : List Char) : Nat :=
  digitsValue whole * 10 ^ 18 + digitsValue (fraction ++ List.replicate (18 - fraction.length) '0')

/-! ## Reading -/

/-- There is no point among digits. -/
theorem point_notMem {digits : List Char} (h : allDigits digits = true) : '.' ∉ digits :=
  fun hpoint => absurd (List.all_eq_true.1 h '.' hpoint) (by decide)

/-- A text is cut at its first point, which comes right after the digits, or not at all. -/
theorem parts_eq_iff {text whole fraction : List Char} (h : allDigits whole = true) :
    (splitOnce? '.' text).getD (text, []) = (whole, fraction) ↔
      text = whole ∧ fraction = [] ∨ text = whole ++ '.' :: fraction := by
  constructor
  · -- However the text is cut, its parts make it up again.
    cases hsplit : splitOnce? '.' text with
    | none =>
      rintro ⟨⟩
      exact .inl ⟨rfl, rfl⟩
    | some parts =>
      rintro rfl
      exact .inr (splitOnce?_eq_some_iff.1 hsplit).1
  · -- The digits hold no point, so that the text is cut behind them.
    rintro (⟨rfl, rfl⟩ | rfl)
    · rw [splitOnce?_eq_none_iff.2 (point_notMem h)]
      rfl
    · rw [splitOnce?_append_cons (point_notMem h)]
      rfl

/-- The digits of both parts, filled up, have the value of the one part and of the other. -/
theorem digitsValue_padded {whole fraction : List Char} (h : fraction.length ≤ 18) :
    digitsValue (whole ++ fraction ++ List.replicate (places - fraction.length) '0') =
      atomicsOf whole fraction := by
  have hlength : (fraction ++ List.replicate (18 - fraction.length) '0').length = 18 := by
    rw [List.length_append, List.length_replicate]
    omega
  rw [atomicsOf, List.append_assoc, digitsValue_append, places, hlength]

namespace Spelled

variable {text whole fraction : List Char}

/-- The parts that a text is cut into are those that it is spelled with. -/
theorem parts (h : Spelled text whole fraction) :
    (splitOnce? '.' (trim text)).getD (trim text, []) = (whole, fraction) := by
  rw [parts_eq_iff h.whole_digits, trim_eq_iff, trim_eq_iff]
  exact h.body

/-- What is spelled starts with a digit, and not with a sign. -/
theorem head?_ne_minus (h : Spelled text whole fraction) : (trim text).head? ≠ some '-' := by
  -- There is a first digit, and no white space is in front of it.
  obtain ⟨c, rest, rfl⟩ := List.exists_cons_of_ne_nil h.whole_ne_nil
  have hfirst : (trim text).head? = some c := by
    rcases h.body with ⟨hbody, -⟩ | hbody
    · rw [trim_eq_iff.2 hbody, List.head?_cons]
    · rw [trim_eq_iff.2 hbody, List.cons_append, List.head?_cons]
  rw [hfirst]
  rintro ⟨⟩
  exact absurd (List.all_eq_true.1 h.whole_digits '-' List.mem_cons_self) (by decide)

end Spelled

/-- A text that is spelled as a number is read as the number that its digits give. -/
theorem parse_of_spelled {text whole fraction : List Char} (h : Spelled text whole fraction) :
    parse text = .ok ⟨atomicsOf whole fraction⟩ := by
  have hshort : ¬places < fraction.length := Nat.not_lt.2 h.fraction_length
  unfold parse
  dsimp only
  -- With the parts known, only the checks of their digits are left.
  rw [if_neg h.head?_ne_minus, h.parts]
  simp only [List.isEmpty_eq_false_iff.2 h.whole_ne_nil, h.whole_digits, h.fraction_digits,
    Bool.not_true, Bool.or_self, Bool.false_eq_true, if_false, hshort,
    digitsValue_padded h.fraction_length]

/-- Only what is spelled as a number is read as one. -/
theorem exists_spelled_of_parse {text : List Char} {a : Fixed} (h : parse text = .ok a) :
    ∃ whole fraction, Spelled text whole fraction := by
  obtain ⟨whole, fraction, hparts⟩ : ∃ whole fraction,
      (splitOnce? '.' (trim text)).getD (trim text, []) = (whole, fraction) := ⟨_, _, rfl⟩
  -- The parts are named before `parse` is opened, so that each check speaks of them.
  unfold parse at h
  dsimp only at h
  rw [hparts] at h
  dsimp only at h
  split at h
  · cases h
  · split at h
    · cases h
    · next hdigits =>
      simp only [Bool.or_eq_true, Bool.not_eq_true', not_or, Bool.not_eq_false,
        List.isEmpty_iff] at hdigits
      obtain ⟨⟨hne, hwhole⟩, hfraction⟩ := hdigits
      split at h
      · cases h
      · next hshort =>
        have hbody := (parts_eq_iff hwhole).1 hparts
        rw [trim_eq_iff, trim_eq_iff] at hbody
        exact ⟨whole, fraction, hbody, hne, hwhole, hfraction, Nat.le_of_not_lt hshort⟩

/-! ## Writing -/

/-- What is below one has no more than 18 digits. -/
theorem length_written_places (a : Fixed) :
    (zeroPadded places (decimal a.fract.atomics)).length = 18 := by
  have hlt : a.fract.atomics < 10 ^ 18 := Nat.mod_lt a.atomics (by decide : 0 < unit)
  have hle : (decimal a.fract.atomics).length ≤ places :=
    (Nat.length_toDigits_le_iff (by decide) (by decide)).2 hlt
  rw [length_zeroPadded, Nat.max_eq_left hle, places]

/-- The text of a number spells its whole part and its fraction. -/
theorem spelled_renderChars (a : Fixed) :
    Spelled a.renderChars (decimal a.floor) (zeroPadded places (decimal a.fract.atomics)) := by
  -- Padding adds digits only.
  have hfraction : allDigits (zeroPadded places (decimal a.fract.atomics)) = true :=
    allDigits_zeroPadded (allDigits_decimal _)
  refine ⟨.inr (strips_self fun c hc => ?_), decimal_ne_nil _, allDigits_decimal _, hfraction,
    (length_written_places a).le⟩
  -- There are digits and a point, and no white space.
  rcases List.mem_append.1 hc with hc | hc
  · exact isBlank_of_isDigit (isDigit_of_mem_decimal hc)
  · rcases List.mem_cons.1 hc with rfl | hc
    · decide
    · exact isBlank_of_isDigit (List.all_eq_true.1 hfraction c hc)

/-- All places are written, so that reading adds none. -/
theorem atomicsOf_written (a : Fixed) :
    atomicsOf (decimal a.floor) (zeroPadded places (decimal a.fract.atomics)) = a.atomics := by
  rw [atomicsOf, length_written_places, Nat.sub_self, List.replicate_zero, List.append_nil,
    digitsValue_zeroPadded, digitsValue_decimal, digitsValue_decimal]
  exact floor_fract a

/-- The text of a number is read as the number. -/
theorem parse_renderChars (a : Fixed) : parse a.renderChars = .ok a := by
  rw [parse_of_spelled (spelled_renderChars a), atomicsOf_written]

/-- The text of a number, as a string, is read as the number. -/
theorem parse_toList_render (a : Fixed) : parse a.render.toList = .ok a := by
  rw [render, String.toList_ofList, parse_renderChars]

/-- The text of a number is read as the number. A text is read exactly if it consists, apart from
the white space around it, of one or more digits and perhaps a point with at most 18 digits behind
it; it is then read as the whole part together with the fraction, which counts with zeros behind it
up to 18 places. -/
theorem decimal_texts_exact (a : Fixed) (text : String) :
    parse a.render.toList = .ok a ∧
      ((∃ b, parse text.toList = .ok b) ↔ ∃ whole fraction, Spelled text.toList whole fraction) ∧
      ∀ whole fraction, Spelled text.toList whole fraction →
        parse text.toList = .ok ⟨digitsValue whole * 10 ^ 18 +
          digitsValue (fraction ++ List.replicate (18 - fraction.length) '0')⟩ :=
  ⟨parse_toList_render a,
    ⟨fun ⟨_, h⟩ => exists_spelled_of_parse h, fun ⟨_, _, h⟩ => ⟨_, parse_of_spelled h⟩⟩,
    fun _ _ h => parse_of_spelled h⟩

/-- One place of the fraction is a zero in front, and sixteen zeros behind it are missing. Nothing
need stand behind a point. -/
theorem decimal_texts_exact_sample :
    Spelled "\t007.05\n".toList "007".toList "05".toList ∧
      parse "\t007.05\n".toList = .ok ⟨7050000000000000000⟩ ∧
      Spelled "\t007.\n".toList "007".toList [] ∧
      parse "\t007.\n".toList = .ok ⟨7000000000000000000⟩ := by
  have hplaces : Spelled "\t007.05\n".toList "007".toList "05".toList :=
    ⟨.inr (trim_eq_iff.1 (by decide)), by decide, by decide, by decide, by decide⟩
  have hpoint : Spelled "\t007.\n".toList "007".toList [] :=
    ⟨.inr (trim_eq_iff.1 (by decide)), by decide, by decide, by decide, by decide⟩
  exact ⟨hplaces, (decimal_texts_exact zero _).2.2 _ _ hplaces, hpoint,
    (decimal_texts_exact zero _).2.2 _ _ hpoint⟩

end ChainEconomy.Fixed
