import ChainEconomy.CoinSet.Text
import ChainEconomy.Proofs.CoinSetAlgebra
import ChainEconomy.Proofs.TextRoundTrip

/-!
# Coin sets as text

The text of a set of coins is read as the set. All characters in the text of a coin lie between `-`
and `z`, so that there is neither white space nor a comma among them: nothing is trimmed, and the
commas are those between the coins.

A text that is read as a coin consists of digits and a denomination. The digits of an amount end
where the denomination begins, since that begins with a letter; a text has therefore no two such
parts to choose from, although a denomination may hold digits as well.

## Key results

- `Denom.isDenomChars_iff`: the form of a denomination
- `Coin.parse_of_spelled`, `Coin.exists_spelled_of_parse`: the texts that are read as a coin
- `Coin.parse_renderChars`, `CoinSet.parse_renderChars`: the text of a coin, and of a set
- `CoinSet.coin_texts_exact`: which texts are read, and as what
-/

namespace ChainEconomy

/-! ## Characters of coins -/

/-- A character between `-` and `z`. The comma comes directly in front of them. -/
def isCoinChar (c : Char) : Bool := Nat.ble 45 c.toNat && Nat.ble c.toNat 122

/-- The characters of coins are a range of code points. -/
theorem isCoinChar_iff {c : Char} : isCoinChar c = true ↔ 45 ≤ c.toNat ∧ c.toNat ≤ 122 := by
  simp [isCoinChar]

/-- Digits are characters of coins. -/
theorem isCoinChar_of_isDigit {c : Char} (h : c.isDigit = true) : isCoinChar c = true := by
  obtain ⟨hlow, hhigh⟩ := Char.isDigit_iff_toNat.1 h
  have hlow : 48 ≤ c.toNat := hlow
  have hhigh : c.toNat ≤ 57 := hhigh
  rw [isCoinChar_iff]
  omega

/-- Letters are characters of coins. -/
theorem isCoinChar_of_isAlpha {c : Char} (h : c.isAlpha = true) : isCoinChar c = true := by
  -- Letters are two ranges of code points, both of which lie between `-` and `z`.
  have hletter : (decide ('A'.val ≤ c.val ∧ c.val ≤ 'Z'.val) ||
      (decide ('a'.val ≤ c.val) && decide (c.val ≤ 'z'.val))) = true := h
  simp only [Bool.or_eq_true, Bool.and_eq_true, decide_eq_true_eq, UInt32.le_iff_toNat_le]
    at hletter
  rw [isCoinChar_iff]
  simp at hletter ⊢
  omega

/-- The characters behind the first one of a denomination are characters of coins. -/
theorem isCoinChar_of_isTail {c : Char} (h : Denom.isTail c = true) : isCoinChar c = true := by
  simp only [Denom.isTail, Char.isAlphanum, Bool.or_eq_true, decide_eq_true_eq] at h
  -- A letter, a digit or one of the five marks; the marks are looked at one by one.
  obtain (((((halpha | hdigit) | rfl) | rfl) | rfl) | rfl) | rfl := h
  · exact isCoinChar_of_isAlpha halpha
  · exact isCoinChar_of_isDigit hdigit
  all_goals decide

/-- White space lies outside the range. -/
theorem isBlank_of_isCoinChar {c : Char} (h : isCoinChar c = true) : Text.isBlank c = false := by
  obtain ⟨hlow, hhigh⟩ := isCoinChar_iff.1 h
  exact Text.isBlank_of_visible (by omega) (by omega)

/-! ## Denominations -/

namespace Denom

/-- A denomination has characters of coins only. -/
theorem isCoinChar_of_mem {cs : List Char} (h : isDenomChars cs = true) {x : Char} (hx : x ∈ cs) :
    isCoinChar x = true := by
  cases cs with
  | nil => cases hx
  | cons first rest =>
    simp only [isDenomChars, Bool.and_eq_true] at h
    obtain ⟨⟨⟨hfirst, hrest⟩, -⟩, -⟩ := h
    obtain rfl | hx := List.mem_cons.1 hx
    · exact isCoinChar_of_isAlpha hfirst
    · exact isCoinChar_of_isTail (List.all_eq_true.1 hrest x hx)

/-- One of `a` to `z` and `A` to `Z`. -/
def IsLetter (c : Char) : Prop := ('a' ≤ c ∧ c ≤ 'z') ∨ ('A' ≤ c ∧ c ≤ 'Z')

/-- The texts `[a-zA-Z][a-zA-Z0-9/:._-]{2,127}`. -/
inductive Spelled : List Char → Prop
  | intro {first : Char} {rest : List Char} (letter : IsLetter first)
      (others : ∀ c ∈ rest, IsLetter c ∨ ('0' ≤ c ∧ c ≤ '9') ∨ c ∈ ['/', ':', '.', '_', '-'])
      (at_least : 2 ≤ rest.length) (at_most : rest.length ≤ 127) : Spelled (first :: rest)

/-- The letters of the language are those of ASCII. -/
theorem isAlpha_iff {c : Char} : c.isAlpha = true ↔ IsLetter c := by
  simp only [Char.isAlpha, Char.isUpper, Char.isLower, IsLetter, Char.le_def, Bool.or_eq_true,
    Bool.and_eq_true, decide_eq_true_eq]
  exact Or.comm

/-- The digits of the language are those of ASCII. -/
theorem isDigit_iff {c : Char} : c.isDigit = true ↔ '0' ≤ c ∧ c ≤ '9' := by
  simp only [Char.isDigit, Char.le_def, Bool.and_eq_true, decide_eq_true_eq]

/-- Behind the first character of a denomination stand letters, digits and five marks. -/
theorem isTail_iff {c : Char} :
    isTail c = true ↔ IsLetter c ∨ ('0' ≤ c ∧ c ≤ '9') ∨ c ∈ ['/', ':', '.', '_', '-'] := by
  simp only [isTail, Char.isAlphanum, Bool.or_eq_true, decide_eq_true_eq, isAlpha_iff, isDigit_iff,
    List.mem_cons, List.not_mem_nil, or_false, or_assoc]

/-- Denominations are checked for exactly this form. -/
theorem isDenomChars_iff {cs : List Char} : isDenomChars cs = true ↔ Spelled cs := by
  cases cs with
  | nil => exact ⟨nofun, nofun⟩
  | cons first rest =>
    simp only [isDenomChars, Bool.and_eq_true, List.all_eq_true, Nat.ble_eq, isAlpha_iff,
      isTail_iff]
    -- The length is counted behind the first character in both.
    constructor
    · rintro ⟨⟨⟨hfirst, hrest⟩, hshort⟩, hlong⟩
      exact ⟨hfirst, hrest, hshort, hlong⟩
    · rintro ⟨hfirst, hrest, hshort, hlong⟩
      exact ⟨⟨⟨hfirst, hrest⟩, hshort⟩, hlong⟩

end Denom

/-! ## One coin -/

namespace Coin

open Text

/-- A text that stands for a coin when the white space around it is taken off: one or more digits,
and a denomination. -/
structure Spelled (text digits denom : List Char) : Prop where
  body : Strips text (digits ++ denom)
  digits_ne_nil : digits ≠ []
  digits_all : allDigits digits = true
  denom_spelled : Denom.Spelled denom

namespace Spelled

variable {text digits denom : List Char}

/-- A denomination that is spelled as one passes its check. -/
theorem isDenomChars (h : Spelled text digits denom) : Denom.isDenomChars denom = true :=
  Denom.isDenomChars_iff.2 h.denom_spelled

/-- The digits end where the denomination begins. -/
theorem parts (h : Spelled text digits denom) :
    (trim text).takeWhile Char.isDigit = digits ∧ (trim text).dropWhile Char.isDigit = denom := by
  have hdigits := List.all_eq_true.1 h.digits_all
  rw [trim_eq_iff.2 h.body, List.takeWhile_append_of_pos hdigits,
    List.dropWhile_append_of_pos hdigits]
  -- A denomination begins with a letter, which stops the search for digits.
  cases h.denom_spelled with
  | @intro first rest letter =>
    have hfirst : ¬first.isDigit = true := by simp [Denom.head_not_digit h.isDenomChars]
    rw [List.takeWhile_cons_of_neg hfirst, List.dropWhile_cons_of_neg hfirst, List.append_nil]
    exact ⟨rfl, rfl⟩

end Spelled

/-- A text that is spelled as a coin is read as the coin. -/
theorem parse_of_spelled {text digits denom : List Char} (h : Spelled text digits denom) :
    parse text = .ok ⟨String.ofList denom, digitsValue digits⟩ := by
  have hdenom : Denom.isDenom (String.ofList denom) = true := by
    rw [Denom.isDenom, String.toList_ofList, h.isDenomChars]
  -- A denomination has at least three characters.
  have hne : denom ≠ [] := by
    rintro rfl
    cases h.denom_spelled
  unfold parse
  dsimp only
  rw [h.parts.1, h.parts.2, List.isEmpty_eq_false_iff.2 h.digits_ne_nil,
    List.isEmpty_eq_false_iff.2 hne]
  exact ofParts_eq_ok_iff.2 ⟨hdenom, rfl⟩

/-- Only what is spelled as a coin is read as one. -/
theorem exists_spelled_of_parse {text : List Char} {c : Coin} (h : parse text = .ok c) :
    ∃ digits denom, Spelled text digits denom := by
  unfold parse at h
  dsimp only at h
  split at h
  · cases h
  · next hparts =>
    -- The denomination has been checked, and the digits are digits because they were taken as such.
    simp only [Bool.or_eq_true, not_or, List.isEmpty_iff] at hparts
    obtain ⟨hdenom, -⟩ := ofParts_eq_ok_iff.1 h
    rw [Denom.isDenom, String.toList_ofList, Denom.isDenomChars_iff] at hdenom
    refine ⟨_, _, ?_, hparts.1, List.all_takeWhile, hdenom⟩
    rw [List.takeWhile_append_dropWhile, ← trim_eq_iff]

/-- The text of a coin has characters of coins only. -/
theorem isCoinChar_of_mem {c : Coin} (h : Denom.isDenom c.denom = true) {x : Char}
    (hx : x ∈ c.renderChars) : isCoinChar x = true := by
  obtain hx | hx := List.mem_append.1 hx
  · exact isCoinChar_of_isDigit (isDigit_of_mem_decimal hx)
  · exact Denom.isCoinChar_of_mem h hx

/-- A coin is written as one: its digits, and its denomination right behind them. -/
theorem spelled_renderChars {c : Coin} (h : Denom.isDenom c.denom = true) :
    Spelled c.renderChars (decimal c.amount) c.denom.toList where
  body := strips_self fun _ hx => isBlank_of_isCoinChar (isCoinChar_of_mem h hx)
  digits_ne_nil := decimal_ne_nil c.amount
  digits_all := allDigits_decimal c.amount
  denom_spelled := Denom.isDenomChars_iff.1 h

/-- The text of a coin is read as the coin. -/
theorem parse_renderChars {c : Coin} (h : Denom.isDenom c.denom = true) :
    parse c.renderChars = .ok c := by
  rw [parse_of_spelled (spelled_renderChars h), String.ofList_toList, digitsValue_decimal]

end Coin

/-! ## Sets of coins -/

namespace CoinSet

/-- The texts of coins are read as the coins, one by one. -/
theorem parseCoins_map_renderChars {coins : List Coin}
    (h : ∀ c ∈ coins, Denom.isDenom c.denom = true) :
    parseCoins (coins.map Coin.renderChars) = .ok coins := by
  induction coins with
  | nil => rfl
  | cons c rest ih =>
    obtain ⟨hc, hrest⟩ := List.forall_mem_cons.1 h
    rw [List.map_cons, parseCoins, Coin.parse_renderChars hc, ih hrest]

/-- The text of a coin in front of others starts with its amount. -/
private theorem exists_join_cons (sep : Char) (c : Coin) (parts : List (List Char)) :
    ∃ d rest, Text.join sep (c.renderChars :: parts) = d :: rest ∧ d.isDigit = true := by
  obtain ⟨d, digits, hdecimal, hd⟩ := Text.exists_decimal_cons c.amount
  -- Where only one coin is left there is no comma behind it.
  cases parts with
  | nil =>
    exact ⟨d, digits ++ c.denom.toList, by rw [Text.join, Coin.renderChars, hdecimal]; rfl, hd⟩
  | cons next parts =>
    refine ⟨d, digits ++ c.denom.toList ++ sep :: Text.join sep (next :: parts), ?_, hd⟩
    rw [Text.join, Coin.renderChars, hdecimal]
    · rfl
    · simp

/-- The coins of a set have proper denominations. -/
theorem denom_of_mem_toCoins {s : CoinSet} {c : Coin} (h : c ∈ s.toCoins) :
    Denom.isDenom c.denom = true := by
  obtain ⟨e, he, rfl⟩ := List.mem_map.1 h
  exact (s.proper e he).1

/-- The text of a set is read as the set. -/
theorem parse_renderChars (s : CoinSet) : parse s.renderChars = .ok s := by
  have hset := ofCoins_toCoins s
  have hdenoms : ∀ c ∈ s.toCoins, Denom.isDenom c.denom = true := fun _ h =>
    denom_of_mem_toCoins h
  unfold parse renderChars
  cases hcoins : s.toCoins with
  | nil =>
    -- The text of the empty set is empty, and not split at all.
    rw [hcoins] at hset
    exact hset
  | cons c rest =>
    rw [← hcoins]
    -- The text begins with a digit, and so is not blank.
    have hblank : Text.allBlank (Text.join ',' (s.toCoins.map Coin.renderChars)) = false := by
      obtain ⟨d, text, htext, hd⟩ := exists_join_cons ',' c (rest.map Coin.renderChars)
      rw [hcoins, List.map_cons, htext, Text.allBlank, List.all_cons, Text.isBlank_of_isDigit hd,
        Bool.false_and]
    have hcommas : ∀ part ∈ s.toCoins.map Coin.renderChars, ',' ∉ part := by
      intro part hpart hcomma
      obtain ⟨coin, hcoin, rfl⟩ := List.mem_map.1 hpart
      -- The comma is no character of a coin.
      exact absurd (Coin.isCoinChar_of_mem (hdenoms coin hcoin) hcomma) (by decide)
    have hparts : s.toCoins.map Coin.renderChars ≠ [] := by simp [hcoins]
    rw [if_neg (by simp [hblank]), Text.split_join hparts hcommas,
      parseCoins_map_renderChars hdenoms]
    exact hset

/-- The string of a set is read as the set. -/
theorem parse_toList_render (s : CoinSet) : parse s.render.toList = .ok s := by
  rw [render, String.toList_ofList, parse_renderChars]

/-- The text of a set is read as the set. A text is read as a coin exactly if it consists, apart
from the white space around it, of one or more digits and a denomination; these are the amount and
the denomination of the coin. -/
theorem coin_texts_exact (s : CoinSet) (text : String) :
    parse s.render.toList = .ok s ∧
      ((∃ c, Coin.parse text.toList = .ok c) ↔
        ∃ digits denom, Coin.Spelled text.toList digits denom) ∧
      ∀ digits denom, Coin.Spelled text.toList digits denom →
        Coin.parse text.toList = .ok ⟨String.ofList denom, Text.digitsValue digits⟩ :=
  ⟨parse_toList_render s,
    ⟨fun ⟨_, h⟩ => Coin.exists_spelled_of_parse h, fun ⟨_, _, h⟩ => ⟨_, Coin.parse_of_spelled h⟩⟩,
    fun _ _ h => Coin.parse_of_spelled h⟩

/-- The amount has zeros in front, the denomination has a digit and two marks, and there is white
space of several kinds at both ends. -/
theorem coin_texts_exact_sample :
    Coin.Spelled "\u3000\t0070ibc/7.x \n".toList "0070".toList "ibc/7.x".toList ∧
      Coin.parse "\u3000\t0070ibc/7.x \n".toList = .ok ⟨"ibc/7.x", 70⟩ ∧
      parse ((empty.put "utoll" 9).put "ibc/7.x" 70).render.toList =
        .ok ((empty.put "utoll" 9).put "ibc/7.x" 70) := by
  -- The form of this text is checked by looking at its characters.
  have hspelled : Coin.Spelled "\u3000\t0070ibc/7.x \n".toList "0070".toList "ibc/7.x".toList :=
    ⟨Text.trim_eq_iff.1 (by decide), by decide, by decide, Denom.isDenomChars_iff.1 (by decide)⟩
  obtain ⟨hset, -, hcoin⟩ := coin_texts_exact ((empty.put "utoll" 9).put "ibc/7.x" 70)
    "\u3000\t0070ibc/7.x \n"
  exact ⟨hspelled, hcoin _ _ hspelled, hset⟩

end CoinSet

end ChainEconomy
