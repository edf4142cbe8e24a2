import ChainEconomy.Governance.ParamChange
import ChainEconomy.Proofs.AttemptRules
import ChainEconomy.Proofs.CoinSetAlgebra
import ChainEconomy.Proofs.RecordRoundTrip

/-!
# Parameters that are read back

The text of a rate keeps its digits and its scale, and the text of a set of coins keeps its amounts,
so that parameters which are written as JSON are read as they were. The only thing that is lost is a
minus sign in front of zero, which a rate may have and a text may show, but no text of plain digits
is read as.

## Key results

- `Rate.unsigned`, `Rate.isMinusZero`: a rate as it is read back, and the one that is not read back
- `Rate.parse?_renderChars`, `CoinSet.ofJson_toJson`: rates and sets of coins
- `Fee.Params.ofJson_toJson`, `Mint.Params.ofJson_toJson`: parameters
- `Governance.loadFee_of_find?`, `Governance.loadMint_of_find?`: parameters in a store
-/

namespace ChainEconomy

/-! ## Rates -/

namespace Rate

open Text

/-- The rate without a minus sign in front of zero. -/
def unsigned (r : Rate) : Rate := { r with negative := r.negative && Nat.blt 0 r.mantissa }

/-- Digits are read one by one as long as neither their value nor their scale passes its limit. -/
theorem readFrom_append {digits : List Char} (hdigits : allDigits digits = true) {p : Progress}
    (hvalue : digits.foldl (fun n c => n * 10 + digitValue c) p.mantissa < Nat.pow 2 96)
    (hscale : p.afterPoint = true → p.scale + digits.length ≤ 28) (rest : List Char) :
    readFrom p (digits ++ rest) =
      readFrom ⟨digits.foldl (fun n c => n * 10 + digitValue c) p.mantissa,
        if p.afterPoint then p.scale + digits.length else p.scale, p.afterPoint,
        p.anyDigit || !digits.isEmpty⟩ rest := by
  -- By induction on the digits, with any progress to start from.
  induction digits generalizing p with
  | nil => cases p; simp
  | cons c digits ih =>
    obtain ⟨hc, hdigits⟩ := Bool.and_eq_true_iff.1 hdigits
    rw [List.foldl_cons] at hvalue
    -- The value never falls, so that it fits after each digit if it does after the last one.
    have hfits : ¬Nat.pow 2 96 ≤ p.mantissa * 10 + digitValue c :=
      Nat.not_le.2 (Nat.lt_of_le_of_lt (le_foldl_digitValue digits _) hvalue)
    rw [List.cons_append, readFrom, if_pos hc]
    obtain ⟨mantissa, scale, afterPoint, anyDigit⟩ := p
    cases afterPoint with
    | false =>
      simp only [Nat.ble_eq, hfits, Bool.false_and, Bool.false_eq_true, if_false]
      rw [ih hdigits hvalue (by simp)]
      simp
    | true =>
      have hplace : scale + (digits.length + 1) ≤ 28 := hscale rfl
      have hroom : ¬scale = 28 := by omega
      simp only [Nat.ble_eq, hfits, hroom, decide_false, Bool.true_and, Bool.false_or, if_false,
        if_true]
      rw [ih hdigits hvalue (fun _ => by dsimp only; omega)]
      simp [Nat.add_assoc, Nat.add_comm 1]

/-- The digits of a rate, with a point if there are places behind it, have its mantissa as their
value. -/
private theorem renderChars_parts (r : Rate) :
    ∃ whole fraction, allDigits whole = true ∧ allDigits fraction = true ∧ whole ≠ [] ∧
      fraction.length = r.scale ∧ digitsValue (whole ++ fraction) = r.mantissa ∧
      r.renderChars =
        (if r.negative then ['-'] else []) ++
          (whole ++ if r.scale = 0 then [] else '.' :: fraction) := by
  have hlength : r.scale + 1 ≤ (zeroPadded (r.scale + 1) (decimal r.mantissa)).length := by
    rw [length_zeroPadded]
    exact Nat.le_max_left _ _
  have hdigits : allDigits (zeroPadded (r.scale + 1) (decimal r.mantissa)) = true :=
    allDigits_zeroPadded (allDigits_decimal r.mantissa)
  have hvalue := digitsValue_zeroPadded (r.scale + 1) (decimal r.mantissa)
  rw [digitsValue_decimal] at hvalue
  unfold renderChars
  generalize zeroPadded (r.scale + 1) (decimal r.mantissa) = digits at hlength hdigits hvalue ⊢
  -- The text is cut so that the fraction has as many digits as the scale says.
  have hsplit := List.take_append_drop (digits.length - r.scale) digits
  rw [← hsplit, allDigits, List.all_append, Bool.and_eq_true_iff] at hdigits
  refine ⟨digits.take (digits.length - r.scale), digits.drop (digits.length - r.scale), hdigits.1,
    hdigits.2, ?_, ?_, ?_, ?_⟩
  · rw [← List.length_pos_iff, List.length_take]
    omega
  · rw [List.length_drop]
    omega
  · rw [hsplit, hvalue]
  · dsimp only
    split <;> split <;> simp

/-- The first character of a rate without a sign is a digit. -/
private theorem isDigit_head {whole : List Char} (hdigits : allDigits whole = true)
    (hne : whole ≠ []) (rest : List Char) :
    ∃ c cs, whole ++ rest = c :: cs ∧ c.isDigit = true := by
  cases whole with
  | nil => exact absurd rfl hne
  | cons c cs => exact ⟨c, cs ++ rest, rfl, (Bool.and_eq_true_iff.1 hdigits).1⟩

/-- The digits of a rate are read as its mantissa and its scale. -/
private theorem readFrom_parts {whole fraction : List Char} {r : Rate}
    (hwhole : allDigits whole = true) (hfraction : allDigits fraction = true) (hne : whole ≠ [])
    (hlength : fraction.length = r.scale) (hvalue : digitsValue (whole ++ fraction) = r.mantissa) :
    readFrom ⟨0, 0, false, false⟩ (whole ++ if r.scale = 0 then [] else '.' :: fraction) =
      some (r.mantissa, r.scale) := by
  have hmantissa := r.mantissa_lt
  rw [← hvalue, digitsValue, List.foldl_append] at hmantissa
  have hlimit := Nat.lt_of_le_of_lt (le_foldl_digitValue fraction _) hmantissa
  have hnonempty : (!whole.isEmpty) = true := by simpa using hne
  rw [readFrom_append hwhole hlimit (by simp)]
  simp only [Bool.false_eq_true, if_false, Bool.false_or, hnonempty]
  -- Without places there is no point. Otherwise the reader goes on behind it, and counts.
  split
  · next hscale =>
    rw [hscale, List.length_eq_zero_iff] at hlength
    rw [← hvalue, hlength, List.append_nil, hscale]
    rfl
  · have hplaces : fraction.length ≤ 28 := hlength ▸ r.scale_le
    have hread := readFrom_append hfraction
      (p := ⟨whole.foldl (fun n c => n * 10 + digitValue c) 0, 0, true, true⟩) hmantissa
      (fun _ => by simpa using hplaces) []
    rw [List.append_nil] at hread
    have hpoint : readFrom ⟨whole.foldl (fun n c => n * 10 + digitValue c) 0, 0, false, true⟩
        ('.' :: fraction) =
          readFrom ⟨whole.foldl (fun n c => n * 10 + digitValue c) 0, 0, true, true⟩ fraction := rfl
    rw [hpoint, hread, ← hvalue, digitsValue, List.foldl_append, ← hlength]
    simp [readFrom]

/-- The text of a rate is read as the rate, without a minus sign in front of zero. -/
theorem parse?_renderChars (r : Rate) : parse? r.renderChars = some r.unsigned := by
  obtain ⟨whole, fraction, hwhole, hfraction, hne, hlength, hvalue, htext⟩ := renderChars_parts r
  have hread := readFrom_parts hwhole hfraction hne hlength hvalue
  obtain ⟨c, cs, hcons, hdigit⟩ :=
    isDigit_head hwhole hne (if r.scale = 0 then [] else '.' :: fraction)
  have hparts : ofParts? (r.negative && Nat.blt 0 r.mantissa) r.mantissa r.scale =
      some r.unsigned := dif_pos ⟨r.mantissa_lt, r.scale_le⟩
  have hplain : parsePlain? r.renderChars = some r.unsigned := by
    rw [htext, ← hparts]
    cases r.negative with
    | true =>
      rw [if_pos rfl, List.singleton_append, parsePlain?]
      simp only [hread]
    | false =>
      -- A digit is no sign.
      have hminus : c ≠ '-' := fun h => absurd (h ▸ hdigit) (by decide)
      have hplus : c ≠ '+' := fun h => absurd (h ▸ hdigit) (by decide)
      rw [hcons] at hread ⊢
      simp only [if_neg Bool.false_ne_true, List.nil_append]
      rw [parsePlain?.eq_def]
      split
      next negative body hsign =>
        split at hsign
        · next heq => exact absurd (List.cons.inj heq).1 hminus
        · next heq => exact absurd (List.cons.inj heq).1 hplus
        · cases hsign
          rw [hread]
  rw [parse?, hplain]

/-- A rate is read as the rate, without a minus sign in front of zero. -/
theorem ofJson_toJson (r : Rate) : ofJson r.toJson = .ok r.unsigned := by
  have hparse : parse? r.render.toList = some r.unsigned := by
    rw [render, String.toList_ofList, parse?_renderChars]
  rw [toJson]
  unfold ofJson
  simp only [hparse]

/-- Whether the rate is zero with a minus sign. -/
def isMinusZero (r : Rate) : Bool := r.negative && r.mantissa == 0

/-- Only zero with a minus sign loses it. -/
theorem unsigned_eq_self_iff {r : Rate} : r.unsigned = r ↔ r.isMinusZero = false := by
  obtain ⟨negative, mantissa, scale, hmantissa, hscale⟩ := r
  -- By the sign and the mantissa.
  cases negative <;> cases mantissa <;> simp [unsigned, isMinusZero]

/-- A zero with a minus sign is a zero. -/
theorem mantissa_of_isMinusZero {r : Rate} (h : r.isMinusZero = true) : r.mantissa = 0 :=
  eq_of_beq (Bool.and_eq_true_iff.1 h).2

/-- A sign that has been left out cannot be left out again. -/
theorem unsigned_unsigned (r : Rate) : r.unsigned.unsigned = r.unsigned := by
  rw [unsigned, unsigned, Bool.and_assoc, Bool.and_self]

/-! No comparison looks at the sign of zero. -/

/-- Whether a rate is negative does not depend on the sign of zero. -/
theorem isNegative_unsigned (r : Rate) : r.unsigned.isNegative = r.isNegative := by
  rw [isNegative, isNegative, unsigned, Bool.and_assoc, Bool.and_self]

/-- Whether a rate is above one does not depend on the sign of zero. -/
theorem exceedsOne_unsigned (r : Rate) : r.unsigned.exceedsOne = r.exceedsOne := by
  cases hsign : r.isMinusZero with
  | false => rw [unsigned_eq_self_iff.2 hsign]
  | true =>
    have hbelow : ∀ n, Nat.blt n 0 = false := fun _ => rfl
    simp only [exceedsOne, unsigned, mantissa_of_isMinusZero hsign, hbelow, Bool.and_false]

/-- Whether a rate is at least one does not depend on the sign of zero. -/
theorem atLeastOne_unsigned (r : Rate) : r.unsigned.atLeastOne = r.atLeastOne := by
  cases hsign : r.isMinusZero with
  | false => rw [unsigned_eq_self_iff.2 hsign]
  | true =>
    have hbelow : Nat.ble (Nat.pow 10 r.scale) 0 = false := by
      rw [Bool.eq_false_iff, ne_eq, Nat.ble_eq, Nat.not_le]
      exact Nat.pow_pos (by decide)
    simp only [atLeastOne, unsigned, mantissa_of_isMinusZero hsign, hbelow, Bool.and_false]

end Rate

/-! ## Coins -/

namespace Coin

open Text

/-- A coin is an object of two strings. -/
theorem isPlain_toJson (room : Nat) (c : Coin) : Json.isPlain (room + 1) c.toJson = true := by
  simp [toJson, Json.isPlain, Json.fieldsPlain]

/-- The digits of an amount are read as the amount. -/
theorem parseAmount?_decimal (n : Nat) : parseAmount? (decimal n) = some n := by
  obtain ⟨c, rest, hcons, hdigit⟩ := exists_decimal_cons n
  have hdigits : ∀ d ∈ c :: rest, d.isDigit = true :=
    fun d hd => isDigit_of_mem_decimal (hcons ▸ hd)
  -- A digit is neither a plus sign nor an underscore.
  have hplus : c ≠ '+' := fun h => absurd (h ▸ hdigit) (by decide)
  have hmark : c ≠ '_' := fun h => absurd (h ▸ hdigit) (by decide)
  have hall : ((c :: rest).all fun d => d.isDigit || d = '_') = true :=
    List.all_eq_true.2 fun d hd => by rw [hdigits d hd, Bool.true_or]
  have hfilter : (c :: rest).filter Char.isDigit = c :: rest := List.filter_eq_self.2 hdigits
  rw [hcons, parseAmount?.eq_def]
  split
  · next heq => exact absurd (List.cons.inj heq).1 hplus
  · dsimp only
    split
    · next heq => cases heq
    · next heq => exact absurd (List.cons.inj heq).1 hmark
    · rw [if_pos hall, hfilter, ← hcons, digitsValue_decimal]

/-- A coin is read as the coin. -/
theorem ofJson_toJson (c : Coin) : ofJson c.toJson = .ok c := by
  have hamount : amountOfJson (.string (toString c.amount)) = .ok c.amount := by
    have htext : (toString c.amount).toList = decimal c.amount := String.toList_ofList
    simp only [amountOfJson, Json.toText, htext, parseAmount?_decimal]
  have hfields : c.toJson = .object [("denom", .string c.denom),
    ("amount", .string (toString c.amount))] := rfl
  rw [ofJson, hfields, Json.record,
    Json.Record.required_eq_ok 0 rfl (show Json.toText (.string c.denom) = .ok c.denom from rfl),
    Json.Record.required_eq_ok 1 rfl hamount]
  rfl

end Coin

namespace CoinSet

/-- A set of coins is a list of such objects. -/
theorem isPlain_toJson (room : Nat) (s : CoinSet) : Json.isPlain (room + 2) s.toJson = true :=
  Json.isPlain_ofList (Coin.isPlain_toJson room) s.toCoins

/-- A set of coins is read as the set. -/
theorem ofJson_toJson (s : CoinSet) : ofJson s.toJson = .ok s := by
  rw [ofJson, toJson, Json.toList_ofList Coin.ofJson_toJson]
  simp only [ofCoins_toCoins]

end CoinSet

/-! ## Parameters -/

namespace Fee.Params

/-- The parameters as they are read back. -/
def unsigned (p : Params) : Params := { p with percentage := p.percentage.unsigned }

/-- The parameters of the fees nest as deeply as their coins do. -/
theorem isPlain_toJson (room : Nat) (p : Params) : Json.isPlain (room + 3) p.toJson = true := by
  simp [toJson, Rate.toJson, Json.isPlain, Json.fieldsPlain, CoinSet.isPlain_toJson room]

/-- The parameters of the fees are read as they were, but for the sign of a zero. -/
theorem ofJson_toJson (p : Params) : ofJson p.toJson = .ok p.unsigned := by
  have hfields : p.toJson = .object [("fee_percentage", p.percentage.toJson),
    ("minimum_fee", p.minimum.toJson), ("maximum_fee", p.maximum.toJson),
    ("base_denom", .string p.baseDenom)] := rfl
  rw [ofJson, hfields, Json.record, Json.Record.required_eq_ok 0 rfl p.percentage.ofJson_toJson,
    Json.Record.required_eq_ok 1 rfl p.minimum.ofJson_toJson,
    Json.Record.required_eq_ok 2 rfl p.maximum.ofJson_toJson,
    Json.Record.required_eq_ok 3 rfl
      (show Json.toText (.string p.baseDenom) = .ok p.baseDenom from rfl)]
  rfl

/-- Parameters are sensible exactly if their four parts are. -/
theorem check_eq_ok_iff {p : Params} :
    p.check = .ok () ↔ Denom.check p.baseDenom = .ok () ∧
      checkPercentage p.percentage = .ok () ∧ checkMinimum p.minimum p.baseDenom = .ok () ∧
      checkMaximum p.maximum p.baseDenom = .ok () := by
  simp only [check, Except.check_eq_ok_iff, Except.mapError_eq_ok_iff]

/-- The check of the parameters does not look at the sign of zero. -/
theorem check_unsigned {p : Params} : p.unsigned.check = .ok () ↔ p.check = .ok () := by
  have hpercentage :
      checkPercentage p.percentage.unsigned = .ok () ↔ checkPercentage p.percentage = .ok () := by
    unfold checkPercentage
    rw [Rate.isNegative_unsigned, Rate.exceedsOne_unsigned]
    split <;> simp
  rw [check_eq_ok_iff, check_eq_ok_iff, unsigned, hpercentage]

end Fee.Params

/-- A rate of minting is sensible if it is neither negative nor one or more. -/
theorem Mint.checkRate_eq_ok_iff {rate : Rate} :
    checkRate rate = .ok () ↔ rate.isNegative = false ∧ rate.atLeastOne = false := by
  unfold checkRate
  cases rate.isNegative <;> cases rate.atLeastOne <;> simp

namespace Mint.Params

/-- The parameters as they are read back. -/
def unsigned (p : Params) : Params := { p with ratePerSecond := p.ratePerSecond.unsigned }

/-- The parameters of the minter are an object of strings and a number. -/
theorem isPlain_toJson (room : Nat) (p : Params) : Json.isPlain (room + 1) p.toJson = true := by
  simp [toJson, Rate.toJson, Json.isPlain, Json.fieldsPlain, Json.isPlain_natural]

/-- The parameters of the minter are read as they were, but for the sign of a zero. -/
theorem ofJson_toJson (p : Params) : ofJson p.toJson = .ok p.unsigned := by
  have hfields : p.toJson = .object [("mint_denom", .string p.denom),
    ("per_second_inflation_rate", p.ratePerSecond.toJson),
    ("max_accrual_seconds", .natural p.maxAccrualSeconds.toNat)] := rfl
  rw [ofJson, hfields, Json.record,
    Json.Record.required_eq_ok 0 rfl (show Json.toText (.string p.denom) = .ok p.denom from rfl),
    Json.Record.required_eq_ok 1 rfl p.ratePerSecond.ofJson_toJson,
    Json.Record.optional_eq_ok _ 2 rfl (Json.toUInt64_natural p.maxAccrualSeconds)]
  rfl

/-- Parameters are sensible exactly if their three parts are. -/
theorem check_eq_ok_iff {p : Params} :
    p.check = .ok () ↔ Denom.check p.denom = .ok () ∧ checkRate p.ratePerSecond = .ok () ∧
      checkMaxAccrualSeconds p.maxAccrualSeconds = .ok () := by
  simp only [check, Except.check_eq_ok_iff, Except.mapError_eq_ok_iff]

/-- The check of the parameters of the minter does not look at the sign of zero. -/
theorem check_unsigned {p : Params} : p.unsigned.check = .ok () ↔ p.check = .ok () := by
  have hrate :
      checkRate p.ratePerSecond.unsigned = .ok () ↔ checkRate p.ratePerSecond = .ok () := by
    rw [checkRate_eq_ok_iff, checkRate_eq_ok_iff, Rate.isNegative_unsigned,
      Rate.atLeastOne_unsigned]
  rw [check_eq_ok_iff, check_eq_ok_iff, unsigned, hrate]

end Mint.Params

/-! ## Parameters in a store -/

namespace Governance

/-- The parameters as they are read back. -/
def Params.unsigned (p : Params) : Params := ⟨p.fee.unsigned, p.mint.unsigned⟩

variable {s t : Store}

/-- The parameters of the fees are there if their record is. -/
theorem loadFee_eq_ok_iff {p : Fee.Params} :
    loadFee s = .ok p ↔ Fee.Params.load s = .ok (some p) := by
  unfold loadFee
  split <;> simp_all

/-- The parameters of the minter are there if their record is. -/
theorem loadMint_eq_ok_iff {p : Mint.Params} :
    loadMint s = .ok p ↔ Mint.Params.load s = .ok (some p) := by
  unfold loadMint
  split <;> simp_all

/-- Parameters of the fees are saved after they have passed their check. -/
theorem saveFee_eq_ok_iff {p : Fee.Params} :
    saveFee p s = .ok t ↔ p.check = .ok () ∧ p.save s = .ok t := by
  unfold saveFee
  split <;> simp_all [Except.mapError_eq_ok_iff]

/-- Parameters of the minter are saved after they have passed their check. -/
theorem saveMint_eq_ok_iff {p : Mint.Params} :
    saveMint p s = .ok t ↔ p.check = .ok () ∧ p.save s = .ok t := by
  unfold saveMint
  split <;> simp_all [Except.mapError_eq_ok_iff]

/-- What has been saved of the fees is loaded again. -/
theorem loadFee_of_find? {p : Fee.Params}
    (hfind : s.entries.find? Fee.Params.key = some (Store.recordBytes p.toJson))
    (hmedium : s.medium.readFailure Fee.Params.key = none) : loadFee s = .ok p.unsigned :=
  loadFee_eq_ok_iff.2 (Store.getRecord_of_find? hfind (p.isPlain_toJson _) p.ofJson_toJson hmedium)

/-- What has been saved of the minter is loaded again. -/
theorem loadMint_of_find? {p : Mint.Params}
    (hfind : s.entries.find? Mint.Params.key = some (Store.recordBytes p.toJson))
    (hmedium : s.medium.readFailure Mint.Params.key = none) : loadMint s = .ok p.unsigned :=
  loadMint_eq_ok_iff.2 (Store.getRecord_of_find? hfind (p.isPlain_toJson _) p.ofJson_toJson hmedium)

end Governance

end ChainEconomy
