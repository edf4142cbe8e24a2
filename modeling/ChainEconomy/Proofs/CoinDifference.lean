import ChainEconomy.Proofs.ByteOrder
import ChainEconomy.Proofs.CoinSetAlgebra

/-!
# Differences of coin sets

Coin sets form a commutative monoid under addition, and subtraction undoes addition wherever it is
defined. It takes the amounts away one by one, so that a refusal comes after other amounts have been
taken; since each denomination is looked at once, the refusal nevertheless shows an amount as it was
at the start. Denominations ascend by their bytes, which makes the refused one the smallest of those
that run short.

## Key results

- `FirstDeficit`: the first denomination that runs short
- `sub?_eq_error_iff`: when a difference is refused, and with what
- `sub?_inverts_add`: sums and differences
-/

namespace ChainEconomy.CoinSet

open KeyOrder Text

/-! ## Sums -/

/-- Sums may be taken in any grouping. -/
protected theorem add_assoc (a b c : CoinSet) : (a.add b).add c = a.add (b.add c) := by
  apply ext_amountOf
  intro denom
  simp only [amountOf_add, Nat.add_assoc]

/-- Sums may be taken in any order. -/
protected theorem add_comm (a b : CoinSet) : a.add b = b.add a := by
  apply ext_amountOf
  intro denom
  rw [amountOf_add, amountOf_add, Nat.add_comm]

/-- The empty set adds nothing, from either side. -/
theorem add_empty (s : CoinSet) : s.add empty = s := by
  rw [CoinSet.add_comm, empty_add]

/-! ## Refusals -/

/-- The smallest denomination, by its bytes, of which the second set holds more than the first. -/
structure FirstDeficit (a b : CoinSet) (denom : String) : Prop where
  exceeded : a.amountOf denom < b.amountOf denom
  smallest : ∀ x, a.amountOf x < b.amountOf x →
    x = denom ∨ Before (Utf8.ofString denom) (Utf8.ofString x)

/-- No two denominations are the first to run short. -/
theorem FirstDeficit.unique {a b : CoinSet} {x y : String} (hx : FirstDeficit a b x)
    (hy : FirstDeficit a b y) : x = y := by
  -- Each of them is the smallest, and of two different ones only one can be.
  rcases hy.smallest x hx.exceeded with heq | hyx
  · exact heq
  rcases hx.smallest y hy.exceeded with heq | hxy
  · exact heq.symm
  · exact absurd (hxy.trans hyx) (not_before_self _)

/-- Whether an entry asks for more than the set holds. -/
def fallsShort (s : CoinSet) (e : String × Nat) : Bool := Nat.blt (s.amountOf e.1) e.2

/-- An entry falls short if the set holds less than it asks for. -/
theorem fallsShort_iff {s : CoinSet} {e : String × Nat} :
    s.fallsShort e = true ↔ s.amountOf e.1 < e.2 := by
  simp [fallsShort]

/-- Amounts of different denominations are taken away up to the first that is not covered. What has
been taken before is of other denominations. -/
private theorem withdraw_eq_error {l : List (String × Nat)} (s : CoinSet) (e : CoinError)
    (hasc : l.Pairwise fun a b => Before a.1 b.1) :
    s.withdraw l = .error e ↔
      ∃ d, l.find? s.fallsShort = some d ∧ e = .insufficient d.1 (s.amountOf d.1) d.2 := by
  -- The induction is on the entries, with the set that is left of the first one.
  induction l generalizing s with
  | nil => simp [withdraw]
  | cons first rest ih =>
    obtain ⟨denom, requested⟩ := first
    obtain ⟨hfirst, hrest⟩ := List.pairwise_cons.1 hasc
    rw [withdraw]
    by_cases hshort : s.amountOf denom < requested
    · -- The search stops at this entry, as the subtraction does.
      have hfalls : s.fallsShort (denom, requested) = true := fallsShort_iff.2 hshort
      rw [if_pos hshort, List.find?_cons_of_pos hfalls]
      simp [eq_comm]
    · have hfalls : ¬ s.fallsShort (denom, requested) = true := mt fallsShort_iff.1 hshort
      rw [if_neg hshort, List.find?_cons_of_neg hfalls, ih _ hrest]
      -- Taking one denomination leaves the amounts of all later ones, which are others.
      have hothers : ∀ d ∈ rest,
          (s.put denom (s.amountOf denom - requested)).amountOf d.1 = s.amountOf d.1 := by
        intro d hd
        rw [amountOf_put, if_neg (hfirst d hd).ne.symm]
      have hsame : rest.find? (s.put denom (s.amountOf denom - requested)).fallsShort =
          rest.find? s.fallsShort := by
        apply List.find?_congr
        intro d hd
        rw [fallsShort, fallsShort, hothers d hd]
      rw [hsame]
      refine exists_congr fun d => and_congr_right fun hd => ?_
      rw [hothers d (List.mem_of_find?_eq_some hd)]

/-- An entry that falls short when no entry before it does is of the smallest such denomination. -/
theorem firstDeficit_of_find? {a b : CoinSet} {d : String × Nat}
    (h : b.entries.find? a.fallsShort = some d) :
    FirstDeficit a b d.1 ∧ b.amountOf d.1 = d.2 := by
  -- What the search has found is an entry with all entries in front of it covered.
  obtain ⟨hfalls, before, after, hsplit, hbefore⟩ := List.find?_eq_some_iff_append.1 h
  have hamount : b.amountOf d.1 = d.2 := (mem_entries_iff.1 (List.mem_of_find?_eq_some h)).2
  refine ⟨⟨hamount ▸ fallsShort_iff.1 hfalls, fun x hx => ?_⟩, hamount⟩
  -- Any other denomination that runs short has its entry in front of this one, at it or behind.
  have hmem : (x, b.amountOf x) ∈ before ++ d :: after :=
    hsplit ▸ mem_entries_iff.2 ⟨Nat.zero_lt_of_lt hx, rfl⟩
  have hasc : (before ++ d :: after).Pairwise fun a b => Before a.1 b.1 :=
    hsplit ▸ b.amounts.ascending
  rcases List.mem_append.1 hmem with hearly | hlate
  · -- What comes before the first entry that falls short is covered.
    have hcovered := hbefore _ hearly
    rw [fallsShort_iff.2 hx] at hcovered
    cases hcovered
  · rcases List.mem_cons.1 hlate with rfl | hlate
    · exact .inl rfl
    · have hnext := (List.pairwise_cons.1 (List.pairwise_append.1 hasc).2.1).1
      exact .inr (Utf8.before_ofString.2 (hnext _ hlate))

/-- The first entry that falls short is that of the first denomination to run short. -/
theorem find?_fallsShort_iff {a b : CoinSet} {d : String × Nat} :
    b.entries.find? a.fallsShort = some d ↔ FirstDeficit a b d.1 ∧ b.amountOf d.1 = d.2 := by
  refine ⟨firstDeficit_of_find?, fun ⟨hdeficit, hamount⟩ => ?_⟩
  -- Something falls short, so that a first entry does, and there is one denomination for it only.
  have hmem : d ∈ b.entries :=
    mem_entries_iff.2 ⟨hamount ▸ Nat.zero_lt_of_lt hdeficit.exceeded, hamount⟩
  have hsome : (b.entries.find? a.fallsShort).isSome = true :=
    List.find?_isSome.2 ⟨d, hmem, fallsShort_iff.2 (hamount ▸ hdeficit.exceeded)⟩
  obtain ⟨e, he⟩ := Option.isSome_iff_exists.1 hsome
  obtain ⟨hfirst, hheld⟩ := firstDeficit_of_find? he
  have hdenom : e.1 = d.1 := hfirst.unique hdeficit
  rw [he, Prod.ext hdenom (by rw [← hheld, ← hamount, hdenom])]

/-- A difference is refused exactly if something runs short, with the first denomination that does
and the amounts that both sets hold of it. -/
theorem sub?_eq_error_iff {a b : CoinSet} {e : CoinError} :
    a.sub? b = .error e ↔
      ∃ denom, FirstDeficit a b denom ∧
        e = .insufficient denom (a.amountOf denom) (b.amountOf denom) := by
  rw [sub?, entries, withdraw_eq_error a e b.amounts.ascending]
  constructor
  · -- The entry that is found is the denomination together with what is asked of it.
    rintro ⟨d, hfind, rfl⟩
    obtain ⟨hdeficit, hamount⟩ := find?_fallsShort_iff.1 hfind
    exact ⟨d.1, hdeficit, by rw [hamount]⟩
  · rintro ⟨denom, hdeficit, rfl⟩
    exact ⟨(denom, b.amountOf denom), find?_fallsShort_iff.2 ⟨hdeficit, rfl⟩, rfl⟩

/-! ## Differences -/

/-- A difference is what makes up the first set together with the second one. -/
theorem sub?_eq_ok_iff_add {a b c : CoinSet} : a.sub? b = .ok c ↔ c.add b = a := by
  rw [sub?_eq_ok_iff]
  constructor
  · intro h
    apply ext_amountOf
    intro denom
    rw [amountOf_add, h]
  · rintro rfl denom
    rw [amountOf_add]

/-- There is a difference exactly if the first set covers the second one. -/
theorem exists_sub?_eq_ok_iff {a b : CoinSet} : (∃ r, a.sub? b = .ok r) ↔ a.covers b = true := by
  rw [covers_iff]
  constructor
  · rintro ⟨r, hr⟩ denom
    -- What is left is not negative, so that no more is taken than there is.
    have hparts := sub?_eq_ok_iff.1 hr denom
    omega
  · exact exists_sub?_eq_ok

/-- Sums do not depend on how and in what order they are taken, and nothing is added by the empty
set. The difference of two sets is the one that makes up the first together with the second. There
is one exactly if the first covers the second; else the refusal names the first denomination that
runs short, and what both sets hold of it. -/
theorem sub?_inverts_add (a b c : CoinSet) :
    ((a.add b).add c = a.add (b.add c) ∧ a.add b = b.add a ∧ a.add empty = a ∧ empty.add a = a) ∧
      (a.sub? b = .ok c ↔ c.add b = a) ∧
      ((∃ r, a.sub? b = .ok r) ↔ a.covers b = true) ∧
      ∀ e, a.sub? b = .error e ↔
        ∃ denom, FirstDeficit a b denom ∧
          e = .insufficient denom (a.amountOf denom) (b.amountOf denom) :=
  ⟨⟨CoinSet.add_assoc a b c, CoinSet.add_comm a b, add_empty a, empty_add a⟩, sub?_eq_ok_iff_add,
    exists_sub?_eq_ok_iff, fun _ => sub?_eq_error_iff⟩

end ChainEconomy.CoinSet
