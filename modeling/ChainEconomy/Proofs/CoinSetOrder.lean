import ChainEconomy.Proofs.CoinSetAlgebra

/-!
# Comparisons of coin sets

Sets that hold one denomination alone, and the two comparisons of sets. `dominates` compares numbers
of denominations, then denominations, then amounts; by amounts alone it says that a set that is not
empty holds more of everything that the other one holds.

Domination is not the strict part of covering: `6utoll,1uatom` covers `5utoll,1uatom` and differs
from it, but does not dominate it. Nevertheless the two comparisons are orders that go together as a
strict order and its reflexive companion do. What dominates also covers, and a chain of comparisons
dominates as soon as one of its links does.

## Key results

- `denoms_eq_singleton_iff`, `entries_eq_singleton`: when a set holds one denomination alone
- `dominates_iff`: domination by amounts
- `dominates_self`: no set dominates itself
- `dominates_of_dominates_of_covers`, `dominates_of_covers_of_dominates`: chains of comparisons
- `comparisons_compatible`: the laws of both orders
-/

namespace ChainEconomy.CoinSet

/-- A set is not empty if it holds something. -/
theorem isEmpty_eq_false_iff {s : CoinSet} :
    s.isEmpty = false ↔ ∃ denom, 0 < s.amountOf denom := by
  rw [Bool.eq_false_iff, ne_eq, isEmpty_iff]
  constructor
  · intro hne
    -- A set without a positive amount is the empty one, since sets are known by their amounts.
    by_contra hnone
    exact hne (ext_amountOf fun denom => Nat.eq_zero_of_not_pos fun hpos => hnone ⟨denom, hpos⟩)
  · rintro ⟨denom, hpos⟩ rfl
    exact Nat.lt_irrefl 0 hpos

/-- No denomination is held twice. -/
theorem denoms_nodup (s : CoinSet) : s.denoms.Nodup :=
  (List.pairwise_map.2 s.amounts.ascending).imp KeyOrder.Before.ne

/-- A set holds one denomination alone if an amount is positive for that one and for no other. -/
theorem denoms_eq_singleton_iff {s : CoinSet} {denom : String} :
    s.denoms = [denom] ↔ ∀ x, 0 < s.amountOf x ↔ x = denom := by
  constructor
  · intro h x
    rw [← mem_denoms_iff, h, List.mem_singleton]
  · intro h
    -- Two lists without repetitions and with the same members are rearrangements of one another.
    refine List.perm_singleton.1 ((List.perm_ext_iff_of_nodup s.denoms_nodup
      (List.nodup_singleton denom)).2 fun x => ?_)
    rw [mem_denoms_iff, h, List.mem_singleton]

/-- A set that holds nothing but a positive amount of one denomination has one entry. -/
theorem entries_eq_singleton {s : CoinSet} {denom : String} {n : Nat} (hpos : 0 < n)
    (h : ∀ x, s.amountOf x = if x = denom then n else 0) : s.entries = [(denom, n)] := by
  -- The entries have one denomination, and are therefore one.
  have hdenoms : s.denoms = [denom] := denoms_eq_singleton_iff.2 fun x => by
    rw [h]
    split
    · next hx => exact iff_of_true hpos hx
    · next hx => exact iff_of_false (Nat.lt_irrefl 0) hx
  obtain ⟨⟨d, m⟩, hentries, hd⟩ : ∃ e, s.entries = [e] ∧ e.1 = denom :=
    List.map_eq_singleton_iff.1 hdenoms
  obtain rfl : d = denom := hd
  have hm : s.amountOf d = m :=
    (mem_entries_iff.1 (hentries ▸ List.mem_singleton_self (d, m))).2
  rw [hentries, ← hm, h, if_pos rfl]

/-- A set that holds every denomination of another one has no fewer of them. -/
theorem size_le_of_denoms_subset {a b : CoinSet} (h : b.denoms ⊆ a.denoms) : b.size ≤ a.size := by
  -- The denominations of the second set are, without repetition, among those of the first one.
  simpa [denoms, OrderedMap.keys, size, entries] using
    (List.subperm_of_subset b.denoms_nodup h).length_le

/-- Denominations are compared one by one: none of them is counted twice, so that the number of them
decides nothing. -/
theorem holds_denoms_iff {a b : CoinSet} :
    (Nat.ble b.size a.size && b.denoms.all a.holds) = true ↔
      ∀ denom, 0 < b.amountOf denom → 0 < a.amountOf denom := by
  rw [Bool.and_eq_true_iff, Nat.ble_eq, List.all_eq_true]
  constructor
  · rintro ⟨-, hheld⟩ denom hpos
    exact holds_iff.1 (hheld denom (mem_denoms_iff.2 hpos))
  · intro h
    have hsubset : b.denoms ⊆ a.denoms := fun denom hmem =>
      mem_denoms_iff.2 (h denom (mem_denoms_iff.1 hmem))
    exact ⟨size_le_of_denoms_subset hsubset, fun denom hmem =>
      holds_iff.2 (h denom (mem_denoms_iff.1 hmem))⟩

/-- More is held than every entry asks for exactly if more is held of every denomination in it. -/
theorem exceeds_entries_iff {a b : CoinSet} :
    (b.entries.all fun e => Nat.blt e.2 (a.amountOf e.1)) = true ↔
      ∀ denom, 0 < b.amountOf denom → b.amountOf denom < a.amountOf denom := by
  simp only [List.all_eq_true, Nat.blt_eq]
  exact forall_entries_iff (p := fun denom n => n < a.amountOf denom)

/-- A set that is not empty dominates another one if it holds more of everything that the other one
holds. -/
theorem dominates_iff {a b : CoinSet} :
    a.dominates b = true ↔ (∃ denom, 0 < a.amountOf denom) ∧
      ∀ denom, 0 < b.amountOf denom → b.amountOf denom < a.amountOf denom := by
  rw [← isEmpty_eq_false_iff, dominates]
  -- The empty set is excluded first, then a second set that is empty, then one with other
  -- denominations.
  cases a.isEmpty with
  | true => simp
  | false =>
    simp only [Bool.false_eq_true, if_false, true_and]
    split
    · next hb =>
      -- The empty set holds nothing that there could be less of.
      rw [isEmpty_iff.1 hb]
      simp
    · split
      · next hlacks =>
        -- To hold more of a denomination is to hold it.
        refine ⟨(nomatch ·), fun h => ?_⟩
        have hheld := holds_denoms_iff.2 fun denom hpos => Nat.lt_trans hpos (h denom hpos)
        rw [hheld] at hlacks
        cases hlacks
      · exact exceeds_entries_iff

/-- No set dominates itself: the empty one dominates nothing, and no other one holds more than it
does. -/
theorem dominates_self (s : CoinSet) : s.dominates s = false := by
  rw [Bool.eq_false_iff, ne_eq, dominates_iff]
  rintro ⟨⟨denom, hpos⟩, hmore⟩
  exact Nat.lt_irrefl _ (hmore denom hpos)

/-! ## Laws of both comparisons -/

section Laws

variable {a b c : CoinSet}

/-- Every set covers itself. -/
theorem covers_self (s : CoinSet) : s.covers s = true :=
  covers_iff.2 fun _ => Nat.le_refl _

/-- Sets that cover one another hold the same. -/
theorem covers_antisymm (hab : a.covers b = true) (hba : b.covers a = true) : a = b :=
  ext_amountOf fun denom => Nat.le_antisymm (covers_iff.1 hba denom) (covers_iff.1 hab denom)

/-- What covers a set covers all that this set covers. -/
theorem covers_trans (hab : a.covers b = true) (hbc : b.covers c = true) : a.covers c = true :=
  covers_iff.2 fun denom => Nat.le_trans (covers_iff.1 hbc denom) (covers_iff.1 hab denom)

/-- To hold more of everything that the other set holds is to hold no less of anything. -/
theorem covers_of_dominates (h : a.dominates b = true) : a.covers b = true := by
  obtain ⟨-, hmore⟩ := dominates_iff.1 h
  refine covers_iff.2 fun denom => ?_
  -- A denomination that is not held is covered; of any other one there is more.
  rcases Nat.eq_zero_or_pos (b.amountOf denom) with hzero | hpos
  · rw [hzero]
    exact Nat.zero_le _
  · exact Nat.le_of_lt (hmore denom hpos)

/-- What dominates a set dominates all that this set covers. -/
theorem dominates_of_dominates_of_covers (hab : a.dominates b = true) (hbc : b.covers c = true) :
    a.dominates c = true := by
  obtain ⟨hheld, hmore⟩ := dominates_iff.1 hab
  refine dominates_iff.2 ⟨hheld, fun denom hpos => ?_⟩
  have hle := covers_iff.1 hbc denom
  -- What the last set holds, the one in the middle holds as well, so that the first one has more.
  exact Nat.lt_of_le_of_lt hle (hmore denom (Nat.lt_of_lt_of_le hpos hle))

/-- What covers a set dominates all that this set dominates. -/
theorem dominates_of_covers_of_dominates (hab : a.covers b = true) (hbc : b.dominates c = true) :
    a.dominates c = true := by
  obtain ⟨⟨held, hheld⟩, hmore⟩ := dominates_iff.1 hbc
  have hle := covers_iff.1 hab
  -- Something is held, since the set in the middle holds it.
  exact dominates_iff.2 ⟨⟨held, Nat.lt_of_lt_of_le hheld (hle held)⟩, fun denom hpos =>
    Nat.lt_of_lt_of_le (hmore denom hpos) (hle denom)⟩

/-- What dominates a set dominates all that this set dominates. -/
theorem dominates_trans (hab : a.dominates b = true) (hbc : b.dominates c = true) :
    a.dominates c = true :=
  dominates_of_dominates_of_covers hab (covers_of_dominates hbc)

/-- Of two sets, one at most dominates the other. -/
theorem dominates_asymm (h : a.dominates b = true) : b.dominates a = false := by
  rw [Bool.eq_false_iff]
  intro hback
  -- Each would dominate the other, and so itself.
  have hself := dominates_trans h hback
  rw [dominates_self] at hself
  cases hself

end Laws

/-- Covering compares all amounts, and is a partial order. Domination compares the amounts that the
dominated set holds, unless the other one is empty, and is a strict order. What dominates a set
covers it, and of two comparisons in a row it is enough that one is a domination for the first set
to dominate the last. -/
theorem comparisons_compatible (a b c : CoinSet) :
    ((a.covers b = true ↔ ∀ denom, b.amountOf denom ≤ a.amountOf denom) ∧
        (a.dominates b = true ↔ (∃ denom, 0 < a.amountOf denom) ∧
          ∀ denom, 0 < b.amountOf denom → b.amountOf denom < a.amountOf denom)) ∧
      (a.covers a = true ∧
        (a.covers b = true → b.covers a = true → a = b) ∧
        (a.covers b = true → b.covers c = true → a.covers c = true)) ∧
      (a.dominates a = false ∧
        (a.dominates b = true → b.dominates a = false) ∧
        (a.dominates b = true → b.dominates c = true → a.dominates c = true)) ∧
      (a.dominates b = true → a.covers b = true) ∧
      (a.dominates b = true → b.covers c = true → a.dominates c = true) ∧
      (a.covers b = true → b.dominates c = true → a.dominates c = true) :=
  ⟨⟨covers_iff, dominates_iff⟩, ⟨covers_self a, covers_antisymm, covers_trans⟩,
    ⟨dominates_self a, dominates_asymm, dominates_trans⟩, covers_of_dominates,
    dominates_of_dominates_of_covers, dominates_of_covers_of_dominates⟩

/-- Three sets, of two denominations, of one of them and of none: each dominates those behind it. -/
theorem comparisons_compatible_sample :
    ((empty.put "uatom" 3).put "utoll" 9).dominates (empty.put "utoll" 5) = true ∧
      (empty.put "utoll" 5).covers empty = true ∧ (empty.put "utoll" 5).dominates empty = true ∧
      (empty.put "utoll" 5).dominates ((empty.put "uatom" 3).put "utoll" 9) = false ∧
      ((empty.put "uatom" 3).put "utoll" 9).covers (empty.put "utoll" 5) = true ∧
      ((empty.put "uatom" 3).put "utoll" 9).dominates empty = true := by
  have hfirst : ((empty.put "uatom" 3).put "utoll" 9).dominates (empty.put "utoll" 5) = true := by
    decide +kernel
  have hcovers : (empty.put "utoll" 5).covers empty = true := by decide +kernel
  have hsecond : (empty.put "utoll" 5).dominates empty = true := by decide +kernel
  obtain ⟨-, -, ⟨-, hasymm, -⟩, hcovered, hchain, -⟩ :=
    comparisons_compatible ((empty.put "uatom" 3).put "utoll" 9) (empty.put "utoll" 5) empty
  exact ⟨hfirst, hcovers, hsecond, hasymm hfirst, hcovered hfirst, hchain hfirst hcovers⟩

end ChainEconomy.CoinSet
