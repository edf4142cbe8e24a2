import Mathlib
import ChainEconomy.CoinSet.Basic
import ChainEconomy.Proofs.AttemptRules

/-!
# Sums and differences of coin sets

Addition, subtraction and comparison of coin sets, read off amount by amount: `amountOf` of a sum is
the sum of the amounts, a difference exists exactly if no amount goes below zero, and `covers` is
the comparison of all amounts. With `ext_amountOf`, laws of numbers carry over to sets.

## Key results

- `amountOf_add`, `amountOf_sum`: sums are taken in each denomination
- `sum_perm`, `sum_map_ite`: the order of a sum, and parts that may be left out
- `Acceptable`, `ofCoins_eq_ok_iff`: the lists of coins that make a set, and the set that they make
- `ofCoins_toCoins`: a set is made up of its coins
- `sub?_eq_ok_iff`, `exists_sub?_eq_ok`: differences are taken in each denomination
- `covers_iff`: covering means to hold at least as much of every denomination
-/

namespace ChainEconomy

/-- A denomination passes its check if it is spelled as one. -/
theorem Denom.check_eq_ok_iff {denom : String} :
    Denom.check denom = .ok () ↔ Denom.isDenom denom = true := by
  unfold Denom.check
  split <;> simp_all

/-- A coin has a proper denomination, and any amount. -/
theorem Coin.ofParts_eq_ok_iff {denom : String} {n : Nat} {c : Coin} :
    ofParts denom n = .ok c ↔ Denom.isDenom denom = true ∧ c = ⟨denom, n⟩ := by
  rw [ofParts, Except.map_eq_ok_iff]
  -- The check is all that can refuse the parts.
  constructor
  · rintro ⟨_, hcheck, rfl⟩
    exact ⟨Denom.check_eq_ok_iff.1 hcheck, rfl⟩
  · rintro ⟨hdenom, rfl⟩
    exact ⟨(), Denom.check_eq_ok_iff.2 hdenom, rfl⟩

namespace CoinSet

open KeyOrder OrderedMap

/-- The amount that ascending entries hold in a denomination. -/
def amountIn (l : List (String × Nat)) (denom : String) : Nat := (findIn denom l).getD 0

/-- In ascending entries, the amount under the first key stands in no other entry. -/
theorem amountIn_cons {e : String × Nat} {rest : List (String × Nat)}
    (h : (e :: rest).Pairwise fun a b => Before a.1 b.1) (denom : String) :
    amountIn (e :: rest) denom = (if denom = e.1 then e.2 else 0) + amountIn rest denom := by
  obtain ⟨he, hrest⟩ := List.pairwise_cons.1 h
  unfold amountIn
  rw [findIn]
  -- The search ends in front of the first key or at it, and goes on behind it.
  cases hc : KeyOrder.cmp denom e.1 with
  | lt =>
    have hne : denom ≠ e.1 := Before.ne hc
    rw [if_neg hne, findIn_eq_none fun d hd => Before.trans hc (he d hd)]
    rfl
  | eq =>
    have heq := eq_of_cmp hc
    rw [if_pos heq, findIn_eq_none fun d hd => heq ▸ he d hd]
    rfl
  | gt =>
    have hne : denom ≠ e.1 := fun heq => by
      rw [heq, cmp_self] at hc
      cases hc
    rw [if_neg hne, Nat.zero_add]

/-! ## Sums -/

/-- An entry that is deposited adds its amount in its denomination. -/
theorem amountOf_deposit (s : CoinSet) (e : String × Nat) (he : Denom.isDenom e.1 = true)
    (denom : String) :
    (s.deposit e).amountOf denom = s.amountOf denom + if denom = e.1 then e.2 else 0 := by
  rw [deposit, amountOf_put, if_pos he]
  split
  · next h => rw [h]
  · rfl

/-- Entries of different denominations each add their amount. -/
private theorem amountOf_foldl_deposit {l : List (String × Nat)} (s : CoinSet)
    (hasc : l.Pairwise fun a b => Before a.1 b.1) (hden : ∀ e ∈ l, Denom.isDenom e.1 = true)
    (denom : String) :
    (l.foldl deposit s).amountOf denom = s.amountOf denom + amountIn l denom := by
  -- The induction is on the entries, and generalises the set that they are added to.
  induction l generalizing s with
  | nil => rfl
  | cons e rest ih =>
    have hrest := (List.pairwise_cons.1 hasc).2
    rw [List.foldl_cons, ih _ hrest fun d hd => hden d (List.mem_cons_of_mem _ hd),
      amountOf_deposit s e (hden e List.mem_cons_self), amountIn_cons hasc, Nat.add_assoc]

/-- The amounts of a sum are the sums of the amounts. -/
@[simp] theorem amountOf_add (a b : CoinSet) (denom : String) :
    (a.add b).amountOf denom = a.amountOf denom + b.amountOf denom :=
  amountOf_foldl_deposit a b.amounts.ascending (fun e he => (b.proper e he).1) denom

/-- Sets that are added one by one add their amounts. -/
private theorem amountOf_foldl_add (sets : List CoinSet) (s : CoinSet) (denom : String) :
    (sets.foldl add s).amountOf denom =
      s.amountOf denom + (sets.map fun t => t.amountOf denom).sum := by
  induction sets generalizing s with
  | nil => simp
  | cons t rest ih => simp [ih, Nat.add_assoc]

/-- The amounts of a sum of several sets are the sums of the amounts. -/
theorem amountOf_sum (sets : List CoinSet) (denom : String) :
    (sum sets).amountOf denom = (sets.map fun t => t.amountOf denom).sum := by
  rw [sum, amountOf_foldl_add, amountOf_empty, Nat.zero_add]

/-- A sum may be taken from its first part on. -/
theorem sum_cons (s : CoinSet) (sets : List CoinSet) : sum (s :: sets) = s.add (sum sets) :=
  ext_amountOf fun denom => by simp [amountOf_sum]

/-- Nothing is added to the empty set but what is added. -/
theorem empty_add (s : CoinSet) : empty.add s = s := by
  apply ext_amountOf
  intro denom
  rw [amountOf_add, amountOf_empty, Nat.zero_add]

/-- A sum may be taken in two parts. -/
theorem sum_append (sets others : List CoinSet) :
    sum (sets ++ others) = (sum sets).add (sum others) := by
  apply ext_amountOf
  intro denom
  simp only [amountOf_add, amountOf_sum, List.map_append, List.sum_append]

/-- The order of its parts makes no difference to a sum. -/
theorem sum_perm {sets others : List CoinSet} (h : sets.Perm others) : sum sets = sum others := by
  apply ext_amountOf
  intro denom
  rw [amountOf_sum, amountOf_sum]
  exact (h.map fun s => s.amountOf denom).sum_eq

/-- Parts that hold nothing may be left out of a sum. -/
theorem sum_map_ite {α : Type} (p : α → Bool) (f : α → CoinSet) (l : List α) :
    sum (l.map fun x => if p x then f x else empty) = sum ((l.filter p).map f) := by
  induction l with
  | nil => rfl
  -- A part that holds nothing is the empty set, which adds nothing.
  | cons x rest ih =>
    rw [List.map_cons, sum_cons, ih, List.filter_cons]
    split
    · rw [List.map_cons, sum_cons]
    · rw [empty_add]

/-- If all parts hold some amount of a denomination, their sum holds it as often as there are parts.
-/
theorem length_mul_le_amountOf_sum {sets : List CoinSet} {denom : String} {least : Nat}
    (h : ∀ s ∈ sets, least ≤ s.amountOf denom) :
    sets.length * least ≤ (sum sets).amountOf denom := by
  have hamounts : ∀ n ∈ sets.map fun s => s.amountOf denom, least ≤ n := by
    intro n hn
    obtain ⟨s, hs, rfl⟩ := List.mem_map.1 hn
    exact h s hs
  -- A sum of numbers that are each at least so large is at least their number times that.
  have hsum := List.card_nsmul_le_sum _ least hamounts
  rwa [List.length_map, smul_eq_mul, ← amountOf_sum] at hsum

/-! ## Lists of coins -/

/-- Every coin has a proper denomination, and one coin may follow another one of its denomination
only where that is `allowed`. -/
structure Repeating (allowed : Coin → Coin → Prop) (coins : List Coin) : Prop where
  proper : ∀ c ∈ coins, Denom.check c.denom = .ok ()
  repeats : coins.Pairwise fun c d => c.denom = d.denom → allowed c d

/-- A denomination is repeated only behind coins of amount zero. -/
abbrev Acceptable (coins : List Coin) : Prop := Repeating (fun c _ => c.amount = 0) coins

/-- What the coins of a denomination amount to. -/
def totalOf (coins : List Coin) (denom : String) : Nat :=
  ((coins.filter fun c => c.denom = denom).map Coin.amount).sum

/-- The first coin counts in its own denomination. -/
theorem totalOf_cons (c : Coin) (rest : List Coin) (denom : String) :
    totalOf (c :: rest) denom = (if denom = c.denom then c.amount else 0) + totalOf rest denom := by
  unfold totalOf
  by_cases h : denom = c.denom
  · simp [h]
  · have hne : ¬c.denom = denom := fun heq => h heq.symm
    simp [h, hne]

/-- The first of several coins is put into the set if its denomination is proper and not held. -/
theorem insertCoins_cons_eq_ok {s r : CoinSet} {c : Coin} {rest : List Coin} :
    s.insertCoins (c :: rest) = .ok r ↔ Denom.check c.denom = .ok () ∧ s.amountOf c.denom = 0 ∧
      (s.put c.denom c.amount).insertCoins rest = .ok r := by
  rw [insertCoins]
  cases Denom.check c.denom with
  | error e => simp
  | ok u =>
    -- A denomination is held exactly if its amount is not zero.
    have hheld : s.holds c.denom = true ↔ ¬s.amountOf c.denom = 0 :=
      holds_iff.trans Nat.pos_iff_ne_zero
    by_cases hzero : s.amountOf c.denom = 0
    · have hfree : ¬s.holds c.denom = true := fun h => hheld.1 h hzero
      simp [hfree, hzero]
    · simp [hheld.2 hzero, hzero]

/-- Coins can be put into a set if they could make one of their own and the set holds nothing of
their denominations. -/
private theorem exists_insertCoins_iff {s : CoinSet} {coins : List Coin} :
    (∃ r, s.insertCoins coins = .ok r) ↔
      Acceptable coins ∧ ∀ c ∈ coins, s.amountOf c.denom = 0 := by
  -- The induction is on the coins, and generalises the set. It carries that the set holds nothing
  -- of the denominations to come.
  induction coins generalizing s with
  | nil => exact ⟨fun _ => ⟨⟨nofun, .nil⟩, nofun⟩, fun _ => ⟨s, rfl⟩⟩
  | cons c rest ih =>
    simp only [insertCoins_cons_eq_ok, exists_and_left, ih]
    constructor
    · rintro ⟨hcheck, hfirst, ⟨hproper, hrepeats⟩, hrest⟩
      have hput := amountOf_put s c.denom
      rw [Denom.check_eq_ok_iff.1 hcheck] at hput
      -- What is held of the denomination after the first coin is the amount of that coin.
      refine ⟨⟨List.forall_mem_cons.2 ⟨hcheck, hproper⟩,
        List.pairwise_cons.2 ⟨fun d hd heq => ?_, hrepeats⟩⟩,
        List.forall_mem_cons.2 ⟨hfirst, fun d hd => ?_⟩⟩
      · have hzero := hrest d hd
        -- The later coin finds the amount of the first one, which must be zero for it to be let in.
        rwa [hput, if_pos heq.symm, if_pos rfl] at hzero
      · have hzero := hrest d hd
        rw [hput] at hzero
        by_cases heq : d.denom = c.denom
        · rw [heq, hfirst]
        · rwa [if_neg heq] at hzero
    · rintro ⟨⟨hproper, hrepeats⟩, hfree⟩
      obtain ⟨hcheck, hproper⟩ := List.forall_mem_cons.1 hproper
      obtain ⟨hlater, hrepeats⟩ := List.pairwise_cons.1 hrepeats
      obtain ⟨hfirst, hfree⟩ := List.forall_mem_cons.1 hfree
      refine ⟨hcheck, hfirst, ⟨hproper, hrepeats⟩, fun d hd => ?_⟩
      rw [amountOf_put, if_pos (Denom.check_eq_ok_iff.1 hcheck)]
      split
      · next heq => exact hlater d hd heq.symm
      · exact hfree d hd

/-- Every coin adds its amount. -/
private theorem amountOf_insertCoins {s r : CoinSet} {coins : List Coin}
    (h : s.insertCoins coins = .ok r) (denom : String) :
    r.amountOf denom = s.amountOf denom + totalOf coins denom := by
  induction coins generalizing s with
  | nil =>
    cases h
    rfl
  | cons c rest ih =>
    obtain ⟨hcheck, hfirst, hrest⟩ := insertCoins_cons_eq_ok.1 h
    rw [ih hrest, amountOf_put, if_pos (Denom.check_eq_ok_iff.1 hcheck), totalOf_cons]
    split
    · -- The denomination was not held, so that the amount of the coin is all of it.
      next heq => rw [heq, hfirst, Nat.zero_add]
    · rw [Nat.zero_add]

/-- A list of coins makes a set exactly if it is acceptable. -/
theorem exists_ofCoins_iff {coins : List Coin} :
    (∃ s, ofCoins coins = .ok s) ↔ Acceptable coins := by
  rw [ofCoins, exists_insertCoins_iff]
  exact and_iff_left fun c _ => amountOf_empty c.denom

/-- The set of a list holds what its coins amount to. -/
theorem ofCoins_eq_ok_iff {coins : List Coin} {s : CoinSet} :
    ofCoins coins = .ok s ↔
      Acceptable coins ∧ ∀ denom, s.amountOf denom = totalOf coins denom := by
  have hamounts : ∀ {r}, ofCoins coins = .ok r →
      ∀ denom, r.amountOf denom = totalOf coins denom := by
    intro r hr denom
    rw [amountOf_insertCoins hr, amountOf_empty, Nat.zero_add]
  constructor
  · exact fun h => ⟨exists_ofCoins_iff.1 ⟨s, h⟩, hamounts h⟩
  · rintro ⟨hacceptable, hheld⟩
    -- There is a set for acceptable coins, and its amounts make it the one in question.
    obtain ⟨r, hr⟩ := exists_ofCoins_iff.2 hacceptable
    obtain rfl : r = s := ext_amountOf fun denom => (hamounts hr denom).trans (hheld denom).symm
    exact hr

/-- A set of one coin holds its amount, and nothing of any other denomination. -/
theorem amountOf_single {denom : String} {n : Nat} {s : CoinSet} (h : single denom n = .ok s)
    (x : String) : s.amountOf x = if x = denom then n else 0 := by
  unfold single at h
  cases hparts : Coin.ofParts denom n with
  | error e =>
    rw [hparts] at h
    cases h
  | ok c =>
    obtain ⟨-, rfl⟩ := Coin.ofParts_eq_ok_iff.1 hparts
    simp only [hparts] at h
    rw [(ofCoins_eq_ok_iff.1 h).2, totalOf_cons]
    rfl

/-- One coin of a proper denomination makes a set. -/
theorem exists_single_eq_ok {denom : String} (h : Denom.check denom = .ok ()) (n : Nat) :
    ∃ s, single denom n = .ok s := by
  have hparts : Coin.ofParts denom n = .ok ⟨denom, n⟩ :=
    Coin.ofParts_eq_ok_iff.2 ⟨Denom.check_eq_ok_iff.1 h, rfl⟩
  simp only [single, hparts]
  exact exists_ofCoins_iff.2 ⟨List.forall_mem_singleton.2 h, List.pairwise_singleton _ _⟩

/-- The coins of ascending entries amount to the entries. -/
private theorem totalOf_map {l : List (String × Nat)}
    (hasc : l.Pairwise fun a b => Before a.1 b.1) (denom : String) :
    totalOf (l.map fun e => ⟨e.1, e.2⟩) denom = amountIn l denom := by
  induction l with
  | nil => rfl
  | cons e rest ih =>
    rw [List.map_cons, totalOf_cons, amountIn_cons hasc, ih (List.pairwise_cons.1 hasc).2]

/-- A set is made up of its coins. -/
theorem ofCoins_toCoins (s : CoinSet) : ofCoins s.toCoins = .ok s := by
  refine ofCoins_eq_ok_iff.2 ⟨⟨fun c hc => ?_, ?_⟩, fun denom => ?_⟩
  · obtain ⟨e, he, rfl⟩ := List.mem_map.1 hc
    exact Denom.check_eq_ok_iff.2 (s.proper e he).1
  · -- Ascending denominations are different.
    refine List.pairwise_map.2 (s.amounts.ascending.imp fun hbefore heq => ?_)
    exact absurd heq (Before.ne hbefore)
  · exact (totalOf_map s.amounts.ascending denom).symm

/-! ## Comparison and difference -/

/-- A set covers another one if it holds at least as much of every denomination. -/
theorem covers_iff {a b : CoinSet} :
    a.covers b = true ↔ ∀ denom, b.amountOf denom ≤ a.amountOf denom := by
  simp only [covers, List.all_eq_true, Nat.ble_eq]
  -- Covering looks at the entries of the second set, which are the amounts that are positive.
  rw [forall_entries_iff (p := fun denom n => n ≤ a.amountOf denom)]
  constructor
  · intro h denom
    -- Nothing at all is covered by every set.
    rcases Nat.eq_zero_or_pos (b.amountOf denom) with hzero | hpos
    · rw [hzero]
      exact Nat.zero_le _
    · exact h denom hpos
  · exact fun h denom _ => h denom

/-- Entries can be taken away one by one exactly if some set makes up the whole together with them.
-/
private theorem withdraw_eq_ok {l : List (String × Nat)} (s r : CoinSet)
    (hasc : l.Pairwise fun a b => Before a.1 b.1) (hden : ∀ e ∈ l, Denom.isDenom e.1 = true) :
    s.withdraw l = .ok r ↔
      ∀ denom, r.amountOf denom + amountIn l denom = s.amountOf denom := by
  induction l generalizing s with
  | nil =>
    simp only [withdraw, Except.ok.injEq]
    exact ⟨fun h denom => by rw [h]; rfl, fun h => ext_amountOf fun denom => (h denom).symm⟩
  | cons e rest ih =>
    obtain ⟨denom, requested⟩ := e
    obtain ⟨he, hrest⟩ := List.pairwise_cons.1 hasc
    have hd : Denom.isDenom denom = true := hden _ List.mem_cons_self
    have hfirst : amountIn rest denom = 0 := by rw [amountIn, findIn_eq_none he]; rfl
    simp only [withdraw]
    split
    · next hlt =>
      -- The first amount is not covered, so that no set can make up the difference.
      refine ⟨(nomatch ·), fun h => ?_⟩
      have := h denom
      rw [amountIn_cons hasc, if_pos rfl] at this
      omega
    · next hle =>
      -- The first amount has been taken, and the rest is taken from what is left.
      rw [ih _ hrest fun d hd => hden d (List.mem_cons_of_mem _ hd)]
      refine forall_congr' fun x => ?_
      rw [amountOf_put, if_pos hd, amountIn_cons hasc]
      by_cases hx : x = denom
      · -- The denomination of the first entry is settled by it, and every other one by the rest.
        subst hx
        simp only [if_true, hfirst]
        omega
      · simp [hx]

/-- A difference is what makes up the whole together with what is taken away. -/
theorem sub?_eq_ok_iff {a b r : CoinSet} :
    a.sub? b = .ok r ↔ ∀ denom, r.amountOf denom + b.amountOf denom = a.amountOf denom :=
  withdraw_eq_ok a r b.amounts.ascending fun e he => (b.proper e he).1

/-- Entries of which the set holds enough can be taken away one by one. -/
private theorem exists_withdraw_eq_ok {l : List (String × Nat)} (s : CoinSet)
    (hasc : l.Pairwise fun a b => Before a.1 b.1) (hle : ∀ e ∈ l, e.2 ≤ s.amountOf e.1) :
    ∃ r, s.withdraw l = .ok r := by
  induction l generalizing s with
  | nil => exact ⟨s, rfl⟩
  | cons e rest ih =>
    obtain ⟨denom, requested⟩ := e
    obtain ⟨he, hrest⟩ := List.pairwise_cons.1 hasc
    have hfirst : requested ≤ s.amountOf denom := hle _ List.mem_cons_self
    simp only [withdraw, if_neg (Nat.not_lt.2 hfirst)]
    refine ih _ hrest fun d hd => ?_
    -- What is held of the later denominations has not been touched.
    have hne : d.1 ≠ denom := (Before.ne (he d hd)).symm
    rw [amountOf_put, if_neg hne]
    exact hle d (List.mem_cons_of_mem _ hd)

/-- What is covered can be taken away. -/
theorem exists_sub?_eq_ok {a b : CoinSet} (h : ∀ denom, b.amountOf denom ≤ a.amountOf denom) :
    ∃ r, a.sub? b = .ok r := by
  have hentries : ∀ e ∈ b.entries, e.2 ≤ a.amountOf e.1 :=
    (forall_entries_iff (p := fun denom n => n ≤ a.amountOf denom)).2 fun denom _ => h denom
  exact exists_withdraw_eq_ok a b.amounts.ascending hentries

end CoinSet

end ChainEconomy
