import ChainEconomy.Coin
import ChainEconomy.OrderedMap

/-! # Sets of coins

Amounts in several denominations at once. A set keeps the denominations in ascending order, holds
only proper denominations and never an amount of zero, so that two sets with the same amounts are
equal. `amountOf` is the view; `amountOf_put` says what changing one amount does to it,
`mem_entries_iff` which entries it stands for, and `ext_amountOf` that the amounts determine the
set. -/

namespace ChainEconomy

/-- Amounts by denomination, all of them positive. -/
structure CoinSet where
  amounts : OrderedMap String Nat
  proper : ∀ e ∈ amounts.entries, Denom.isDenom e.1 = true ∧ 0 < e.2

namespace CoinSet

instance : DecidableEq CoinSet := fun a b =>
  decidable_of_iff (a.amounts = b.amounts) (by cases a; cases b; simp)

/-- The set that holds nothing. -/
def empty : CoinSet := ⟨.empty, by simp [OrderedMap.empty]⟩

instance : EmptyCollection CoinSet := ⟨empty⟩

instance : Inhabited CoinSet := ⟨empty⟩

/-- The denominations with their amounts, ascending. -/
def entries (s : CoinSet) : List (String × Nat) := s.amounts.entries

/-- The amount held in a denomination, zero if there is none. -/
def amountOf (s : CoinSet) (denom : String) : Nat := (s.amounts.find? denom).getD 0

/-- Whether the set holds nothing. -/
def isEmpty (s : CoinSet) : Bool := s.entries.isEmpty

/-- The number of denominations held. -/
def size (s : CoinSet) : Nat := s.entries.length

/-- The denominations held, ascending. -/
def denoms (s : CoinSet) : List String := s.amounts.keys

/-- Whether the set holds a denomination. -/
def holds (s : CoinSet) (denom : String) : Bool := s.amounts.contains denom

/-- The coins of the set, by ascending denomination. -/
def toCoins (s : CoinSet) : List Coin := s.entries.map fun e => ⟨e.1, e.2⟩

/-- The set with one amount changed: zero, and any amount of an improper denomination, is left out.
-/
def put (s : CoinSet) (denom : String) (amount : Nat) : CoinSet :=
  if h : Denom.isDenom denom = true ∧ 0 < amount then
    ⟨s.amounts.insert denom amount, fun e he => by
      rcases OrderedMap.mem_entries_insert he with rfl | he
      · exact h
      · exact s.proper e he⟩
  else
    ⟨s.amounts.erase denom, fun e he => s.proper e (OrderedMap.mem_entries_of_mem_erase he)⟩

/-- Adds coins one by one; a denomination already held is refused. A coin of amount zero is dropped,
and does not count as held. -/
def insertCoins (s : CoinSet) : List Coin → Except CoinError CoinSet
  | [] => .ok s
  | c :: rest =>
    match Denom.check c.denom with
    | .error e => .error e
    | .ok () =>
      -- A coin of amount zero has left no trace in `s`, so that its denomination may come again.
      if s.holds c.denom then .error (.duplicateDenom c.denom)
      else insertCoins (s.put c.denom c.amount) rest

/-- The set of a list of coins. -/
def ofCoins (coins : List Coin) : Except CoinError CoinSet := insertCoins empty coins

/-- The set of one coin; empty when the amount is zero. -/
def single (denom : String) (amount : Nat) : Except CoinError CoinSet :=
  match Coin.ofParts denom amount with
  | .error e => .error e
  | .ok c => ofCoins [c]

/-- The set with more of one denomination. -/
def deposit (s : CoinSet) (e : String × Nat) : CoinSet := s.put e.1 (s.amountOf e.1 + e.2)

/-- The sum of two sets. -/
def add (a b : CoinSet) : CoinSet := b.entries.foldl deposit a

instance : Add CoinSet := ⟨add⟩

/-- The sum of a list of sets. -/
def sum (sets : List CoinSet) : CoinSet := sets.foldl add empty

/-- Takes amounts away one by one, up to the first that is not covered. -/
def withdraw (s : CoinSet) : List (String × Nat) → Except CoinError CoinSet
  | [] => .ok s
  | (denom, requested) :: rest =>
    let available := s.amountOf denom
    if available < requested then .error (.insufficient denom available requested)
    else withdraw (s.put denom (available - requested)) rest

/-- The difference of two sets; refused if any amount would go below zero. -/
def sub? (a b : CoinSet) : Except CoinError CoinSet := a.withdraw b.entries

/-- Whether `a` holds at least what `b` holds, in every denomination. -/
def covers (a b : CoinSet) : Bool := b.entries.all fun e => Nat.ble e.2 (a.amountOf e.1)

/-- Whether `a` strictly dominates `b`: a set that is not empty dominates the empty one, and any
other if it holds more of each of its denominations. -/
def dominates (a b : CoinSet) : Bool :=
  if a.isEmpty then false
  else if b.isEmpty then true
  -- A denomination that `a` does not hold at all settles the matter.
  else if !(Nat.ble b.size a.size && b.denoms.all a.holds) then false
  else b.entries.all fun e => Nat.blt e.2 (a.amountOf e.1)

/-! ## Amounts determine the set -/

@[simp] theorem amountOf_empty (denom : String) : empty.amountOf denom = 0 := rfl

/-- A denomination with an entry is proper, and its amount is positive. -/
theorem find?_eq_some {s : CoinSet} {denom : String} {n : Nat}
    (h : s.amounts.find? denom = some n) :
    Denom.isDenom denom = true ∧ 0 < n :=
  s.proper _ (OrderedMap.find?_eq_some_iff.1 h)

/-- After one amount is changed, it is the new one if its denomination is proper, and all others are
as before. -/
theorem amountOf_put (s : CoinSet) (denom x : String) (n : Nat) :
    (s.put denom n).amountOf x =
      if x = denom then (if Denom.isDenom denom = true then n else 0) else s.amountOf x := by
  unfold put amountOf
  split
  · next h =>
    rw [OrderedMap.find?_insert]
    split <;> simp [h.1]
  · next h =>
    rw [OrderedMap.find?_erase]
    split
    · split
      · next hd =>
        have : n = 0 := Nat.eq_zero_of_not_pos fun hn => h ⟨hd, hn⟩
        simp [this]
      · rfl
    · rfl

/-- A denomination is held exactly if its amount is positive. -/
theorem holds_iff {s : CoinSet} {denom : String} : s.holds denom = true ↔ 0 < s.amountOf denom := by
  unfold holds OrderedMap.contains amountOf
  cases hf : s.amounts.find? denom with
  | none => simp
  | some n => simpa using (find?_eq_some hf).2

/-- The entry of a denomination is there exactly if its amount is positive. -/
theorem find?_eq_ite (s : CoinSet) (denom : String) :
    s.amounts.find? denom = if 0 < s.amountOf denom then some (s.amountOf denom) else none := by
  unfold amountOf
  cases hf : s.amounts.find? denom with
  | none => simp
  | some n => simp [(find?_eq_some hf).2]

/-- The entries are the amounts that are not zero. -/
theorem mem_entries_iff {s : CoinSet} {denom : String} {n : Nat} :
    (denom, n) ∈ s.entries ↔ 0 < n ∧ s.amountOf denom = n := by
  rw [entries, ← OrderedMap.find?_eq_some_iff, find?_eq_ite]
  constructor
  · intro h
    split at h
    · next hpos =>
      obtain rfl := Option.some.inj h
      exact ⟨hpos, rfl⟩
    · cases h
  · rintro ⟨hpos, rfl⟩
    rw [if_pos hpos]

/-- The denominations of a set are those with a positive amount. -/
theorem mem_denoms_iff {s : CoinSet} {denom : String} :
    denom ∈ s.denoms ↔ 0 < s.amountOf denom := by
  constructor
  · intro h
    obtain ⟨⟨d, n⟩, hmem, rfl⟩ := List.mem_map.1 h
    obtain ⟨hpos, hn⟩ := mem_entries_iff.1 hmem
    exact hn ▸ hpos
  · intro h
    exact List.mem_map.2 ⟨(denom, s.amountOf denom), mem_entries_iff.2 ⟨h, rfl⟩, rfl⟩

/-- What holds of every entry holds of every amount that is not zero. -/
theorem forall_entries_iff {s : CoinSet} {p : String → Nat → Prop} :
    (∀ e ∈ s.entries, p e.1 e.2) ↔ ∀ denom, 0 < s.amountOf denom → p denom (s.amountOf denom) := by
  constructor
  · intro h denom hpos
    exact h (denom, s.amountOf denom) (mem_entries_iff.2 ⟨hpos, rfl⟩)
  · rintro h ⟨denom, n⟩ hmem
    obtain ⟨hpos, rfl⟩ := mem_entries_iff.1 hmem
    exact h denom hpos

/-- Two sets with the same amounts are equal. -/
theorem ext_amountOf {a b : CoinSet} (h : ∀ denom, a.amountOf denom = b.amountOf denom) :
    a = b := by
  have : a.amounts = b.amounts :=
    OrderedMap.ext_find? fun denom => by rw [find?_eq_ite, find?_eq_ite, h]
  cases a; cases b; cases this; rfl

/-- Only the set that holds nothing is empty. -/
theorem isEmpty_iff {s : CoinSet} : s.isEmpty = true ↔ s = empty := by
  constructor
  · intro h
    refine ext_amountOf fun denom => ?_
    have hnil : s.amounts.entries = [] := by simpa [isEmpty, entries] using h
    simp [amountOf, OrderedMap.find?, hnil, OrderedMap.findIn, empty, OrderedMap.empty]
  · rintro rfl
    rfl

end CoinSet

end ChainEconomy
