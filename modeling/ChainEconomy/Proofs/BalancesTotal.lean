import ChainEconomy.Ledger.Balances
import ChainEconomy.Proofs.CoinSetAlgebra

/-!
# The coins of all accounts

What the operations on balances do to the amount that all accounts hold together in a denomination.
Replacing one value changes a sum over a map by the new measure minus the old one, whether or not
the key had a value before, so that a credit adds to it, a debit takes away from it and a transfer
leaves it alone.

## Key results

- `OrderedMap.sumBy_insert`, `OrderedMap.sumBy_erase`: sums over the values of a map
- `held_put`: the change of one balance
- `held_credit`, `held_of_debit`, `held_of_transfer`, `held_creditAll`: the operations
- `amountOf_credit`, `amountOf_of_transfer`: account by account
- `exists_debit_eq_ok`, `exists_transfer_eq_ok`: coins that an account holds can be taken from it
-/

namespace ChainEconomy

namespace OrderedMap

open KeyOrder

variable {κ υ : Type} [KeyOrder κ]

/-- The sum of a measure over all values. -/
def sumBy (f : υ → Nat) (m : OrderedMap κ υ) : Nat := (m.entries.map fun e => f e.2).sum

/-- The new value counts instead of the one that was found under the key, which counts zero if there
was none. -/
private theorem sum_insertIn (f : υ → Nat) (k : κ) (v : υ) (l : List (κ × υ)) :
    ((insertIn k v l).map fun e => f e.2).sum + ((findIn k l).map f).getD 0 =
      (l.map fun e => f e.2).sum + f v := by
  -- The search for the key decides where both the new entry and the old value are: in front of an
  -- entry, at it, or behind it.
  induction l with
  | nil => simp [insertIn, findIn]
  | cons e rest ih =>
    simp only [insertIn, findIn]
    cases KeyOrder.cmp k e.1 with
    | lt => simp; omega
    | eq => simp; omega
    | gt => simp; omega

/-- What was found under the key no longer counts. -/
private theorem sum_eraseIn (f : υ → Nat) (k : κ) (l : List (κ × υ)) :
    ((eraseIn k l).map fun e => f e.2).sum + ((findIn k l).map f).getD 0 =
      (l.map fun e => f e.2).sum := by
  induction l with
  | nil => simp [eraseIn, findIn]
  | cons e rest ih =>
    -- As with insertion, the key is missing here, is the one of the entry, or may be further on.
    simp only [eraseIn, findIn]
    cases KeyOrder.cmp k e.1 with
    | lt => simp
    | eq => simp; omega
    | gt => simp; omega

/-- Inserting a value adds its measure and takes away that of the value it replaces. -/
theorem sumBy_insert (f : υ → Nat) (m : OrderedMap κ υ) (k : κ) (v : υ) :
    (m.insert k v).sumBy f + ((m.find? k).map f).getD 0 = m.sumBy f + f v :=
  sum_insertIn f k v m.entries

/-- Dropping a key takes away the measure of its value. -/
theorem sumBy_erase (f : υ → Nat) (m : OrderedMap κ υ) (k : κ) :
    (m.erase k).sumBy f + ((m.find? k).map f).getD 0 = m.sumBy f :=
  sum_eraseIn f k m.entries

end OrderedMap

/-- The total of several shares starts with the coins of the first one. -/
theorem Message.total_cons (s : Share) (shares : List Share) :
    total (s :: shares) = s.coins.add (total shares) :=
  CoinSet.sum_cons s.coins (shares.map Share.coins)

namespace Balances

/-- The amount of a denomination that all accounts hold together. -/
def held (b : Balances) (denom : String) : Nat := b.sets.sumBy fun s => s.amountOf denom

/-- An account that has no coins on record holds nothing of any denomination. -/
theorem balance_amountOf (b : Balances) (address : Address) (denom : String) :
    (b.balance address).amountOf denom =
      ((b.sets.find? address).map fun s => s.amountOf denom).getD 0 := by
  unfold balance
  cases b.sets.find? address <;> rfl

/-- Changing one balance changes what all accounts hold by the new amount minus the old one. -/
theorem held_put (b : Balances) (address : Address) (coins : CoinSet) (denom : String) :
    (b.put address coins).held denom + (b.balance address).amountOf denom =
      b.held denom + coins.amountOf denom := by
  -- The old balance is the value under the address, if there is one.
  rw [balance_amountOf]
  unfold put
  split
  · exact OrderedMap.sumBy_insert (fun s => s.amountOf denom) b.sets address coins
  · next h =>
    -- An account without coins is dropped.
    have hempty : coins = CoinSet.empty := CoinSet.isEmpty_iff.1 (by simpa using h)
    rw [hempty, CoinSet.amountOf_empty]
    exact OrderedMap.sumBy_erase (fun s => s.amountOf denom) b.sets address

/-! ## Credits and debits -/

/-- A credit adds to one account and leaves the others alone. -/
theorem balance_credit (b : Balances) (address x : Address) (coins : CoinSet) :
    (b.credit address coins).balance x =
      if x = address then (b.balance address).add coins else b.balance x :=
  balance_put b address x _

/-- A credit adds its coins to what one account holds, denomination by denomination. -/
theorem amountOf_credit (b : Balances) (address x : Address) (coins : CoinSet) (denom : String) :
    ((b.credit address coins).balance x).amountOf denom =
      (b.balance x).amountOf denom + if x = address then coins.amountOf denom else 0 := by
  rw [balance_credit]
  split
  · next h => rw [h, CoinSet.amountOf_add]
  · rfl

/-- A credit adds its coins to what all accounts hold. -/
theorem held_credit (b : Balances) (address : Address) (coins : CoinSet) (denom : String) :
    (b.credit address coins).held denom = b.held denom + coins.amountOf denom := by
  have h := held_put b address ((b.balance address).add coins) denom
  rw [CoinSet.amountOf_add] at h
  rw [credit]
  omega

/-- A debit leaves the account with what makes up its old balance together with the coins. -/
theorem debit_eq_ok_iff {b b' : Balances} {address : Address} {coins : CoinSet} :
    b.debit address coins = .ok b' ↔
      ∃ rest, (∀ denom, rest.amountOf denom + coins.amountOf denom =
        (b.balance address).amountOf denom) ∧ b.put address rest = b' := by
  unfold debit
  constructor
  · -- The subtraction is refused exactly if the account does not hold the coins.
    intro h
    cases hs : (b.balance address).sub? coins with
    | error e =>
      rw [hs] at h
      cases h
    | ok rest =>
      rw [hs] at h
      exact ⟨rest, CoinSet.sub?_eq_ok_iff.1 hs, Except.ok.inj h⟩
  · rintro ⟨rest, hrest, rfl⟩
    rw [CoinSet.sub?_eq_ok_iff.2 hrest]

/-- An account that holds the coins can be debited. -/
theorem exists_debit_eq_ok {b : Balances} {address : Address} {coins : CoinSet}
    (h : ∀ denom, coins.amountOf denom ≤ (b.balance address).amountOf denom) :
    ∃ b', b.debit address coins = .ok b' := by
  obtain ⟨rest, hrest⟩ := CoinSet.exists_sub?_eq_ok h
  exact ⟨b.put address rest, debit_eq_ok_iff.2 ⟨rest, CoinSet.sub?_eq_ok_iff.1 hrest, rfl⟩⟩

/-- A debit takes its coins from what all accounts hold. -/
theorem held_of_debit {b b' : Balances} {address : Address} {coins : CoinSet}
    (h : b.debit address coins = .ok b') (denom : String) :
    b'.held denom + coins.amountOf denom = b.held denom := by
  obtain ⟨rest, hrest, rfl⟩ := debit_eq_ok_iff.1 h
  have hput := held_put b address rest denom
  have := hrest denom
  omega

/-- A transfer is a debit and then a credit. -/
theorem transfer_eq_ok_iff {b b' : Balances} {source target : Address} {coins : CoinSet} :
    b.transfer source target coins = .ok b' ↔
      ∃ c, b.debit source coins = .ok c ∧ c.credit target coins = b' := by
  unfold transfer
  cases b.debit source coins with
  | error e => simp
  | ok c => simp

/-- What a transfer does to any account: the source is charged with the coins, and they are entered
for the target. -/
theorem amountOf_of_transfer {b b' : Balances} {source target : Address} {coins : CoinSet}
    (h : b.transfer source target coins = .ok b') (x : Address) (denom : String) :
    (b'.balance x).amountOf denom + (if x = source then coins.amountOf denom else 0) =
      (b.balance x).amountOf denom + if x = target then coins.amountOf denom else 0 := by
  obtain ⟨c, hdebit, rfl⟩ := transfer_eq_ok_iff.1 h
  obtain ⟨rest, hrest, rfl⟩ := debit_eq_ok_iff.1 hdebit
  have hleft := hrest denom
  -- The credit works on what the debit has left, also if both accounts are the same.
  rw [amountOf_credit, balance_put]
  by_cases hsource : x = source
  · rw [if_pos hsource, if_pos hsource, hsource]
    omega
  · rw [if_neg hsource, if_neg hsource, Nat.add_zero]

/-- An account that holds the coins can transfer them, and loses no others. -/
theorem exists_transfer_eq_ok {b : Balances} {source : Address} {coins : CoinSet}
    (h : ∀ denom, coins.amountOf denom ≤ (b.balance source).amountOf denom) (target : Address) :
    ∃ b', b.transfer source target coins = .ok b' ∧ ∀ denom,
      (b.balance source).amountOf denom ≤
        (b'.balance source).amountOf denom + coins.amountOf denom := by
  obtain ⟨c, hdebit⟩ := exists_debit_eq_ok h
  have htransfer : b.transfer source target coins = .ok (c.credit target coins) :=
    transfer_eq_ok_iff.2 ⟨c, hdebit, rfl⟩
  refine ⟨c.credit target coins, htransfer, fun denom => ?_⟩
  -- The account has been charged with the coins, and may have got them back if it is the target.
  have hmoved := amountOf_of_transfer htransfer source denom
  rw [if_pos rfl] at hmoved
  omega

/-! Moving no coins changes nothing. -/

/-- Every account can be charged with nothing. -/
theorem debit_empty (b : Balances) (address : Address) : b.debit address CoinSet.empty = .ok b := by
  -- The same balance is put in again.
  refine debit_eq_ok_iff.2 ⟨b.balance address, fun denom => rfl, ext_balance fun x => ?_⟩
  rw [balance_put]
  split
  · next h => rw [h]
  · rfl

/-- Nothing can be entered for any account. -/
theorem credit_empty (b : Balances) (address : Address) : b.credit address CoinSet.empty = b := by
  refine ext_balance fun x => ?_
  rw [balance_credit]
  split
  · next h => rw [h]; rfl
  · rfl

/-- Nothing can be moved between any accounts. -/
theorem transfer_empty (b : Balances) (source target : Address) :
    b.transfer source target CoinSet.empty = .ok b :=
  transfer_eq_ok_iff.2 ⟨b, b.debit_empty source, b.credit_empty target⟩

/-- A transfer leaves alone what all accounts hold together. -/
theorem held_of_transfer {b b' : Balances} {source target : Address} {coins : CoinSet}
    (h : b.transfer source target coins = .ok b') (denom : String) :
    b'.held denom = b.held denom := by
  obtain ⟨c, hdebit, rfl⟩ := transfer_eq_ok_iff.1 h
  rw [held_credit]
  exact held_of_debit hdebit denom

/-- Crediting shares adds all of their coins. -/
theorem held_creditAll (b : Balances) (shares : List Share) (denom : String) :
    (b.creditAll shares).held denom = b.held denom + (Message.total shares).amountOf denom := by
  induction shares generalizing b with
  | nil => rfl
  | cons s rest ih =>
    have hstep : b.creditAll (s :: rest) = (b.credit s.address s.coins).creditAll rest := rfl
    -- The first share is credited, and the others to what has come of it.
    rw [hstep, ih, held_credit, Message.total_cons, CoinSet.amountOf_add, Nat.add_assoc]

end Balances

end ChainEconomy
