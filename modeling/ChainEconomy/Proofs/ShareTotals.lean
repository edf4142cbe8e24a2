import ChainEconomy.Proofs.BalancesTotal
import ChainEconomy.Proofs.CoinDifference

/-!
# Credits by totals

A debit undoes a credit: it leaves the balances that are the old ones once the coins have been given
back. What several credits come to is a sum for each account, in which the order of the shares makes
no difference, and they can be undone if every account holds this sum.

## Key results

- `Message.totalFor`: what shares hold for an account
- `Balances.debit_eq_ok_iff_credit`: a debit undoes a credit
- `Balances.balance_creditAll`, `Balances.creditAll_perm`: what many credits come to
- `Balances.exists_creditAll_eq_iff`: when they can be undone
-/

namespace ChainEconomy

open Message (total)

/-- The sum of what several shares hold for an account. -/
def Message.totalFor (address : Address) (shares : List Share) : CoinSet :=
  total (shares.filter fun s => s.address = address)

namespace Message

/-- The first of several shares counts for its own account. -/
theorem totalFor_cons (address : Address) (s : Share) (rest : List Share) :
    totalFor address (s :: rest) =
      (if address = s.address then s.coins else CoinSet.empty).add (totalFor address rest) := by
  unfold totalFor
  rw [List.filter_cons]
  by_cases h : s.address = address
  · rw [if_pos (decide_eq_true h), if_pos h.symm, total_cons]
  · rw [if_neg (by simpa using h), if_neg (Ne.symm h), CoinSet.empty_add]

/-- The order of the shares makes no difference. -/
theorem total_perm {shares others : List Share} (h : shares.Perm others) :
    total shares = total others :=
  CoinSet.sum_perm (h.map Share.coins)

/-- The order of the shares makes no difference to any account. -/
theorem totalFor_perm {shares others : List Share} (h : shares.Perm others) (address : Address) :
    totalFor address shares = totalFor address others :=
  total_perm (h.filter _)

/-- Shares that are all of one account hold their sum for it. -/
theorem totalFor_of_forall {address : Address} {shares : List Share}
    (h : ∀ s ∈ shares, s.address = address) : totalFor address shares = total shares := by
  unfold totalFor
  rw [List.filter_eq_self.2 fun s hs => decide_eq_true (h s hs)]

/-- Shares hold nothing for an account that is not among theirs. -/
theorem totalFor_of_not_mem {address : Address} {shares : List Share}
    (h : address ∉ shares.map Share.address) : totalFor address shares = CoinSet.empty := by
  have hnone : shares.filter (fun s => s.address = address) = [] := by
    refine List.filter_eq_nil_iff.2 fun s hs hsame => h ?_
    exact List.mem_map.2 ⟨s, hs, of_decide_eq_true hsame⟩
  unfold totalFor
  rw [hnone]
  rfl

end Message

open Message (totalFor totalFor_cons totalFor_perm)

namespace Balances

variable {b c : Balances} {address : Address} {coins : CoinSet} {shares others : List Share}

/-- A debit undoes a credit: it leaves the balances that are the old ones once the coins have been
given back. -/
theorem debit_eq_ok_iff_credit : b.debit address coins = .ok c ↔ c.credit address coins = b := by
  rw [debit_eq_ok_iff]
  -- Balances are told apart by what the accounts hold.
  constructor
  · rintro ⟨rest, hrest, rfl⟩
    refine ext_balance fun x => ?_
    rw [balance_credit, balance_put, balance_put, if_pos rfl]
    split
    · next h => rw [h, CoinSet.sub?_eq_ok_iff_add.1 (CoinSet.sub?_eq_ok_iff.2 hrest)]
    · rfl
  · rintro rfl
    refine ⟨c.balance address, fun denom => ?_, ext_balance fun x => ?_⟩
    · rw [balance_credit, if_pos rfl, CoinSet.amountOf_add]
    · rw [balance_put, balance_credit]
      split
      · next h => rw [h]
      · rfl

/-- The first share is credited in front of the others. -/
theorem creditAll_cons (b : Balances) (s : Share) (rest : List Share) :
    b.creditAll (s :: rest) = (b.credit s.address s.coins).creditAll rest := rfl

/-- Every account is credited with the total that the shares hold for it. -/
theorem balance_creditAll (b : Balances) (shares : List Share) (x : Address) :
    (b.creditAll shares).balance x = (b.balance x).add (totalFor x shares) := by
  -- By induction on the shares, for any balances.
  induction shares generalizing b with
  | nil => exact (CoinSet.add_empty _).symm
  | cons s rest ih =>
    rw [creditAll_cons, ih, balance_credit, totalFor_cons, ← CoinSet.add_assoc]
    split
    · next h => rw [h]
    · rw [CoinSet.add_empty]

/-- Credits take nothing from any account. -/
theorem le_balance_creditAll (b : Balances) (shares : List Share) (x : Address) (denom : String) :
    (b.balance x).amountOf denom ≤ ((b.creditAll shares).balance x).amountOf denom := by
  rw [balance_creditAll, CoinSet.amountOf_add]
  exact Nat.le_add_right _ _

/-- The order of credits makes no difference. -/
theorem creditAll_perm (b : Balances) (h : shares.Perm others) :
    b.creditAll shares = b.creditAll others := by
  refine ext_balance fun x => ?_
  rw [balance_creditAll, balance_creditAll, totalFor_perm h]

/-- The first of several credits may as well be the last. -/
theorem creditAll_credit (b : Balances) (s : Share) (rest : List Share) :
    (b.creditAll rest).credit s.address s.coins = b.creditAll (s :: rest) := by
  have hlast : (b.creditAll rest).credit s.address s.coins = b.creditAll (rest ++ [s]) := by
    unfold creditAll
    rw [List.foldl_append, List.foldl_cons, List.foldl_nil]
  rw [hlast, creditAll_perm b (List.perm_append_singleton s rest)]

/-- Credits can be undone if every account holds its total. -/
theorem exists_creditAll_eq_iff :
    (∃ b : Balances, b.creditAll shares = c) ↔
      ∀ x, (c.balance x).covers (totalFor x shares) = true := by
  simp only [CoinSet.covers_iff]
  constructor
  · rintro ⟨b, rfl⟩ x denom
    rw [balance_creditAll, CoinSet.amountOf_add]
    exact Nat.le_add_left _ _
  · intro hcovers
    -- By induction on the shares: what covers all of them covers the first, which is taken back.
    induction shares generalizing c with
    | nil => exact ⟨c, rfl⟩
    | cons s rest ih =>
      simp only [totalFor_cons, CoinSet.amountOf_add] at hcovers
      have hfirst : ∀ denom, s.coins.amountOf denom ≤ (c.balance s.address).amountOf denom := by
        intro denom
        have hsum := hcovers s.address denom
        rw [if_pos rfl] at hsum
        omega
      obtain ⟨d, hdebit⟩ := exists_debit_eq_ok hfirst
      rw [debit_eq_ok_iff_credit] at hdebit
      -- What is left behind the first share covers the others.
      have hothers : ∀ x denom,
          (totalFor x rest).amountOf denom ≤ (d.balance x).amountOf denom := by
        intro x denom
        have hsum := hcovers x denom
        rw [← hdebit, balance_credit] at hsum
        split at hsum
        · next h =>
          rw [h, CoinSet.amountOf_add] at hsum
          rw [h]
          omega
        · rw [CoinSet.amountOf_empty] at hsum
          omega
      obtain ⟨b, rfl⟩ := ih hothers
      exact ⟨b, (b.creditAll_credit s rest).symm.trans hdebit⟩

end Balances

end ChainEconomy
