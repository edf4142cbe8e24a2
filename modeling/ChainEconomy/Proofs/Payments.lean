import ChainEconomy.Proofs.LedgerEffects

/-!
# What an account pays

An account has paid a value if it holds less than before by exactly this value, in every
denomination. Payments of an account add up, whatever else happens to the ledger in between, so that
what several steps cost is the sum of what each of them costs.

## Key results

- `Ledger.Pays`: an account has paid a value, and nothing has come back
- `Ledger.Pays.of_pay`, `Ledger.Pays.of_debitAll`: payments, and the inputs of a transfer
-/

namespace ChainEconomy.Ledger

/-- The account has paid a value, in every denomination. -/
def Pays (payer : Address) (value : CoinSet) (l l' : Ledger) : Prop :=
  ∀ denom, (l'.balance payer).amountOf denom + value.amountOf denom =
    (l.balance payer).amountOf denom

variable {payer : Address}

/-- Where balances stay, nothing is paid. -/
theorem Pays.of_balances {l l' : Ledger} (h : l'.balances = l.balances) :
    Pays payer CoinSet.empty l l' := by
  intro denom
  rw [balance, balance, h]
  rfl

/-- What happens to names and credits afterwards makes no difference. -/
theorem Pays.congr {value : CoinSet} {l t l' : Ledger} (h : Pays payer value l t)
    (hbalances : l'.balances = t.balances) : Pays payer value l l' := by
  intro denom
  rw [balance, hbalances]
  exact h denom

/-- Payments one after the other add up. -/
theorem Pays.trans {first second : CoinSet} {l t l' : Ledger} (hfirst : Pays payer first l t)
    (hsecond : Pays payer second t l') : Pays payer (first.add second) l l' := by
  intro denom
  have h₁ := hfirst denom
  have h₂ := hsecond denom
  rw [CoinSet.amountOf_add]
  omega

/-- A payment to another account costs the coins that are paid. -/
theorem Pays.of_pay {target : Address} {coins : CoinSet} {l l' : Ledger} (htarget : target ≠ payer)
    (h : l.pay payer target coins = .ok l') : Pays payer coins l l' := by
  obtain ⟨b, htransfer, rfl⟩ := pay_eq_ok_iff.1 h
  intro denom
  have hmoved := Balances.amountOf_of_transfer htransfer payer denom
  -- Nothing is entered for the payer.
  rw [if_pos rfl, if_neg htarget.symm, Nat.add_zero] at hmoved
  exact hmoved

/-- Taking inputs that are all of one account costs it their sum. -/
theorem Pays.of_debitAll {inputs : List Share} {l l' : Ledger}
    (hinputs : ∀ s ∈ inputs, s.address = payer) (h : (debitAll inputs).run l = (.ok (), l')) :
    Pays payer (Message.total inputs) l l' := by
  obtain ⟨b, hb, rfl⟩ := debitAll_eq_ok_iff.1 h
  intro denom
  rw [balance, balance, ← hb, Balances.balance_creditAll, Message.totalFor_of_forall hinputs,
    CoinSet.amountOf_add]

/-- Coins for other accounts do not change a balance. -/
theorem balance_creditAll_of_not_mem {outputs : List Share} (b : Balances)
    (h : payer ∉ outputs.map Share.address) :
    (b.creditAll outputs).balance payer = b.balance payer := by
  rw [Balances.balance_creditAll, Message.totalFor_of_not_mem h, CoinSet.add_empty]

end ChainEconomy.Ledger
