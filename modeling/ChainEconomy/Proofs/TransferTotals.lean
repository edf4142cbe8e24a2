import ChainEconomy.Proofs.LedgerEffects
import ChainEconomy.Proofs.Reachable

/-!
# Transfers between many accounts go by totals

The inputs of a transfer are taken one after the other from balances that get smaller, and an
account may occur among them, and among the outputs, as often as it likes. All the same it is the
totals that count. Taking an input undoes crediting it, so that taking all of them leaves the
balances that, credited with the inputs, are the old ones; and what accounts are credited with is a
sum, in which the order of the parts makes no difference.

A transfer that fails is another matter: the inputs in front of the one that is not covered have
been taken by then, and which ones these are depends on the order.

## Key results

- `Ledger.multiSend_eq_ok_iff`: successful transfers, without their steps
- `Ledger.multiSend_by_totals`: when a transfer succeeds, and with which ledger
- `Ledger.order_shows_in_failure`: a failure, in two orders
-/

namespace ChainEconomy

open Message (totalFor)

/-- A transfer is as well formed as any other one with the same shares. -/
theorem Message.check_multiSend_perm {inputs outputs inputs' outputs' : List Share}
    (hinputs : inputs.Perm inputs') (houtputs : outputs.Perm outputs') :
    (multiSend inputs' outputs').check = (multiSend inputs outputs).check := by
  have hempty : ∀ {shares others : List Share}, shares.Perm others →
      others.isEmpty = shares.isEmpty := fun h => by
    rw [Bool.eq_iff_iff, List.isEmpty_iff_length_eq_zero, List.isEmpty_iff_length_eq_zero,
      h.length_eq]
  -- Shares count in the check by whether there are any, and by their sum.
  simp only [check, hempty hinputs, hempty houtputs, total_perm hinputs, total_perm houtputs]

namespace Ledger

variable {inputs outputs inputs' outputs' : List Share} {l l' : Ledger}

/-! ## Successful transfers -/

/-- A transfer that succeeds takes its inputs and hands out its outputs, and changes nothing else.
-/
theorem multiSend_eq_ok_iff :
    (multiSend inputs outputs).run l = (.ok (), l') ↔
      ∃ b : Balances, b.creditAll inputs = l.balances ∧
        { l with balances := b.creditAll outputs } = l' := by
  constructor
  · intro h
    obtain ⟨taken, htaken, rfl⟩ := multiSend_eq_ok h
    obtain ⟨b, hb, rfl⟩ := debitAll_eq_ok_iff.1 htaken
    exact ⟨b, hb, rfl⟩
  · rintro ⟨b, hb, rfl⟩
    exact Attempt.run_bind_eq_ok.2 ⟨(), _, debitAll_eq_ok_iff.2 ⟨b, hb, rfl⟩, rfl⟩

/-- A transfer succeeds or fails, with the same ledger in the first case, whatever the order of its
shares is. -/
theorem multiSend_eq_ok_perm (hinputs : inputs.Perm inputs') (houtputs : outputs.Perm outputs') :
    (multiSend inputs' outputs').run l = (.ok (), l') ↔
      (multiSend inputs outputs).run l = (.ok (), l') := by
  simp only [multiSend_eq_ok_iff]
  refine exists_congr fun b => ?_
  rw [b.creditAll_perm hinputs, b.creditAll_perm houtputs]

/-- The order of the outputs does not show at all. -/
theorem multiSend_outputs_perm (inputs : List Share) (houtputs : outputs.Perm outputs') :
    multiSend inputs outputs' = multiSend inputs outputs := by
  have hcredit : ∀ b : Balances, b.creditAll outputs' = b.creditAll outputs := fun b =>
    b.creditAll_perm houtputs.symm
  simp only [multiSend, hcredit]

/-- A transfer between many accounts succeeds exactly if every account holds the sum of its inputs.
Every account then has its old balance without this sum and with the sum of its outputs. In another
order, the inputs and the outputs make a message that is as well formed, that succeeds or fails as
the first one does, and that leaves the same ledger if it succeeds; where it fails, it leaves the
same ledger as long as the inputs are in the same order. -/
theorem multiSend_by_totals (inputs outputs : List Share) (l : Ledger) :
    ((∃ l', (apply (.multiSend inputs outputs)).run l = (.ok (), l')) ↔
      ∀ x, (l.balance x).covers (totalFor x inputs) = true) ∧
    (∀ l', (apply (.multiSend inputs outputs)).run l = (.ok (), l') →
      ∀ x, ∃ left, (l.balance x).sub? (totalFor x inputs) = .ok left ∧
        l'.balance x = left.add (totalFor x outputs)) ∧
    ∀ inputs' outputs', inputs.Perm inputs' → outputs.Perm outputs' →
      (Message.multiSend inputs' outputs').check = (Message.multiSend inputs outputs).check ∧
      (∀ l', (apply (.multiSend inputs' outputs')).run l = (.ok (), l') ↔
        (apply (.multiSend inputs outputs)).run l = (.ok (), l')) ∧
      (apply (.multiSend inputs outputs')).run l = (apply (.multiSend inputs outputs)).run l := by
  refine ⟨?_, fun l' h x => ?_, fun inputs' outputs' hinputs houtputs => ⟨?_, fun l' => ?_, ?_⟩⟩
  · -- The inputs can be taken if there is a table from which adding them gives the old one.
    calc (∃ l', (multiSend inputs outputs).run l = (.ok (), l'))
        ↔ ∃ b : Balances, b.creditAll inputs = l.balances := by
          simp only [multiSend_eq_ok_iff]
          exact ⟨fun ⟨_, b, hb, _⟩ => ⟨b, hb⟩, fun ⟨b, hb⟩ => ⟨_, b, hb, rfl⟩⟩
      _ ↔ ∀ x, (l.balance x).covers (totalFor x inputs) = true :=
          Balances.exists_creditAll_eq_iff
  · obtain ⟨b, hb, rfl⟩ := multiSend_eq_ok_iff.1 h
    refine ⟨b.balance x, CoinSet.sub?_eq_ok_iff_add.2 ?_, b.balance_creditAll outputs x⟩
    rw [balance, ← hb, Balances.balance_creditAll]
  · exact Message.check_multiSend_perm hinputs houtputs
  · exact multiSend_eq_ok_perm hinputs houtputs
  · exact congrArg (fun m => Attempt.run m l) (multiSend_outputs_perm inputs houtputs)

namespace Sample

open Chain.Sample (account coins genesis)

/-- The inputs of a transfer that leaves the funded account without coins in between. -/
def halves : List Share :=
  [⟨account 1, coins 400⟩, ⟨account 2, CoinSet.empty⟩, ⟨account 1, coins 600⟩]

/-- Its outputs, of which the first one goes back to where the inputs come from. -/
def parts : List Share := [⟨account 1, coins 300⟩, ⟨account 2, coins 700⟩]

end Sample

open Chain.Sample (account coins genesis) in
/-- Shares that are turned around still empty the funded account and share out its coins. -/
theorem multiSend_by_totals_sample :
    (Message.multiSend Sample.halves.reverse Sample.parts.reverse).check = .ok () ∧
      ∃ l', (apply (.multiSend Sample.halves.reverse Sample.parts.reverse)).run genesis.ledger =
          (.ok (), l') ∧
        l'.balance (account 1) = coins 300 ∧ l'.balance (account 2) = coins 700 := by
  obtain ⟨-, hbalance, hperm⟩ := multiSend_by_totals Sample.halves Sample.parts genesis.ledger
  obtain ⟨hcheck, hsame, -⟩ := hperm Sample.halves.reverse Sample.parts.reverse
    (List.reverse_perm _).symm (List.reverse_perm _).symm
  have hrun := Attempt.run_eq_ok_of_isOk
    (x := apply (.multiSend Sample.halves Sample.parts)) (s := genesis.ledger) (by decide +kernel)
  have hvalid : (Message.multiSend Sample.halves Sample.parts).check = .ok () := by
    decide +kernel
  -- The inputs take all there is, and what the outputs bring is all there is afterwards.
  have hleft : ∀ x ∈ [account 1, account 2],
      (genesis.ledger.balance x).sub? (totalFor x Sample.halves) = .ok CoinSet.empty := by
    decide +kernel
  have hparts : ∀ x ∈ [account 1, account 2],
      ((apply (.multiSend Sample.halves Sample.parts)).run genesis.ledger).2.balance x =
        totalFor x Sample.parts := by
    intro x hx
    obtain ⟨left, htaken, hgiven⟩ := hbalance _ hrun x
    cases (hleft x hx).symm.trans htaken
    exact hgiven.trans (CoinSet.empty_add _)
  refine ⟨hcheck.trans hvalid, _, (hsame _).2 hrun, ?_, ?_⟩
  · exact (hparts (account 1) (by simp)).trans (by decide +kernel)
  · exact (hparts (account 2) (by simp)).trans (by decide +kernel)

open Chain.Sample (account coins genesis) in
/-- Of two inputs, one is covered and the other one is not. If the covered one comes first, it is
taken before the transfer fails, and it stays taken. -/
theorem order_shows_in_failure :
    let covered : Share := ⟨account 1, coins 5⟩
    let missing : Share := ⟨account 2, coins 10⟩
    let outputs : List Share := [⟨account 3, coins 15⟩]
    let first := (apply (.multiSend [covered, missing] outputs)).run genesis.ledger
    let second := (apply (.multiSend [missing, covered] outputs)).run genesis.ledger
    (Message.multiSend [covered, missing] outputs).check = .ok () ∧
      [covered, missing].Perm [missing, covered] ∧
      first.1 = .error (.bank (.insufficientFunds (account 2) (coins 10))) ∧
      second.1 = .error (.bank (.insufficientFunds (account 2) (coins 10))) ∧
      first.2.balance (account 1) = coins 995 ∧ second.2.balance (account 1) = coins 1000 ∧
      first.2 ≠ second.2 := by
  decide +kernel

end Ledger

end ChainEconomy
