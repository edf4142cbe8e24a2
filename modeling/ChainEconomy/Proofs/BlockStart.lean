import ChainEconomy.Proofs.AccrualGrowth
import ChainEconomy.Proofs.BlockFaults

/-!
# The start of a block on a ledger

A ledger never turns down what minting asks it for: new coins go to the account of a module, and
both pools get their parts out of this account, which holds at least the new coins. Only the time
and the store can therefore end the start of a block, and they do so before any coin has moved.

## Key results

- `exists_issue_eq_ok`: new supply of a proper denomination can be issued
- `beginBlock_refused`: a start that is refused leaves the ledger as it was
- `exists_beginBlock_eq_ok`: a start at a proper time succeeds, and leaves its time in the store
- `beginBlock_untimely`: a start at any other time is refused for its time
-/

namespace ChainEconomy.Mint

open Attempt

/-! ## New supply -/

section

variable {denom : String} (hdenom : Denom.check denom = .ok ())
include hdenom

/-- Coins that the module of new supply holds can be moved to a pool, and it loses no others. -/
theorem exists_moveToPool_eq_ok (pool : String) {amount : Nat} {l : Ledger}
    (hfunds : amount ≤ (l.moduleBalance source).amountOf denom) :
    ∃ l', (moveToPool pool denom amount).run l = (.ok (), l') ∧
      (l.moduleBalance source).amountOf denom ≤
        (l'.moduleBalance source).amountOf denom + amount := by
  unfold moveToPool
  split
  · -- There is nothing to move, or one coin is made and transferred.
    exact ⟨l, rfl, Nat.le_add_right _ _⟩
  · obtain ⟨coins, hcoins⟩ := CoinSet.exists_single_eq_ok hdenom amount
    have hamount := CoinSet.amountOf_single hcoins
    have hheld : ∀ x, coins.amountOf x ≤
        (l.balances.balance (Address.ofModule source)).amountOf x := by
      intro x
      rw [hamount]
      split
      · next h => rw [h]; exact hfunds
      · exact Nat.zero_le _
    obtain ⟨b, htransfer, hleft⟩ := Balances.exists_transfer_eq_ok hheld (Address.ofModule pool)
    have hleft := hleft denom
    rw [hamount, if_pos rfl] at hleft
    refine ⟨{ l with balances := b }, run_bind_eq_ok.2 ⟨coins, l, ?_, ?_⟩, hleft⟩
    · exact run_ofExcept_eq_ok.2 ⟨Except.mapError_eq_ok_iff.2 hcoins, rfl⟩
    · exact run_change_eq_ok.2 (Except.mapError_eq_ok_iff.2
        (Ledger.transfer_eq_ok_iff.2 ⟨b, htransfer, rfl⟩))

/-- New supply of a proper denomination can always be issued on a ledger: the coins are there as
soon as they are minted, and the parts of both pools make them up. -/
theorem exists_issue_eq_ok (minted : Nat) (l : Ledger) :
    ∃ d l', (issue denom minted).run l = (.ok d, l') := by
  unfold issue
  split
  · exact ⟨_, l, rfl⟩
  · obtain ⟨coins, hcoins⟩ := CoinSet.exists_single_eq_ok hdenom minted
    obtain ⟨grown, hgrown, hheld⟩ : ∃ grown : Ledger, Bank.mint l source coins = .ok grown ∧
        minted ≤ (grown.moduleBalance source).amountOf denom := by
      refine ⟨_, rfl, ?_⟩
      -- The new coins have been entered for the module, on top of what it has held.
      show minted ≤ ((l.balances.credit (Address.ofModule source) coins).balance
        (Address.ofModule source)).amountOf denom
      rw [Balances.amountOf_credit, if_pos rfl, CoinSet.amountOf_single hcoins, if_pos rfl]
      exact Nat.le_add_left _ _
    -- The treasury takes half of the new coins, and the other half is still there afterwards.
    have htreasury : (split minted).treasury ≤ (grown.moduleBalance source).amountOf denom := by
      simp only [split]
      omega
    obtain ⟨halved, hfirst, hleft⟩ := exists_moveToPool_eq_ok hdenom treasuryPool htreasury
    have hrewards : (split minted).rewards ≤ (halved.moduleBalance source).amountOf denom := by
      simp only [split] at hleft ⊢
      omega
    obtain ⟨done, hsecond, -⟩ := exists_moveToPool_eq_ok hdenom rewardsPool hrewards
    refine ⟨split minted, done, ?_⟩
    -- The steps are put together in the order in which the coins are issued.
    refine run_bind_eq_ok.2 ⟨coins, l, run_ofExcept_eq_ok.2
      ⟨Except.mapError_eq_ok_iff.2 hcoins, rfl⟩, ?_⟩
    refine run_bind_eq_ok.2 ⟨(), grown, run_change_eq_ok.2
      (Except.mapError_eq_ok_iff.2 hgrown), ?_⟩
    refine run_bind_eq_ok.2 ⟨(), halved, hfirst, ?_⟩
    exact run_bind_eq_ok.2 ⟨(), done, hsecond, rfl⟩

end

/-! ## The start of a block -/

/-- A start that is refused has moved no coins: whatever can go wrong does so before new supply is
issued. -/
theorem beginBlock_refused {height : UInt64} {time : BlockTime} {params : Params}
    {w w' : World Ledger} {fault : ConsensusFault}
    (h : (beginBlock height time params).run w = (.error fault, w')) : w'.bank = w.bank := by
  cases beginBlock_eq_error_iff.1 h with
  | @bank _ _ _ accrual _ _ _ hrate _ _ _ _ _ hissue =>
    -- The denomination has passed the check of the parameters, so that issuing succeeds.
    have hdenom := (Params.check_eq_ok_iff.1 (usableRate_eq_ok hrate).1).1
    obtain ⟨d, l, hissued⟩ := exists_issue_eq_ok hdenom accrual.minted w.bank
    cases hissue.symm.trans hissued
  -- Every other fault leaves the whole world as it was, and with it the bank.
  | _ => rfl

/-- A start whose time does not follow the time in the store closely enough is refused before
anything has changed. -/
theorem beginBlock_untimely {β : Type} [Bank β] {height : UInt64} {time : BlockTime}
    {params : Params} {w : World β} {state : State} (hcheck : params.check = .ok ())
    (hstate : State.loadChecked w.store = .ok state) (hheight : height ≠ 1) {fault : ConsensusFault}
    (htime : elapsedWithin params.maxAccrualSeconds state.previousTime time = .error fault) :
    (beginBlock height time params).run w = (.error fault, w) := by
  obtain ⟨rate, hrate⟩ := exists_usableRate_eq_ok hcheck
  exact beginBlock_eq_error_iff.2 (.time hrate hstate hheight htime)

/-- The first block starts at any time, and a later one at a time that follows the time in the store
closely enough, as long as the store takes the state of the minter. This is what changes in the
store: it gets the time of the block, and less than a unit is left over. -/
theorem exists_beginBlock_eq_ok {height : UInt64} {time : BlockTime} {params : Params}
    {w : World Ledger} {state : State} (hcheck : params.check = .ok ())
    (hstate : State.loadChecked w.store = .ok state)
    (hwrite : w.store.medium.writeFailure Store.minterKey = none)
    (htime : height = 1 ∨
      ∃ elapsed, elapsedWithin params.maxAccrualSeconds state.previousTime time = .ok elapsed) :
    ∃ o w' leftover, (beginBlock height time params).run w = (.ok o, w') ∧
      State.save ⟨time, leftover⟩ w.store = .ok w'.store ∧
      State.check ⟨time, leftover⟩ = .ok () := by
  obtain ⟨rate, hrate⟩ := exists_usableRate_eq_ok hcheck
  -- Either block puts its state into the store first, which succeeds.
  have hpersist : ∀ saved : State, ∃ w', (persist saved).run w = (.ok (), w') ∧
      saved.save w.store = .ok w'.store := by
    intro saved
    have hsave : saved.save w.store = .ok _ := Store.set_eq_ok_iff.2 ⟨hwrite, rfl⟩
    exact ⟨⟨_, w.bank⟩, persist_eq_ok_iff.2 ⟨hsave, rfl⟩, hsave⟩
  have hsound := State.check_eq_ok_iff.1 (loadChecked_eq_ok_iff.1 hstate).2
  by_cases hone : height = 1
  · -- The first block has no time to check, and nothing to issue.
    obtain ⟨w', hrun, hsave⟩ := hpersist { state with previousTime := time }
    refine ⟨⟨height, 0, 0, split 0, state.leftover⟩, w', state.leftover, ?_, hsave,
      State.check_eq_ok_iff.2 hsound⟩
    refine run_bind_eq_ok.2 ⟨rate, w, run_ofExcept_eq_ok.2 ⟨hrate, rfl⟩, ?_⟩
    refine run_bind_eq_ok.2 ⟨state, w, run_read_eq_ok.2 ⟨hstate, rfl⟩, ?_⟩
    rw [if_pos hone]
    exact run_bind_eq_ok.2 ⟨(), w', hrun, rfl⟩
  · obtain ⟨elapsed, helapsed⟩ := htime.resolve_left hone
    generalize haccrual : accrue ((Bank.totalSupply w.bank).amountOf params.denom) rate
      state.leftover elapsed = accrual
    obtain ⟨saved, hrun, hsave⟩ := hpersist ⟨time, accrual.leftover⟩
    obtain ⟨d, l, hissue⟩ := exists_issue_eq_ok (Params.check_eq_ok_iff.1 hcheck).1 accrual.minted
      saved.bank
    refine ⟨⟨height, elapsed, accrual.minted, d, accrual.leftover⟩, ⟨saved.store, l⟩,
      accrual.leftover, ?_, hsave, State.check_eq_ok_iff.2 ?_⟩
    · refine run_bind_eq_ok.2 ⟨rate, w, run_ofExcept_eq_ok.2 ⟨hrate, rfl⟩, ?_⟩
      refine run_bind_eq_ok.2 ⟨state, w, run_read_eq_ok.2 ⟨hstate, rfl⟩, ?_⟩
      rw [if_neg hone]
      refine run_bind_eq_ok.2 ⟨elapsed, w, run_ofExcept_eq_ok.2 ⟨helapsed, rfl⟩, ?_⟩
      refine run_bind_eq_ok.2 ⟨w, w, rfl, ?_⟩
      dsimp only
      rw [haccrual]
      refine run_bind_eq_ok.2 ⟨(), saved, hrun, ?_⟩
      exact run_bind_eq_ok.2 ⟨d, _, run_within_eq_ok.2 ⟨l, hissue, rfl⟩, rfl⟩
    · -- The leftover of an accrual is a fraction, which is what makes the state sound.
      rw [← haccrual]
      exact accrue_leftover_isBelowOne _ _ _ _

end ChainEconomy.Mint
