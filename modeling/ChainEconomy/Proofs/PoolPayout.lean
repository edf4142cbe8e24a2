import ChainEconomy.Proofs.StartFaults

/-!
# What minting pays out

New supply goes through the account of a module to two pools. Seen from outside, it only ever
appears in the pools: what is credited to the module is charged to it again, in two parts that make
up the whole, so that it does not matter how many coins the module has held before. As long as the
accounts of the module and of the pools are different ones, each pool grows by its own part, and all
other accounts stay as they are.

On a ledger nothing can go wrong with this, so that a block that has passed all checks in front of
the bank is successful.

## Key results

- `PaysPools`: a ledger from which new supply has been paid out to the pools
- `moveToPool_amounts`, `issue_amounts`: what the steps do to any account
- `issue_paysPools`: issuing pays the pools
- `beginBlock_pays_pools`: the start of a block that mints
-/

namespace ChainEconomy

/-- A set of coins has become larger by an amount of one denomination, and in no other one. -/
def CoinSet.GrowsBy (denom : String) (amount : Nat) (before after : CoinSet) : Prop :=
  ∀ x, after.amountOf x = before.amountOf x + if x = denom then amount else 0

/-- Coins that have grown by nothing are the same coins. -/
theorem CoinSet.eq_of_growsBy_zero {denom : String} {before after : CoinSet}
    (h : GrowsBy denom 0 before after) : after = before := by
  refine ext_amountOf fun x => ?_
  rw [h x, ite_self, Nat.add_zero]

namespace Mint

open Attempt

/-- The ledger `l'` differs from `l` in new supply that has been paid out to the pools, and in
nothing else. -/
structure PaysPools (denom : String) (minted : Nat) (l l' : Ledger) : Prop where
  supply : CoinSet.GrowsBy denom minted l.supply l'.supply
  /-- The treasury gets half of it, rounded down. -/
  treasury : CoinSet.GrowsBy denom (minted / 2) (l.moduleBalance treasuryPool)
    (l'.moduleBalance treasuryPool)
  rewards : CoinSet.GrowsBy denom (minted - minted / 2) (l.moduleBalance rewardsPool)
    (l'.moduleBalance rewardsPool)
  /-- The module that the new coins have gone through. -/
  source : l'.moduleBalance source = l.moduleBalance source
  others : ∀ x, x ∉ [treasuryPool, rewardsPool].map Address.ofModule → l'.balance x = l.balance x
  names : l'.names = l.names
  credits : l'.credits = l.credits
  pricing : l'.pricing = l.pricing

/-- The module of new supply and the pools have accounts of their own. -/
theorem accounts_nodup : ([source, treasuryPool, rewardsPool].map Address.ofModule).Nodup := by
  decide +kernel

/-- Different ones of these modules have different accounts. -/
theorem ofModule_ne {a b : String} (ha : a ∈ [source, treasuryPool, rewardsPool])
    (hb : b ∈ [source, treasuryPool, rewardsPool]) (hne : a ≠ b) :
    Address.ofModule a ≠ Address.ofModule b :=
  fun h => hne (List.inj_on_of_nodup_map accounts_nodup ha hb h)

/-! ## Account by account -/

/-- Moving coins to a pool changes balances only: the module is charged, and the pool gets as much.
-/
theorem moveToPool_amounts {pool denom : String} {amount : Nat} {l l' : Ledger}
    (h : (moveToPool pool denom amount).run l = (.ok (), l')) :
    (∃ b, { l with balances := b } = l') ∧ ∀ x y,
      (l'.balance x).amountOf y +
          (if x = Address.ofModule source ∧ y = denom then amount else 0) =
        (l.balance x).amountOf y + if x = Address.ofModule pool ∧ y = denom then amount else 0 := by
  -- Nothing is moved if there is nothing to move.
  obtain ⟨rfl, rfl⟩ | ⟨coins, hcoins, htransfer⟩ := moveToPool_eq_ok h
  · exact ⟨⟨l'.balances, rfl⟩, by simp⟩
  · obtain ⟨b, hb, rfl⟩ := Ledger.transfer_eq_ok_iff.1 htransfer
    refine ⟨⟨b, rfl⟩, fun x y => ?_⟩
    have hmoved := Balances.amountOf_of_transfer hb x y
    rw [CoinSet.amountOf_single hcoins] at hmoved
    simp only [ite_and]
    exact hmoved

/-- What an account gets of new supply: nothing, unless it is the account of a pool. -/
def share (minted : Nat) (x : Address) : Nat :=
  (if x = Address.ofModule treasuryPool then minted / 2 else 0) +
    if x = Address.ofModule rewardsPool then minted - minted / 2 else 0

/-- Issuing changes balances and supply only, and hands out the shares. -/
theorem issue_amounts {denom : String} {minted : Nat} {l l' : Ledger} {d : Distribution}
    (h : (issue denom minted).run l = (.ok d, l')) :
    (∃ b supply, { l with balances := b, supply := supply } = l') ∧ ∀ x y,
      (l'.balance x).amountOf y =
        (l.balance x).amountOf y + if y = denom then share minted x else 0 := by
  -- Nothing is issued if nothing is minted.
  obtain ⟨rfl, rfl⟩ | ⟨coins, halved, hcoins, htreasury, hrewards⟩ := issue_eq_ok h
  · exact ⟨⟨l'.balances, l'.supply, rfl⟩, by simp [share]⟩
  · obtain ⟨⟨b, rfl⟩, hfirst⟩ := moveToPool_amounts htreasury
    obtain ⟨⟨b', rfl⟩, hsecond⟩ := moveToPool_amounts hrewards
    refine ⟨⟨b', l.supply.add coins, rfl⟩, fun x y => ?_⟩
    have hgrown := Balances.amountOf_credit l.balances (Address.ofModule source) x coins y
    have hhalved := hfirst x y
    have hpaid := hsecond x y
    rw [CoinSet.amountOf_single hcoins] at hgrown
    simp only [Ledger.balance, split] at hgrown hhalved hpaid ⊢
    unfold share
    by_cases hy : y = denom
    · simp only [hy, and_true, if_true] at hgrown hhalved hpaid ⊢
      -- The module is charged with both parts of what it has got.
      by_cases hx : x = Address.ofModule source
      · rw [if_pos hx] at hgrown hhalved hpaid
        omega
      · rw [if_neg hx] at hgrown hhalved hpaid
        omega
    · simp only [hy, and_false, if_false, ite_self] at hgrown hhalved hpaid ⊢
      omega

/-- The treasury gets half of new supply, rounded down. -/
theorem share_treasury (minted : Nat) :
    share minted (Address.ofModule treasuryPool) = minted / 2 := by
  have hne : Address.ofModule treasuryPool ≠ Address.ofModule rewardsPool :=
    ofModule_ne (by decide) (by decide) (by decide)
  rw [share, if_pos rfl, if_neg hne, Nat.add_zero]

/-- The pool of rewards gets what is left. -/
theorem share_rewards (minted : Nat) :
    share minted (Address.ofModule rewardsPool) = minted - minted / 2 := by
  have hne : Address.ofModule rewardsPool ≠ Address.ofModule treasuryPool :=
    ofModule_ne (by decide) (by decide) (by decide)
  rw [share, if_neg hne, if_pos rfl, Nat.zero_add]

/-- No other account gets anything. -/
theorem share_eq_zero {minted : Nat} {x : Address}
    (h : x ∉ [treasuryPool, rewardsPool].map Address.ofModule) : share minted x = 0 := by
  rw [List.map_cons, List.map_cons, List.mem_cons, List.mem_cons, not_or, not_or] at h
  obtain ⟨htreasury, hrewards, -⟩ := h
  rw [share, if_neg htreasury, if_neg hrewards]

/-- Issuing pays the pools. -/
theorem issue_paysPools {denom : String} {minted : Nat} {l l' : Ledger} {d : Distribution}
    (h : (issue denom minted).run l = (.ok d, l')) : PaysPools denom minted l l' := by
  obtain ⟨⟨b, supply, hfields⟩, hamounts⟩ := issue_amounts h
  have hgrows : ∀ x, CoinSet.GrowsBy denom (share minted x) (l.balance x) (l'.balance x) :=
    fun x y => hamounts x y
  -- An account without a share has the same coins in every denomination.
  have hothers : ∀ x, x ∉ [treasuryPool, rewardsPool].map Address.ofModule →
      l'.balance x = l.balance x := by
    intro x hx
    have hgrow := hgrows x
    rw [share_eq_zero hx] at hgrow
    exact CoinSet.eq_of_growsBy_zero hgrow
  have hsource : Address.ofModule source ∉ [treasuryPool, rewardsPool].map Address.ofModule :=
    (List.nodup_cons.1 accounts_nodup).1
  have htreasury := hgrows (Address.ofModule treasuryPool)
  have hrewards := hgrows (Address.ofModule rewardsPool)
  rw [share_treasury] at htreasury
  rw [share_rewards] at hrewards
  have hsupply : CoinSet.GrowsBy denom minted l.supply l'.supply := issue_supply h
  have hnames : l'.names = l.names := by rw [← hfields]
  have hcredits : l'.credits = l.credits := by rw [← hfields]
  have hpricing : l'.pricing = l.pricing := by rw [← hfields]
  exact ⟨hsupply, htreasury, hrewards, hothers _ hsource, hothers, hnames, hcredits, hpricing⟩

/-! ## Block by block -/

variable {time : BlockTime} {params : Params} {s : Logged Ledger}

/-- A block has minted the amount of its outcome: it went to the pools, was reported, and the store
got the state that the next block goes on with. -/
structure MintsBlock (time : BlockTime) (params : Params) (state : State) (elapsed : UInt64)
    (o : Outcome) (s s' : Logged Ledger) : Prop where
  /-- The amount is what the supply in front of the block has earned. -/
  accrued : ∃ rate, params.rate = .ok rate ∧
    accrue (s.world.bank.supply.amountOf params.denom) rate state.leftover elapsed =
      ⟨o.minted, o.leftover⟩
  paid : PaysPools params.denom o.minted s.world.bank s'.world.bank
  saved : State.load s'.world.store = .ok (some ⟨time, o.leftover⟩)
  entries : ∀ key, key ≠ Store.minterKey →
    s'.world.store.entries.find? key = s.world.store.entries.find? key
  medium : s'.world.store.medium = s.world.store.medium
  reported : s'.log = s.log ++ [.ofPairs "mint" [("minted_amount", toString o.minted)]]

/-- A later block that passes the checks of its parameters, of the state in the store and of its
time, and whose new state the store takes, is successful, whatever the accounts of the ledger hold.
It changes the supply, the pools and the state of the minter, and makes one report, which is all
that the start without a log lacks. -/
theorem beginBlock_pays_pools {height : UInt64} {state : State} {elapsed : UInt64}
    (hchecks : ChecksTime height params s.world.store state)
    (htime : elapsedWithin params.maxAccrualSeconds state.previousTime time = .ok elapsed)
    (hwrite : s.world.store.medium.writeFailure Store.minterKey = none) :
    ∃ o s', (beginBlock height time params).run s.world = (.ok o, s'.world) ∧
      (beginBlockLogged height time params).run s = (.ok o, s') ∧
      MintsBlock time params state elapsed o s s' := by
  -- The checks of the block are those that its success asks for.
  have hstate : State.loadChecked s.world.store = .ok state :=
    loadChecked_eq_ok_iff.2 ⟨hchecks.loaded, State.check_eq_ok_iff.2 hchecks.sound⟩
  obtain ⟨o, w', -, hrun, -, -⟩ :=
    exists_beginBlock_eq_ok hchecks.params hstate hwrite (.inr ⟨elapsed, htime⟩)
  refine ⟨o, ⟨w', s.log ++ o.events⟩, hrun, ?_, ?_⟩
  · rw [run_beginBlockLogged, hrun]
  -- What the run consists of says what it has changed.
  obtain ⟨rate, found, seconds, accrual, d, hrate, hfound, hseconds, haccrual, hsave, hissue,
    rfl⟩ := beginBlock_later_eq_ok hchecks.height hrun
  cases hstate.symm.trans hfound
  cases htime.symm.trans hseconds
  obtain ⟨-, hstore⟩ := Store.set_eq_ok_iff.1 hsave
  have hentries : ∀ key, key ≠ Store.minterKey →
      w'.store.entries.find? key = s.world.store.entries.find? key := by
    intro key hkey
    rw [← hstore]
    exact OrderedMap.find?_insert_of_ne _ _ hkey
  have hevents : Outcome.events ⟨height, elapsed, accrual.minted, d, accrual.leftover⟩ =
      [.ofPairs "mint" [("minted_amount", toString accrual.minted)]] := by
    rw [Outcome.events, if_neg hchecks.height]
  exact {
    accrued := ⟨rate, (usableRate_eq_ok hrate).2, haccrual⟩
    paid := issue_paysPools hissue
    saved := State.load_save hchecks.loaded hsave
    entries := hentries
    medium := Store.medium_of_set hsave
    reported := congrArg (s.log ++ ·) hevents }

/-- Three seconds after the start of the sample, whose supply of 1000 grows by a tenth in each: the
new 331 coins are parted into 165 and 166. -/
theorem beginBlock_pays_pools_sample :
    ∃ o s', (beginBlockLogged 2 ⟨3000000⟩ Chain.Sample.genesis.economy.mintParams).run
        ⟨Chain.world Chain.Sample.chain, []⟩ = (.ok o, s') ∧
      (s'.world.bank.moduleBalance treasuryPool).amountOf "utoll" = 165 ∧
      (s'.world.bank.moduleBalance rewardsPool).amountOf "utoll" = 166 ∧
      s'.log = [.ofPairs "mint" [("minted_amount", "331")]] := by
  have hcheck : Chain.Sample.genesis.economy.mintParams.check = .ok () :=
    Except.eq_ok_of_isOk (by decide +kernel)
  obtain ⟨state, hload, rfl⟩ : ∃ state, State.load Chain.Sample.chain.store = .ok state ∧
      state = some State.genesis :=
    Except.exists_of_toOption_map (f := id) (by decide +kernel)
  obtain ⟨rate, hrate, rfl⟩ : ∃ rate, Chain.Sample.genesis.economy.mintParams.rate = .ok rate ∧
      rate = ⟨100000000000000000⟩ :=
    Except.exists_of_toOption_map (f := id) (by decide +kernel)
  have hchecks : ChecksTime 2 Chain.Sample.genesis.economy.mintParams Chain.Sample.chain.store
      State.genesis := ⟨by decide, hcheck, hload, by decide⟩
  have htime : elapsedWithin Chain.Sample.genesis.economy.mintParams.maxAccrualSeconds
      State.genesis.previousTime ⟨3000000⟩ = .ok 3 := by rfl
  obtain ⟨o, s', -, hrun, hmints⟩ := beginBlock_pays_pools
    (s := ⟨Chain.world Chain.Sample.chain, []⟩) hchecks htime (by decide +kernel)
  -- The amount is found by evaluating the accrual, and what follows from it is read off the
  -- theorem.
  obtain ⟨rate, hrate', haccrued⟩ := hmints.accrued
  cases hrate.symm.trans hrate'
  have hminted : o.minted = 331 := by
    have hgrown := congrArg Accrual.minted haccrued
    exact hgrown.symm.trans (by decide +kernel)
  have htreasury := hmints.paid.treasury "utoll"
  have hrewards := hmints.paid.rewards "utoll"
  have hlog := hmints.reported
  rw [hminted] at htreasury hrewards hlog
  refine ⟨o, s', hrun, htreasury.trans (by decide +kernel), hrewards.trans (by decide +kernel), ?_⟩
  rw [hlog]
  decide +kernel

end Mint

end ChainEconomy
