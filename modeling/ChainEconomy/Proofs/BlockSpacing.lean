import ChainEconomy.Proofs.AccrualGrowth
import ChainEconomy.Proofs.RecordRoundTrip
import ChainEconomy.Proofs.SupplyConservation

/-!
# Spacing of blocks

However an interval is divided into blocks, the blocks together never mint more than one accrual
over the whole of it. Every block accrues from the whole units of the supply that it finds and puts
the fraction aside, and it drops the part of a second that is left; both make the supply grow more
slowly.

The invariant compares the supply and the fraction in the store, in atomic units, with the growth of
the first supply over the whole seconds that have passed.

## Key results

- `processBlock_growth`: what one block makes of supply and fraction
- `processBlocks_growth`: what a run of blocks makes of them
- `processBlocks_minted_le`: the blocks of a run mint at most what one accrual mints
-/

namespace ChainEconomy.Chain

/-- Processes blocks of ascending heights, the first of which has the given height. -/
def processBlocks (height : UInt64) :
    List (BlockTime × List Transaction) → Attempt Chain ConsensusFault (List Outcome)
  | [] => pure []
  | (time, txs) :: rest => do
    let outcome ← processBlock height time txs
    let outcomes ← processBlocks (height + 1) rest
    return outcome :: outcomes

/-- What a run of blocks has minted. -/
def totalMinted (outcomes : List Outcome) : Nat := (outcomes.map fun o => o.mint.minted).sum

/-- The whole seconds between two times. -/
def secondsBetween (start finish : BlockTime) : Nat :=
  (finish.micros.toNat - start.micros.toNat) / BlockTime.microsPerSecond

/-- The seconds between two times fit into a word, as times do. -/
theorem secondsBetween_lt (start finish : BlockTime) : secondsBetween start finish < 2 ^ 64 := by
  -- Both times count microseconds in a word, of which there are a million in each second.
  have hbound : finish.micros.toNat < 2 ^ 64 := finish.micros.toNat_lt
  unfold secondsBetween BlockTime.microsPerSecond
  omega

/-- Seconds that are counted are the seconds between two times. -/
theorem toNat_of_wholeSecondsSince {previous current : BlockTime} {seconds : UInt64}
    (h : current.wholeSecondsSince previous = some seconds) :
    seconds.toNat = secondsBetween previous current := by
  unfold BlockTime.wholeSecondsSince at h
  split at h
  · cases h
  · cases h
    exact UInt64.toNat_ofNat_of_lt' (secondsBetween_lt previous current)

/-- Dividing an interval loses whole seconds, if anything. -/
theorem secondsBetween_add_le {a b c : BlockTime} (hab : a.micros.toNat ≤ b.micros.toNat)
    (hbc : b.micros.toNat ≤ c.micros.toNat) :
    secondsBetween a b + secondsBetween b c ≤ secondsBetween a c := by
  -- Two quotients that are cut off add up to no more than the quotient of the sum.
  unfold secondsBetween BlockTime.microsPerSecond
  omega

/-! ## The records of minting -/

/-- Parameters and state of the minter, as they are in the store. -/
structure Mints (c : Chain) (params : Mint.Params) (state : Mint.State) : Prop where
  params : Governance.loadMint c.store = .ok params
  state : Mint.State.load c.store = .ok (some state)

/-- A block that saves a state of the minter and nothing else keeps the parameters. -/
theorem Mints.save {c c' : Chain} {params : Mint.Params} {state state' : Mint.State}
    (h : c.Mints params state) (hsave : state'.save c.store = .ok c'.store) :
    c'.Mints params state' where
  params := by
    -- Parameters and state of the minter are under different keys.
    have hkey : Mint.Params.key ≠ Store.minterKey := by decide
    have hload : Mint.Params.load c'.store = Mint.Params.load c.store :=
      Store.getRecord_setRecord_of_ne _ hsave hkey
    have hparams := h.params
    unfold Governance.loadMint at hparams ⊢
    rw [hload]
    exact hparams
  state := Mint.State.load_save h.state hsave

/-- There is one state in a store. -/
theorem Mints.state_eq {c : Chain} {params : Mint.Params} {state state' : Mint.State}
    (h : c.Mints params state) (hload : Mint.State.load c.store = .ok (some state')) :
    state' = state :=
  Option.some.inj (Except.ok.inj (hload.symm.trans h.state))

/-! ## Growth -/

/-- Supply and leftover, in atomic units. -/
def atomicSupply (c : Chain) (denom : String) (leftover : Fixed) : Nat :=
  c.ledger.supply.amountOf denom * Fixed.unit + leftover.atomics

/-- A block makes the supply grow by what it mints. -/
theorem Mints.supply_eq {height : UInt64} {time : BlockTime} {txs : List Transaction}
    {c c' : Chain} {o : Outcome} {params : Mint.Params} {state : Mint.State}
    (hmints : c.Mints params state)
    (h : (processBlock height time txs).run c = (.ok o, c')) :
    c'.ledger.supply.amountOf params.denom =
      c.ledger.supply.amountOf params.denom + o.mint.minted := by
  obtain ⟨params', hparams', hsupply⟩ := supply_of_processBlock h
  have hsame : params' = params := Except.ok.inj (hparams'.symm.trans hmints.params)
  rw [hsupply, hsame, if_pos rfl]

/-- The first block puts its time into the store and mints nothing. -/
theorem processBlock_one {time : BlockTime} {txs : List Transaction} {c c' : Chain} {o : Outcome}
    {params : Mint.Params} {state : Mint.State} (hmints : c.Mints params state)
    (h : (processBlock 1 time txs).run c = (.ok o, c')) :
    c'.Mints params ⟨time, state.leftover⟩ ∧ o.mint.minted = 0 := by
  obtain ⟨found, mint, w, schedule, tally, hfound, hmint, -, -, hstore, rfl⟩ :=
    processBlock_eq_ok_iff.1 h
  obtain ⟨state', hload, hsave, -, rfl⟩ := Mint.beginBlock_one_eq_ok hmint
  have hstate : state' = state := hmints.state_eq (Mint.loadChecked_eq_ok_iff.1 hload).1
  rw [hstate, ← hstore] at hsave
  exact ⟨hmints.save hsave, rfl⟩

/-- A later block mints the whole units of an accrual over the seconds since the last block, and
puts its leftover into the store. -/
theorem processBlock_later {height : UInt64} (hne : height ≠ 1) {time : BlockTime}
    {txs : List Transaction} {c c' : Chain} {o : Outcome} {params : Mint.Params} {rate : Fixed}
    {state : Mint.State} (hmints : c.Mints params state) (hrate : params.rate = .ok rate)
    (h : (processBlock height time txs).run c = (.ok o, c')) :
    ∃ seconds accrual, seconds.toNat = secondsBetween state.previousTime time ∧
      Mint.accrue (c.ledger.supply.amountOf params.denom) rate state.leftover seconds = accrual ∧
      c'.Mints params ⟨time, accrual.leftover⟩ ∧ o.mint.minted = accrual.minted := by
  obtain ⟨found, mint, w, schedule, tally, hfound, hmint, -, -, hstore, rfl⟩ :=
    processBlock_eq_ok_iff.1 h
  obtain ⟨rate', state', elapsed, accrual, distribution, hrate', hload, helapsed, haccrual, hsave,
    -, rfl⟩ := Mint.beginBlock_later_eq_ok hne hmint
  -- Parameters, state and rate that the block found are those that are in the store.
  have hparams : found.mint = params :=
    Except.ok.inj ((loadMint_of_loadParams hfound).symm.trans hmints.params)
  have hstate : state' = state := hmints.state_eq (Mint.loadChecked_eq_ok_iff.1 hload).1
  subst hparams hstate
  have hsame : rate' = rate :=
    Except.ok.inj ((Mint.usableRate_eq_ok hrate').2.symm.trans hrate)
  rw [hsame] at haccrual
  rw [← hstore] at hsave
  -- The seconds that are counted are those between the times, by the check of the time.
  have hseconds := toNat_of_wholeSecondsSince (Mint.elapsedWithin_eq_ok helapsed).1
  exact ⟨elapsed, accrual, hseconds, haccrual, hmints.save hsave, rfl⟩

/-- A block of any height makes supply and leftover grow by no more than they grow in the seconds
that have passed. -/
theorem processBlock_growth {height : UInt64} {time : BlockTime} {txs : List Transaction}
    {c c' : Chain} {o : Outcome} {params : Mint.Params} {rate : Fixed} {state : Mint.State}
    (hmints : c.Mints params state) (hrate : params.rate = .ok rate)
    (h : (processBlock height time txs).run c = (.ok o, c')) :
    ∃ leftover, c'.Mints params ⟨time, leftover⟩ ∧
      c'.atomicSupply params.denom leftover ≤
        (Mint.grow rate)^[secondsBetween state.previousTime time]
          (c.atomicSupply params.denom state.leftover) := by
  have hsupply := hmints.supply_eq h
  -- Without an accrual nothing grows, which is no more than the growth of the seconds.
  by_cases hone : height = 1
  · subst hone
    obtain ⟨hmints', hnothing⟩ := processBlock_one hmints h
    refine ⟨state.leftover, hmints', ?_⟩
    unfold atomicSupply
    rw [hsupply, hnothing, Nat.add_zero]
    exact Mint.le_iterate_grow rate _ _
  · obtain ⟨seconds, accrual, hseconds, haccrual, hmints', hminted⟩ :=
      processBlock_later hone hmints hrate h
    refine ⟨accrual.leftover, hmints', ?_⟩
    unfold atomicSupply
    rw [hsupply, hminted, ← hseconds]
    exact Mint.accrue_growth_le haccrual

/-! ## Runs -/

/-- A successful run is a successful first block and a successful run of the others. -/
theorem processBlocks_cons_eq_ok {height : UInt64} {time : BlockTime} {txs : List Transaction}
    {rest : List (BlockTime × List Transaction)} {c c' : Chain} {os : List Outcome}
    (h : (processBlocks height ((time, txs) :: rest)).run c = (.ok os, c')) :
    ∃ o next os', (processBlock height time txs).run c = (.ok o, next) ∧
      (processBlocks (height + 1) rest).run next = (.ok os', c') ∧ os = o :: os' := by
  obtain ⟨o, next, hblock, h⟩ := Attempt.run_bind_eq_ok.1 h
  obtain ⟨os', _, hrest, h⟩ := Attempt.run_bind_eq_ok.1 h
  obtain ⟨rfl, rfl⟩ := Attempt.run_pure_eq_ok.1 h
  exact ⟨o, next, os', hblock, hrest, rfl⟩

/-- The time of the last block, or of the one before if there are none. -/
def lastTime (before : BlockTime) (blocks : List (BlockTime × List Transaction)) : BlockTime :=
  (blocks.map Prod.fst).getLastD before

/-- Every block is later than those before it, and than the one before all of them. -/
def Ascending (before : BlockTime) (blocks : List (BlockTime × List Transaction)) : Prop :=
  (before :: blocks.map Prod.fst).Pairwise fun t t' => t.micros.toNat < t'.micros.toNat

instance (before : BlockTime) (blocks : List (BlockTime × List Transaction)) :
    Decidable (Ascending before blocks) :=
  inferInstanceAs (Decidable (List.Pairwise _ _))

/-- A run ascends if its first block is later than the one before and the others ascend from there.
-/
theorem ascending_cons_iff {before time : BlockTime} {txs : List Transaction}
    {rest : List (BlockTime × List Transaction)} :
    Ascending before ((time, txs) :: rest) ↔
      before.micros.toNat < time.micros.toNat ∧
        (∀ t ∈ rest.map Prod.fst, before.micros.toNat < t.micros.toNat) ∧ Ascending time rest := by
  unfold Ascending
  rw [List.map_cons, List.pairwise_cons, List.forall_mem_cons, and_assoc]

/-- The last block of an ascending run is no earlier than the one before it. -/
theorem Ascending.le_lastTime {before : BlockTime} {blocks : List (BlockTime × List Transaction)}
    (h : Ascending before blocks) :
    before.micros.toNat ≤ (lastTime before blocks).micros.toNat := by
  -- The invariant is that the time of the block in front is no later than the last one.
  induction blocks generalizing before with
  | nil => exact Nat.le_refl _
  | cons b rest ih =>
    obtain ⟨hfirst, -, hrest⟩ := ascending_cons_iff.1 h
    have hlast : lastTime before (b :: rest) = lastTime b.1 rest := List.getLastD_cons
    rw [hlast]
    exact Nat.le_trans (Nat.le_of_lt hfirst) (ih hrest)

/-- A run makes the supply grow by what it mints, and supply and leftover by no more than they grow
in the seconds from the block before it to its last one. -/
theorem processBlocks_growth {params : Mint.Params} {rate : Fixed} (hrate : params.rate = .ok rate)
    {height : UInt64} {blocks : List (BlockTime × List Transaction)} {c c' : Chain}
    {os : List Outcome} {state : Mint.State} (hmints : c.Mints params state)
    (htimes : Ascending state.previousTime blocks)
    (h : (processBlocks height blocks).run c = (.ok os, c')) :
    ∃ leftover, c'.Mints params ⟨lastTime state.previousTime blocks, leftover⟩ ∧
      c'.ledger.supply.amountOf params.denom =
        c.ledger.supply.amountOf params.denom + totalMinted os ∧
      c'.atomicSupply params.denom leftover ≤
        (Mint.grow rate)^[secondsBetween state.previousTime (lastTime state.previousTime blocks)]
          (c.atomicSupply params.denom state.leftover) := by
  -- The induction is on the blocks. It carries the records in the store, and supply and leftover as
  -- far as they have grown by then.
  induction blocks generalizing height c os state with
  | nil =>
    obtain ⟨rfl, rfl⟩ := Attempt.run_pure_eq_ok.1 h
    exact ⟨state.leftover, hmints, rfl, Mint.le_iterate_grow rate _ _⟩
  | cons b rest ih =>
    obtain ⟨time, txs⟩ := b
    obtain ⟨hfirst, -, hrest⟩ := ascending_cons_iff.1 htimes
    obtain ⟨o, next, os', hblock, hblocks, rfl⟩ := processBlocks_cons_eq_ok h
    obtain ⟨left, hnext, hgrowth⟩ := processBlock_growth hmints hrate hblock
    obtain ⟨leftover, hmints', hminted, hgrowth'⟩ := ih hnext hrest hblocks
    have hlast : lastTime state.previousTime ((time, txs) :: rest) = lastTime time rest :=
      List.getLastD_cons
    -- The seconds of the first block and those of the others are at most the seconds of all.
    have hseconds := secondsBetween_add_le (Nat.le_of_lt hfirst) hrest.le_lastTime
    rw [hlast]
    refine ⟨leftover, hmints', ?_, ?_⟩
    · rw [hminted, hmints.supply_eq hblock, Nat.add_assoc]
      rfl
    · -- The others grow on from what the first block has left; growth over two stretches of seconds
      -- is growth over their sum, and this sum is no more than the seconds from start to end.
      calc c'.atomicSupply params.denom leftover
          ≤ (Mint.grow rate)^[secondsBetween time (lastTime time rest)]
              (next.atomicSupply params.denom left) := hgrowth'
        _ ≤ (Mint.grow rate)^[secondsBetween time (lastTime time rest)]
              ((Mint.grow rate)^[secondsBetween state.previousTime time]
                (c.atomicSupply params.denom state.leftover)) :=
            Mint.iterate_grow_mono rate _ hgrowth
        _ = (Mint.grow rate)^[secondsBetween state.previousTime time +
              secondsBetween time (lastTime time rest)]
                (c.atomicSupply params.denom state.leftover) := by
            rw [Nat.add_comm, Function.iterate_add_apply]
        _ ≤ _ := Mint.iterate_grow_le rate hseconds _

/-- Blocks mint at most as much as a single accrual. A run of successful blocks from height one on,
with any transactions, at ascending times and from a state of the minter without a leftover, mints
no more than one accrual on the first supply over all whole seconds from the first block to the
last. -/
theorem processBlocks_minted_le {c c' : Chain} {params : Mint.Params} {rate : Fixed}
    {before first : BlockTime} {txs : List Transaction}
    {rest : List (BlockTime × List Transaction)} {os : List Outcome}
    (hparams : Governance.loadMint c.store = .ok params) (hrate : params.rate = .ok rate)
    (hstate : Mint.State.load c.store = .ok (some ⟨before, Fixed.zero⟩))
    (htimes : Ascending first rest)
    (hrun : (processBlocks 1 ((first, txs) :: rest)).run c = (.ok os, c')) :
    totalMinted os ≤ (Mint.accrue (c.ledger.supply.amountOf params.denom) rate Fixed.zero
      (UInt64.ofNat (secondsBetween first (lastTime first rest)))).minted := by
  obtain ⟨o, next, os', hblock, hblocks, rfl⟩ := processBlocks_cons_eq_ok hrun
  have hmints : c.Mints params ⟨before, Fixed.zero⟩ := ⟨hparams, hstate⟩
  -- The first block only puts its time into the store.
  obtain ⟨hnext, hnothing⟩ := processBlock_one hmints hblock
  obtain ⟨leftover, -, hminted, hgrowth⟩ := processBlocks_growth hrate hnext htimes hblocks
  have hsupply : next.ledger.supply.amountOf params.denom =
      c.ledger.supply.amountOf params.denom := by
    rw [hmints.supply_eq hblock, hnothing, Nat.add_zero]
  have htotal : totalMinted (o :: os') = totalMinted os' := by
    rw [totalMinted, List.map_cons, List.sum_cons, hnothing, Nat.zero_add]
    rfl
  have hstart : next.atomicSupply params.denom Fixed.zero =
      c.ledger.supply.amountOf params.denom * Fixed.unit := by
    rw [atomicSupply, hsupply]
    exact Nat.add_zero _
  -- The leftover of the last block is not minted, and may be left out.
  have hend : (c.ledger.supply.amountOf params.denom + totalMinted os') * Fixed.unit ≤
      c'.atomicSupply params.denom leftover := by
    rw [atomicSupply, hminted, hsupply]
    exact Nat.le_add_right _ _
  -- The seconds of the whole run fit into a word, which the accrual counts them in.
  have hseconds : (UInt64.ofNat (secondsBetween first (lastTime first rest))).toNat =
      secondsBetween first (lastTime first rest) :=
    UInt64.toNat_ofNat_of_lt' (secondsBetween_lt _ _)
  rw [htotal]
  refine Mint.le_accrue_minted ?_
  rw [hseconds, ← hstart]
  exact Nat.le_trans hend hgrowth

/-- Three blocks a second and a half apart, the last of them late by a tenth: a supply of 1000 grows
by 210 in two seconds, where an accrual over three seconds makes it grow by 331. -/
theorem processBlocks_minted_le_sample :
    ∃ os c', (processBlocks 1 [(⟨0⟩, []), (⟨1500000⟩, [Sample.payment 100]), (⟨3100000⟩, [])]).run
        Sample.chain = (.ok os, c') ∧ totalMinted os = 210 ∧
      (Mint.accrue 1000 ⟨100000000000000000⟩ Fixed.zero 3).minted = 331 ∧
      totalMinted os ≤ (Mint.accrue 1000 ⟨100000000000000000⟩ Fixed.zero 3).minted := by
  obtain ⟨os, c', hrun, hminted⟩ : ∃ os c', (processBlocks 1 [(⟨0⟩, []),
      (⟨1500000⟩, [Sample.payment 100]), (⟨3100000⟩, [])]).run Sample.chain = (.ok os, c') ∧
        totalMinted os = 210 :=
    Attempt.exists_run_eq_ok (by decide +kernel)
  refine ⟨os, c', hrun, hminted, by decide +kernel, ?_⟩
  obtain ⟨params, hparams, rfl⟩ : ∃ params, Governance.loadMint Sample.chain.store = .ok params ∧
      params = Sample.genesis.economy.mintParams :=
    Except.exists_of_toOption_map (f := id) (by decide +kernel)
  obtain ⟨state, hstate, rfl⟩ : ∃ state, Mint.State.load Sample.chain.store = .ok state ∧
      state = some ⟨BlockTime.genesis, Fixed.zero⟩ :=
    Except.exists_of_toOption_map (f := id) (by decide +kernel)
  exact processBlocks_minted_le hparams (by rfl) hstate (by decide) hrun

end ChainEconomy.Chain
