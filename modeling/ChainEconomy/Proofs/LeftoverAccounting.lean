import ChainEconomy.Proofs.BlockSpacing

/-!
# No fraction is lost

What the minter owes is paid in whole units, and the fraction that is left is owed to the next
block. Over any sequence of block starts the books balance: what has been minted and what is left in
the store together are what was left at first and the increments of all seconds that counted. An
increment is cut off after the last place once, when its second passes, and by nothing else: neither
by the division into whole units and a fraction, nor by the text that the fraction is stored as.

Each block start has its own height, time, parameters and bank; the blocks share the store only.

## Key results

- `accrue_increments`: one accrual balances
- `BlockStart.run_eq_ok`: one block start balances
- `beginBlocks_balance`: so does every sequence of them
-/

namespace ChainEconomy.Mint

open Chain (secondsBetween toNat_of_wholeSecondsSince)

/-! ## Increments -/

/-- What one second adds to a number of atomic units: the product with the rate, cut off after the
last place. -/
def increment (rate : Fixed) (x : Nat) : Nat := x * rate.atomics / Fixed.unit

/-- The increments of several seconds on a running estimate that starts at a supply, in atomic
units. -/
def increments (rate : Fixed) (supply seconds : Nat) : Nat :=
  ∑ second ∈ Finset.range seconds, increment rate ((grow rate)^[second] (supply * Fixed.unit))

/-- A running estimate is its start and all increments so far. -/
theorem iterate_grow_eq (rate : Fixed) (supply seconds : Nat) :
    (grow rate)^[seconds] (supply * Fixed.unit) =
      supply * Fixed.unit + increments rate supply seconds := by
  -- By induction on the seconds: each of them adds its increment to the estimate.
  induction seconds with
  | zero => rw [increments, Finset.sum_range_zero, Nat.add_zero, Function.iterate_zero_apply]
  | succ seconds ih =>
    have hstep : ∀ x, grow rate x = x + increment rate x := fun _ => rfl
    rw [increments, Finset.sum_range_succ, ← increments, Function.iterate_succ_apply', hstep,
      ← Nat.add_assoc, ← ih]

/-- An accrual turns the old leftover and the increments of its seconds into whole units and the new
leftover. -/
theorem accrue_increments {supply : Nat} {rate leftover : Fixed} {seconds : UInt64}
    {accrual : Accrual} (h : accrue supply rate leftover seconds = accrual) :
    accrual.minted * Fixed.unit + accrual.leftover.atomics =
      leftover.atomics + increments rate supply seconds.toNat := by
  -- The total of an accrual is where the running estimate has come to.
  have htotal := accrue_total supply rate leftover seconds
  rw [h, iterate_grow_eq] at htotal
  omega

/-! ## Block starts -/

/-- What the start of a block is given besides the store. -/
structure BlockStart (β : Type) where
  height : UInt64
  time : BlockTime
  params : Params
  bank : β

variable {β : Type} [Bank β]

namespace BlockStart

/-- The start of a block, as far as the store is concerned. -/
def run (b : BlockStart β) : Attempt Store ConsensusFault Outcome :=
  Attempt.within (fun store => ⟨store, b.bank⟩) (fun w _ => w.store)
    (beginBlock b.height b.time b.params)

/-- The rate that a block accrues with; there is one if the parameters are sensible. -/
def rate (b : BlockStart β) : Fixed := b.params.rate.toOption.getD Fixed.zero

/-- What a block owes for the whole seconds since the block before it, in atomic units. Block 1 owes
nothing. -/
def owed (before : BlockTime) (b : BlockStart β) : Nat :=
  if b.height = 1 then 0
  else increments b.rate ((Bank.totalSupply b.bank).amountOf b.params.denom)
    (secondsBetween before b.time)

/-- A successful block start leaves its time and a fraction in the store, and mints the rest of what
was left before and of what it owes. -/
theorem run_eq_ok {b : BlockStart β} {s s' : Store} {state : State} {o : Outcome}
    (hload : State.load s = .ok (some state)) (h : b.run.run s = (.ok o, s')) :
    ∃ leftover : Fixed, State.load s' = .ok (some ⟨b.time, leftover⟩) ∧
      leftover.isBelowOne = true ∧
      o.minted * Fixed.unit + leftover.atomics =
        state.leftover.atomics + b.owed state.previousTime := by
  obtain ⟨w, hbegin, rfl⟩ := Attempt.run_within_eq_ok.1 h
  -- The block works with the state in the store, of which there is one.
  have hfound : ∀ found, State.loadChecked s = .ok found →
      found = state ∧ found.leftover.isBelowOne = true := fun found hchecked => by
    obtain ⟨hread, hsound⟩ := loadChecked_eq_ok_iff.1 hchecked
    exact ⟨Option.some.inj (Except.ok.inj (hread.symm.trans hload)), State.check_eq_ok_iff.1 hsound⟩
  -- Block 1 records its time only. A later one accrues for the time since the one before.
  by_cases hone : b.height = 1
  · rw [hone] at hbegin
    obtain ⟨found, hchecked, hsave, -, rfl⟩ := beginBlock_one_eq_ok hbegin
    obtain ⟨rfl, hbelow⟩ := hfound found hchecked
    refine ⟨found.leftover, State.load_save hload hsave, hbelow, ?_⟩
    rw [owed, if_pos hone, Nat.zero_mul, Nat.zero_add, Nat.add_zero]
  · obtain ⟨rate, found, elapsed, accrual, distribution, hrate, hchecked, helapsed, haccrual, hsave,
      -, rfl⟩ := beginBlock_later_eq_ok hone hbegin
    obtain ⟨rfl, -⟩ := hfound found hchecked
    have hbelow : accrual.leftover.isBelowOne = true := haccrual ▸ accrue_leftover_isBelowOne ..
    have hseconds := toNat_of_wholeSecondsSince (elapsedWithin_eq_ok helapsed).1
    have hsame : b.rate = rate := by
      rw [BlockStart.rate, (usableRate_eq_ok hrate).2]
      rfl
    refine ⟨accrual.leftover, State.load_save hload hsave, hbelow, ?_⟩
    rw [owed, if_neg hone, hsame, ← hseconds]
    exact accrue_increments haccrual

end BlockStart

/-! ## Sequences of block starts -/

/-- Starts blocks one after the other on one store. -/
def beginBlocks : List (BlockStart β) → Attempt Store ConsensusFault (List Outcome)
  | [] => pure []
  | b :: rest => do
    let outcome ← b.run
    let outcomes ← beginBlocks rest
    return outcome :: outcomes

/-- What blocks owe that follow a block of a given time and one another. -/
def owedInAll (before : BlockTime) : List (BlockStart β) → Nat
  | [] => 0
  | b :: rest => b.owed before + owedInAll b.time rest

/-- The first block is started in front of the others, on the store that they go on with. -/
theorem beginBlocks_cons_eq_ok {b : BlockStart β} {rest : List (BlockStart β)} {s s' : Store}
    {os : List Outcome} (h : (beginBlocks (b :: rest)).run s = (.ok os, s')) :
    ∃ o t os', b.run.run s = (.ok o, t) ∧ (beginBlocks rest).run t = (.ok os', s') ∧
      os = o :: os' := by
  obtain ⟨o, t, hfirst, h⟩ := Attempt.run_bind_eq_ok.1 h
  obtain ⟨os', _, hrest, h⟩ := Attempt.run_bind_eq_ok.1 h
  obtain ⟨rfl, rfl⟩ := Attempt.run_pure_eq_ok.1 h
  exact ⟨o, t, os', hfirst, hrest, rfl⟩

/-- No fraction is lost or invented across blocks. After each of any number of successful block
starts, of any heights and times and with their own parameters and banks, the store holds the time
of that block and a leftover below one, and all that has been minted so far together with this
leftover is the leftover at first and what the blocks so far owed. -/
theorem beginBlocks_balance {s s' : Store} {state : State}
    (hload : State.load s = .ok (some state)) (hcheck : state.check = .ok ())
    {done rest : List (BlockStart β)} {os : List Outcome}
    (hrun : (beginBlocks (done ++ rest)).run s = (.ok os, s')) :
    ∃ (t : Store) (leftover : Fixed),
      (beginBlocks done).run s = (.ok (os.take done.length), t) ∧
      State.load t =
        .ok (some ⟨(done.map BlockStart.time).getLastD state.previousTime, leftover⟩) ∧
      leftover.isBelowOne = true ∧
      ((os.take done.length).map Outcome.minted).sum * Fixed.unit + leftover.atomics =
        state.leftover.atomics + owedInAll state.previousTime done := by
  -- By induction on the blocks in question, with any state to start from. What comes behind them is
  -- only carried along.
  induction done generalizing s state os with
  | nil =>
    have hbelow : state.leftover.isBelowOne = true := State.check_eq_ok_iff.1 hcheck
    refine ⟨s, state.leftover, rfl, hload, hbelow, ?_⟩
    rw [List.length_nil, List.take_zero, List.map_nil, List.sum_nil, Nat.zero_mul, Nat.zero_add]
    rfl
  | cons b done ih =>
    obtain ⟨o, next, os', hfirst, hrest, rfl⟩ := beginBlocks_cons_eq_ok hrun
    obtain ⟨left, hnext, hbelow, hbalance⟩ := BlockStart.run_eq_ok hload hfirst
    obtain ⟨t, leftover, hdone, hstored, hbelow', hbalance'⟩ :=
      ih hnext (State.check_eq_ok_iff.2 hbelow) hrest
    have hlast : ((b :: done).map BlockStart.time).getLastD state.previousTime =
        (done.map BlockStart.time).getLastD b.time := by
      rw [List.map_cons, List.getLastD_cons]
    rw [List.length_cons, List.take_succ_cons, hlast]
    refine ⟨t, leftover, ?_, hstored, hbelow', ?_⟩
    · exact Attempt.run_bind_eq_ok.2 ⟨o, next, hfirst,
        Attempt.run_bind_eq_ok.2 ⟨_, t, hdone, rfl⟩⟩
    · -- The leftover of the first block is what the others start with.
      have hothers : ((os'.take done.length).map Outcome.minted).sum * Fixed.unit +
          leftover.atomics = left.atomics + owedInAll b.time done := hbalance'
      have howed : owedInAll state.previousTime (b :: done) =
          b.owed state.previousTime + owedInAll b.time done := rfl
      rw [List.map_cons, List.sum_cons, howed, Nat.add_mul]
      omega

/-- Three block starts, each with a rate of its own, on a supply of 1000: the first one only records
its time, a second at 0.0025 owes 2.5, and two seconds at 0.0005 owe 0.5 and 0.50025. -/
def sampleStarts : List (BlockStart Ledger) :=
  let start (height : UInt64) (micros : UInt64) (mantissa : Nat) (h : mantissa < Nat.pow 2 96) :
      BlockStart Ledger :=
    ⟨height, ⟨micros⟩, ⟨"utoll", ⟨false, mantissa, 4, h, by decide⟩, 604800⟩,
      Chain.Sample.chain.ledger⟩
  [start 1 0 1000 (by decide), start 2 1500000 25 (by decide), start 3 3500000 5 (by decide)]

/-- Three units are minted, and 0.50025 are left. -/
theorem beginBlocks_balance_sample :
    ∃ os t, (beginBlocks sampleStarts).run Chain.Sample.chain.store = (.ok os, t) ∧
      os.map Outcome.minted = [0, 2, 1] ∧
      State.load t = .ok (some ⟨⟨3500000⟩, ⟨500250000000000000⟩⟩) := by
  obtain ⟨os, s', hrun, hminted⟩ : ∃ os s',
      (beginBlocks (sampleStarts ++ [])).run Chain.Sample.chain.store = (.ok os, s') ∧
        os.map Outcome.minted = [0, 2, 1] :=
    Attempt.exists_run_eq_ok (by decide +kernel)
  obtain ⟨state, hload, rfl⟩ : ∃ state, State.load Chain.Sample.chain.store = .ok state ∧
      state = some State.genesis :=
    Except.exists_of_toOption_map (f := id) (by decide +kernel)
  -- The theorem is asked for all three blocks, and its balance then leaves one value for what is
  -- left.
  obtain ⟨t, leftover, hdone, hstored, -, hbalance⟩ :=
    beginBlocks_balance hload (by decide) hrun
  have hall : os.take sampleStarts.length = os := by
    have hlength : os.length = 3 := by simpa using congrArg List.length hminted
    exact List.take_of_length_le (Nat.le_of_eq hlength)
  have howed : owedInAll State.genesis.previousTime sampleStarts = 3500250000000000000 := by
    decide +kernel
  have hunit : Fixed.unit = 1000000000000000000 := rfl
  have hzero : State.genesis.leftover.atomics = 0 := rfl
  rw [hall, hminted, howed, hunit, hzero] at hbalance
  have hleft : leftover = ⟨500250000000000000⟩ := by
    have hatomics : leftover.atomics = 500250000000000000 := by
      simp at hbalance
      omega
    rw [← hatomics]
  rw [hall] at hdone
  rw [hleft] at hstored
  exact ⟨os, t, hdone, hminted, hstored⟩

end ChainEconomy.Mint
