import ChainEconomy.Proofs.Reachable

/-!
# Conservation of the supply

The coins of all accounts are the supply, in every denomination, whatever happens to a chain after
its genesis. A message moves coins between accounts, minting adds the same coins to an account and
to the supply, and a transaction that is turned down halfway leaves the ledger as it was before it.
A block that succeeds makes the supply grow by what its minting reports, in the denomination of the
parameters that it found in the store.

## Key results

- `Genesis.ledger_isBacked`, `isBacked_keeps`: the invariant holds at the start and is kept
- `supply_of_processBlock`: the growth of the supply in a block
- `Genesis.Starts.supply_conserved`: both, for every sequence of steps
-/

namespace ChainEconomy

/-- All accounts together hold exactly the supply. -/
def Ledger.IsBacked (l : Ledger) : Prop :=
  ∀ denom, l.balances.held denom = l.supply.amountOf denom

namespace Chain

/-! ## The first ledger -/

/-- The supply at the start is what the accounts are given. -/
theorem Genesis.ledger_isBacked (g : Genesis) : g.ledger.IsBacked := by
  refine ledger_keeps (P := Ledger.IsBacked) (fun l n hl denom => ?_) g fun denom => ?_
  · -- Registering names moves no coins.
    rw [addName_balances, addName_supply]
    exact hl denom
  · exact (Balances.held_creditAll Balances.empty g.accounts denom).trans (Nat.zero_add _)

/-! ## Steps of a ledger -/

/-- Minting, transfers and messages all keep the accounts in balance with the supply. -/
theorem isBacked_keeps : LedgerKeeps Ledger.IsBacked where
  transfer h hl denom := by
    obtain ⟨b, hb, rfl⟩ := Ledger.transfer_eq_ok_iff.1 h
    exact (Balances.held_of_transfer hb denom).trans (hl denom)
  message {m l l'} hm h hl denom := by
    rw [Ledger.apply_held hm h denom, hl denom, Ledger.apply_supply h]
  mint target coins hl denom := by
    rw [Balances.held_credit, CoinSet.amountOf_add, hl denom]

/-- No admitted transaction changes the supply. -/
private theorem supply_keeps (supply : CoinSet) :
    TransactionKeeps fun l => l.supply = supply where
  transfer h hl := by
    obtain ⟨b, -, rfl⟩ := Ledger.transfer_eq_ok_iff.1 h
    exact hl
  message _ h hl := (Ledger.apply_supply h).trans hl

/-! ## Blocks -/

/-- The parameters of a block have those of the minter from the store. -/
theorem loadMint_of_loadParams {c : Chain} {params : Governance.Params}
    (h : loadParams c = .ok params) : Governance.loadMint c.store = .ok params.mint := by
  obtain ⟨mint, hmint, h⟩ := Except.bind_eq_ok_iff.1 h
  obtain ⟨fee, -, h⟩ := Except.bind_eq_ok_iff.1 h
  cases h
  exact Except.mapError_eq_ok_iff.1 hmint

/-- The start of a block adds to the supply what it reports as minted. -/
theorem supply_of_beginBlock {height : UInt64} {time : BlockTime} {params : Mint.Params}
    {w w' : Mint.World Ledger} {o : Mint.Outcome}
    (h : (Mint.beginBlock height time params).run w = (.ok o, w')) (denom : String) :
    w'.bank.supply.amountOf denom =
      w.bank.supply.amountOf denom + if denom = params.denom then o.minted else 0 := by
  -- Block 1 mints nothing, and a later one what it reports.
  by_cases hone : height = 1
  · subst hone
    obtain ⟨state, -, -, hbank, rfl⟩ := Mint.beginBlock_one_eq_ok h
    simp [hbank]
  · obtain ⟨rate, state, elapsed, accrual, distribution, -, -, -, -, -, hissue, rfl⟩ :=
      Mint.beginBlock_later_eq_ok hone h
    exact Mint.issue_supply hissue denom

/-- A successful block changes the supply by what it minted, in the denomination that the store
names, and by nothing else. -/
theorem supply_of_processBlock {height : UInt64} {time : BlockTime} {txs : List Transaction}
    {c c' : Chain} {o : Outcome} (h : (processBlock height time txs).run c = (.ok o, c')) :
    ∃ params, Governance.loadMint c.store = .ok params ∧ ∀ denom,
      c'.ledger.supply.amountOf denom = c.ledger.supply.amountOf denom +
        if denom = params.denom then o.mint.minted else 0 := by
  obtain ⟨params, mint, w, schedule, tally, hparams, hmint, -, htxs, -, rfl⟩ :=
    processBlock_eq_ok_iff.1 h
  refine ⟨params.mint, loadMint_of_loadParams hparams, fun denom => ?_⟩
  -- Transactions keep the supply that minting has left.
  have hsupply : c'.ledger.supply = w.bank.supply :=
    (processFrom_keeps schedule w.store
      (fun h => execute_keeps (supply_keeps w.bank.supply) h) 0 txs).of_run htxs rfl
  rw [hsupply]
  exact supply_of_beginBlock hmint denom

/-- Conservation over whole runs. After every sequence of steps from a genesis, the coins of all
accounts are the supply in every denomination, and a block that succeeds then adds to the supply
what it mints, in the denomination of the mint parameters in the store, and nothing in any other
one. -/
theorem Genesis.Starts.supply_conserved {g : Genesis} {start : Chain} (hstart : g.Starts start)
    (steps : List Step) :
    (∀ denom, (start.after steps).ledger.balances.held denom =
      (start.after steps).ledger.supply.amountOf denom) ∧
    ∀ (height : UInt64) (time : BlockTime) (txs : List Transaction) (o : Outcome) (c' : Chain),
      (processBlock height time txs).run (start.after steps) = (.ok o, c') →
        ∃ params, Governance.loadMint (start.after steps).store = .ok params ∧ ∀ denom,
          c'.ledger.supply.amountOf denom = (start.after steps).ledger.supply.amountOf denom +
            if denom = params.denom then o.mint.minted else 0 := by
  constructor
  · refine after_keeps isBacked_keeps start steps ?_
    rw [hstart.ledger]
    exact g.ledger_isBacked
  · intro height time txs o c' h
    exact supply_of_processBlock h

/-- Two seconds after the first block, in which one payment was made and one was not covered, a
supply of 1000 has grown by 210. -/
theorem Genesis.Starts.supply_conserved_sample :
    let c := Sample.chain.after Sample.steps
    c.ledger.balances.held "utoll" = c.ledger.supply.amountOf "utoll" ∧
      ∃ o c', (processBlock 2 ⟨2000000⟩ []).run c = (.ok o, c') ∧ o.mint.minted = 210 ∧
        c'.ledger.supply.amountOf "utoll" = 1210 := by
  obtain ⟨hbacked, hblocks⟩ := Sample.chain_starts.supply_conserved Sample.steps
  obtain ⟨o, c', hrun, hminted⟩ : ∃ o c', (processBlock 2 ⟨2000000⟩ []).run
      (Sample.chain.after Sample.steps) = (.ok o, c') ∧ o.mint.minted = 210 :=
    Attempt.exists_run_eq_ok (by decide +kernel)
  obtain ⟨params, hparams, hsupply⟩ := hblocks _ _ _ _ _ hrun
  have hdenom : (Governance.loadMint (Sample.chain.after Sample.steps).store).toOption.map
      Mint.Params.denom = some "utoll" := by decide +kernel
  have hbefore : (Sample.chain.after Sample.steps).ledger.supply.amountOf "utoll" = 1000 := by
    decide +kernel
  rw [hparams] at hdenom
  refine ⟨hbacked "utoll", o, c', hrun, hminted, ?_⟩
  rw [hsupply "utoll", hbefore, Option.some.inj hdenom, if_pos rfl, hminted]

end Chain

end ChainEconomy
