import ChainEconomy.Chain.Block
import ChainEconomy.Proofs.LedgerEffects

/-!
# How a block is processed

The start of a block, its transactions and the block as a whole are taken apart once, as the
handlers of messages are: the `_eq_ok` lemmas describe a successful run, the `_keeps` lemmas carry a
property of the ledger through a run of any outcome.

## Key results

- `loadChecked_eq_ok_iff`, `usableRate_eq_ok`, `elapsedWithin_eq_ok`: what minting works with
- `beginBlock_one_eq_ok`, `beginBlock_later_eq_ok`: a successful start of a block
- `moveToPool_eq_ok`, `issue_eq_ok`: new supply that has been handed out
- `execute_eq_ok_iff`: an admitted transaction
- `openBlock_eq_ok_iff`, `run_processBlock`: a block is its opening and its transactions
- `processBlock_eq_ok_iff`: a successful block
- `processBlock_keeps`: a property that mints, bank transfers and admitted transactions keep
-/

namespace ChainEconomy

/-! ## Minting -/

namespace Mint

section

variable {β : Type}

/-- A state is put into the store by saving it, and the bank stays as it is. -/
theorem persist_eq_ok_iff {state : State} {w w' : World β} :
    (persist state).run w = (.ok (), w') ↔
      state.save w.store = .ok w'.store ∧ w'.bank = w.bank := by
  refine Attempt.run_change_eq_ok.trans ?_
  -- The state of the world has two parts, of which one changes.
  cases hs : state.save w.store with
  | error e => simp
  | ok store =>
    simp only [Except.ok.injEq]
    constructor
    · rintro rfl
      exact ⟨rfl, rfl⟩
    · rintro ⟨hstore, hbank⟩
      rw [hstore, ← hbank]

/-- A state that is not put into the store leaves store and bank as they were. -/
theorem persist_eq_error_iff {state : State} {w w' : World β} {fault : ConsensusFault} :
    (persist state).run w = (.error fault, w') ↔
      ∃ e, state.save w.store = .error e ∧ fault = .storage e ∧ w' = w := by
  unfold persist
  rw [Attempt.run_change]
  cases state.save w.store with
  | error e => simp [eq_comm]
  | ok store => simp

/-- Putting a state into the store keeps what saving it keeps. -/
theorem persist_keeps_store {P : Store → Prop} {state : State}
    (hP : ∀ {s t : Store}, state.save s = .ok t → P s → P t) :
    Attempt.Keeps (fun w : World β => P w.store) (persist state) := by
  intro w hw
  -- A refused save has not touched the store.
  cases hrun : (persist state).run w with
  | mk r w' =>
    cases r with
    | ok u => exact hP (persist_eq_ok_iff.1 hrun).1 hw
    | error e => exact (Attempt.run_change_error hrun).2 ▸ hw

variable [Bank β]

/-- A state is sound if less than one unit is left over. -/
theorem State.check_eq_ok_iff {state : State} :
    state.check = .ok () ↔ state.leftover.isBelowOne = true := by
  unfold State.check
  split
  · next h => simp [h]
  · next h => simp [h]

/-- A state that is worked with is the one in the store, and it is sound. -/
theorem loadChecked_eq_ok_iff {s : Store} {state : State} :
    State.loadChecked s = .ok state ↔ State.load s = .ok (some state) ∧ state.check = .ok () := by
  unfold State.loadChecked
  constructor
  · intro h
    -- The three ways in which there is no state to work with, and the one in which there is.
    split at h
    · cases h
    · cases h
    · next found hload =>
      split at h
      · cases h
      · next hcheck =>
        cases h
        exact ⟨hload, hcheck⟩
  · rintro ⟨hload, hcheck⟩
    rw [hload]
    simp only [hcheck]

/-- A rate that is worked with is the one of sensible parameters. -/
theorem usableRate_eq_ok {params : Params} {rate : Fixed} (h : usableRate params = .ok rate) :
    params.check = .ok () ∧ params.rate = .ok rate := by
  -- Parameters are checked first, and the rate is converted only if they pass.
  unfold usableRate at h
  split at h
  · cases h
  · next hcheck => exact ⟨hcheck, Except.mapError_eq_ok_iff.1 h⟩

/-- Time that counts has passed since the last block, and is within the bound. -/
theorem elapsedWithin_eq_ok {limit elapsed : UInt64} {previous current : BlockTime}
    (h : elapsedWithin limit previous current = .ok elapsed) :
    current.wholeSecondsSince previous = some elapsed ∧ elapsed.toNat ≤ limit.toNat := by
  unfold elapsedWithin at h
  split at h
  · cases h
  · next seconds hseconds =>
    split at h
    · cases h
    · next hbound =>
      cases h
      exact ⟨hseconds, by simpa using hbound⟩

/-- The first block puts its time into the store and mints nothing. -/
theorem beginBlock_one_eq_ok {time : BlockTime} {params : Params} {w w' : World β} {o : Outcome}
    (h : (beginBlock 1 time params).run w = (.ok o, w')) :
    ∃ state, State.loadChecked w.store = .ok state ∧
      State.save { state with previousTime := time } w.store = .ok w'.store ∧
      w'.bank = w.bank ∧ o = ⟨1, 0, 0, split 0, state.leftover⟩ := by
  -- Each step in front gives its result and leaves the world alone; the last one is the save.
  obtain ⟨rate, _, hrunRate, h⟩ := Attempt.run_bind_eq_ok.1 h
  obtain ⟨-, rfl⟩ := Attempt.run_ofExcept_eq_ok.1 hrunRate
  obtain ⟨state, _, hrunState, h⟩ := Attempt.run_bind_eq_ok.1 h
  obtain ⟨hload, rfl⟩ := Attempt.run_read_eq_ok.1 hrunState
  rw [if_pos rfl] at h
  obtain ⟨_, _, hpersist, h⟩ := Attempt.run_bind_eq_ok.1 h
  obtain ⟨hsave, hbank⟩ := persist_eq_ok_iff.1 hpersist
  obtain ⟨rfl, rfl⟩ := Attempt.run_pure_eq_ok.1 h
  exact ⟨state, hload, hsave, hbank, rfl⟩

/-- A later block accrues supply for the time since the last one, puts its time and the fraction
that is left into the store, and issues the whole units. -/
theorem beginBlock_later_eq_ok {height : UInt64} (hne : height ≠ 1) {time : BlockTime}
    {params : Params} {w w' : World β} {o : Outcome}
    (h : (beginBlock height time params).run w = (.ok o, w')) :
    ∃ rate state elapsed accrual distribution, usableRate params = .ok rate ∧
      State.loadChecked w.store = .ok state ∧
      elapsedWithin params.maxAccrualSeconds state.previousTime time = .ok elapsed ∧
      accrue ((Bank.totalSupply w.bank).amountOf params.denom) rate state.leftover elapsed =
        accrual ∧
      State.save ⟨time, accrual.leftover⟩ w.store = .ok w'.store ∧
      (issue params.denom accrual.minted).run w.bank = (.ok distribution, w'.bank) ∧
      o = ⟨height, elapsed, accrual.minted, distribution, accrual.leftover⟩ := by
  obtain ⟨rate, _, hrunRate, h⟩ := Attempt.run_bind_eq_ok.1 h
  obtain ⟨hrate, rfl⟩ := Attempt.run_ofExcept_eq_ok.1 hrunRate
  obtain ⟨state, _, hrunState, h⟩ := Attempt.run_bind_eq_ok.1 h
  obtain ⟨hload, rfl⟩ := Attempt.run_read_eq_ok.1 hrunState
  rw [if_neg hne] at h
  obtain ⟨elapsed, _, hrunElapsed, h⟩ := Attempt.run_bind_eq_ok.1 h
  obtain ⟨helapsed, rfl⟩ := Attempt.run_ofExcept_eq_ok.1 hrunElapsed
  obtain ⟨_, _, hworld, h⟩ := Attempt.run_bind_eq_ok.1 h
  cases hworld
  obtain ⟨_, saved, hpersist, h⟩ := Attempt.run_bind_eq_ok.1 h
  obtain ⟨hsave, hbank⟩ := persist_eq_ok_iff.1 hpersist
  -- From here on only the bank changes, and the store is the one that was saved.
  obtain ⟨distribution, _, hwithin, h⟩ := Attempt.run_bind_eq_ok.1 h
  obtain ⟨bank, hissue, rfl⟩ := Attempt.run_within_eq_ok.1 hwithin
  obtain ⟨rfl, rfl⟩ := Attempt.run_pure_eq_ok.1 h
  rw [hbank] at hissue
  exact ⟨rate, state, elapsed, _, distribution, hrate, hload, helapsed, rfl, hsave, hissue, rfl⟩

end

section

variable {P : Ledger → Prop}

/-- Property `P` survives the operations that minting asks a bank for. -/
structure BankKeeps (P : Ledger → Prop) : Prop where
  transfer : ∀ {l l' : Ledger} {source target : Address} {coins : CoinSet},
    l.transfer source target coins = .ok l' → P l → P l'
  mint : ∀ {l : Ledger} (target : Address) (coins : CoinSet), P l →
    P { l with balances := l.balances.credit target coins, supply := l.supply.add coins }

/-- A move to a pool keeps what transfers keep. -/
theorem moveToPool_keeps (htransfer : ∀ {l l' : Ledger} {source target : Address}
    {coins : CoinSet}, l.transfer source target coins = .ok l' → P l → P l')
    (pool denom : String) (amount : Nat) :
    Attempt.Keeps P (moveToPool pool denom amount : Attempt Ledger ConsensusFault Unit) := by
  unfold moveToPool
  split
  · exact Attempt.Keeps.pure ()
  · -- The coins are made without touching the ledger, and then transferred.
    refine Attempt.Keeps.bind (Attempt.Keeps.ofExcept _) fun coins =>
      Attempt.Keeps.change fun l l' h hl => ?_
    exact htransfer (Except.mapError_eq_ok_iff.1 h) hl

/-- Issuing supply keeps what minting and transfers keep. -/
theorem issue_keeps (hP : BankKeeps P) (denom : String) (minted : Nat) :
    Attempt.Keeps P (issue denom minted : Attempt Ledger ConsensusFault Distribution) := by
  unfold issue
  split
  · exact Attempt.Keeps.pure _
  · -- Coins are made, minted, and moved twice; the mint is the only step that is no transfer.
    refine Attempt.Keeps.bind (Attempt.Keeps.ofExcept _) fun coins =>
      Attempt.Keeps.bind (Attempt.Keeps.change fun l l' h hl => ?_) fun _ =>
        Attempt.Keeps.bind (moveToPool_keeps hP.transfer _ _ _) fun _ =>
          Attempt.Keeps.bind (moveToPool_keeps hP.transfer _ _ _) fun _ => Attempt.Keeps.pure _
    cases Except.mapError_eq_ok_iff.1 h
    exact hP.mint _ coins hl

/-- The start of a block keeps what minting and transfers between modules keep. -/
theorem beginBlock_keeps (hP : BankKeeps P) (height : UInt64) (time : BlockTime)
    (params : Params) :
    Attempt.Keeps (fun w => P w.bank)
      (beginBlock height time params : Attempt (World Ledger) ConsensusFault Outcome) := by
  -- The state of the minter is no part of the bank.
  have hpersist : ∀ state, Attempt.Keeps (fun w => P w.bank)
      (persist state : Attempt (World Ledger) ConsensusFault Unit) := fun state w hw => by
    cases hr : (persist state).run w with
    | mk r w' =>
      cases r with
      | ok u => rw [(persist_eq_ok_iff.1 hr).2]; exact hw
      | error e => rw [← (Attempt.run_change_error hr).2]; exact hw
  unfold beginBlock
  refine Attempt.Keeps.bind (Attempt.Keeps.ofExcept _) fun rate =>
    Attempt.Keeps.bind (Attempt.Keeps.read _) fun state => ?_
  -- The first block ends behind its save, and any other one goes on to the bank.
  split
  · exact Attempt.Keeps.bind (hpersist _) fun _ => Attempt.Keeps.pure _
  · refine Attempt.Keeps.bind (Attempt.Keeps.ofExcept _) fun elapsed =>
      Attempt.Keeps.bind Attempt.Keeps.get fun world =>
        Attempt.Keeps.bind (hpersist _) fun _ => Attempt.Keeps.bind ?_ fun _ =>
          Attempt.Keeps.pure _
    exact Attempt.Keeps.within (issue_keeps hP _ _) (fun _ h => h) fun _ _ _ h => h

end

/-- Coins have been moved to a pool, unless there was nothing to move. -/
theorem moveToPool_eq_ok {pool denom : String} {amount : Nat} {l l' : Ledger}
    (h : (moveToPool pool denom amount).run l = (.ok (), l')) :
    amount = 0 ∧ l' = l ∨
      ∃ coins, CoinSet.single denom amount = .ok coins ∧
        l.transfer (Address.ofModule source) (Address.ofModule pool) coins = .ok l' := by
  unfold moveToPool at h
  -- Nothing to move is no transfer, not a transfer of nothing.
  split at h
  · next hzero =>
    obtain ⟨-, rfl⟩ := Attempt.run_pure_eq_ok.1 h
    exact .inl ⟨hzero, rfl⟩
  · obtain ⟨coins, _, hrunCoins, h⟩ := Attempt.run_bind_eq_ok.1 h
    obtain ⟨hcoins, rfl⟩ := Attempt.run_ofExcept_eq_ok.1 hrunCoins
    exact .inr ⟨coins, Except.mapError_eq_ok_iff.1 hcoins,
      Except.mapError_eq_ok_iff.1 (Attempt.run_change_eq_ok.1 h)⟩

/-- New supply has been minted and handed to both pools in turn, unless there was none. -/
theorem issue_eq_ok {denom : String} {minted : Nat} {l l' : Ledger} {d : Distribution}
    (h : (issue denom minted).run l = (.ok d, l')) :
    minted = 0 ∧ l' = l ∨
      ∃ coins halved, CoinSet.single denom minted = .ok coins ∧
        (moveToPool treasuryPool denom (split minted).treasury).run
          { l with
            balances := l.balances.credit (Address.ofModule source) coins
            supply := l.supply.add coins } = (.ok (), halved) ∧
        (moveToPool rewardsPool denom (split minted).rewards).run halved = (.ok (), l') := by
  unfold issue at h
  split at h
  · next hzero =>
    obtain ⟨-, rfl⟩ := Attempt.run_pure_eq_ok.1 h
    exact .inl ⟨hzero, rfl⟩
  · obtain ⟨coins, _, hrunCoins, h⟩ := Attempt.run_bind_eq_ok.1 h
    obtain ⟨hcoins, rfl⟩ := Attempt.run_ofExcept_eq_ok.1 hrunCoins
    obtain ⟨_, grown, hmint, h⟩ := Attempt.run_bind_eq_ok.1 h
    -- A ledger takes every mint, and so what it has become is known.
    cases Except.mapError_eq_ok_iff.1 (Attempt.run_change_eq_ok.1 hmint)
    obtain ⟨_, halved, htreasury, h⟩ := Attempt.run_bind_eq_ok.1 h
    obtain ⟨_, done, hrewards, h⟩ := Attempt.run_bind_eq_ok.1 h
    obtain ⟨-, rfl⟩ := Attempt.run_pure_eq_ok.1 h
    exact .inr ⟨coins, halved, Except.mapError_eq_ok_iff.1 hcoins, htreasury, hrewards⟩

/-- No transfer changes the supply. -/
theorem moveToPool_supply {pool denom : String} {amount : Nat} {l l' : Ledger}
    {r : Except ConsensusFault Unit} (h : (moveToPool pool denom amount).run l = (r, l')) :
    l'.supply = l.supply := by
  refine Attempt.Keeps.of_run (P := fun t => t.supply = l.supply) ?_ h rfl
  -- A transfer rewrites the balances and nothing else.
  refine moveToPool_keeps (fun htransfer ht => ?_) pool denom amount
  obtain ⟨b, -, rfl⟩ := Ledger.transfer_eq_ok_iff.1 htransfer
  exact ht

/-- Issuing supply adds it to the supply, in its denomination. -/
theorem issue_supply {denom : String} {minted : Nat} {l l' : Ledger} {d : Distribution}
    (h : (issue denom minted).run l = (.ok d, l')) (x : String) :
    l'.supply.amountOf x = l.supply.amountOf x + if x = denom then minted else 0 := by
  obtain ⟨rfl, rfl⟩ | ⟨coins, halved, hcoins, htreasury, hrewards⟩ := issue_eq_ok h
  · simp
  · -- Both pools get their parts from the module that the new coins are in.
    rw [moveToPool_supply hrewards, moveToPool_supply htreasury, CoinSet.amountOf_add,
      CoinSet.amountOf_single hcoins]

end Mint

/-! ## Transactions -/

namespace Chain

/-- The messages of an admitted transaction have been carried out one after the other. -/
theorem applyFrom_cons_eq_ok {index : Nat} {m : Message} {rest : List Message} {l l' : Ledger} :
    (applyFrom index (m :: rest)).run l = (.ok (), l') ↔
      ∃ t, (Ledger.apply m).run l = (.ok (), t) ∧
        (applyFrom (index + 1) rest).run t = (.ok (), l') := by
  -- The refusal of a message is reworded with its position, a success stays what it is.
  refine Attempt.run_bind_eq_ok.trans ⟨?_, ?_⟩
  · rintro ⟨_, t, hm, hrest⟩
    exact ⟨t, Attempt.run_mapError_eq_ok.1 hm, hrest⟩
  · rintro ⟨t, hm, hrest⟩
    exact ⟨(), t, Attempt.run_mapError_eq_ok.2 hm, hrest⟩

/-- An admitted transaction has been assessed, and its messages have been carried out. -/
theorem execute_eq_ok_iff {schedule : Fee.Schedule} {store : Store} {tx : Transaction}
    {l l' : Ledger} {a : Fee.Assessment} :
    execute schedule store tx l = .ok (a, l') ↔
      ∃ bank, Fee.assess schedule store l.registry l tx = .ok ⟨a, bank⟩ ∧
        (applyFrom 0 tx.messages).run bank = (.ok (), l') := by
  -- The assessment decides first, and then the run of the messages on what it has left.
  unfold execute
  cases Fee.assess schedule store l.registry l tx with
  | error e => simp
  | ok admission =>
    obtain ⟨a', bank⟩ := admission
    simp only [Except.ok.injEq, Fee.Admission.mk.injEq]
    cases hrun : (applyFrom 0 tx.messages).run bank with
    | mk r t =>
      cases r with
      | error e =>
        -- The messages have one outcome, which is not a success.
        refine ⟨(nomatch ·), ?_⟩
        rintro ⟨_, ⟨-, rfl⟩, hrun'⟩
        cases hrun.symm.trans hrun'
      | ok u =>
        constructor
        · intro h
          cases h
          exact ⟨bank, ⟨rfl, rfl⟩, hrun⟩
        · rintro ⟨_, ⟨rfl, rfl⟩, hrun'⟩
          cases hrun.symm.trans hrun'
          rfl

/-- Whatever becomes of the transactions of a block, only admitted ones touch the ledger. -/
theorem processFrom_keeps {P : Ledger → Prop} (schedule : Fee.Schedule) (store : Store)
    (hP : ∀ {tx l a l'}, execute schedule store tx l = .ok (a, l') → P l → P l') (index : Nat)
    (txs : List Transaction) : Attempt.Keeps P (processFrom schedule store index txs) := by
  induction txs generalizing index with
  | nil => exact Attempt.Keeps.pure _
  | cons tx rest ih =>
    intro l hl
    rw [processFrom, Attempt.run_bind, Attempt.run_get]
    dsimp only
    split
    · next a after hexecute =>
      -- An admitted transaction hands its own ledger on, any other one the ledger it was given.
      exact Attempt.Keeps.bind (ih (index + 1)) (fun _ => Attempt.Keeps.pure _) after
        (hP hexecute hl)
    · -- A fault of the store ends the block with the ledger that it has found.
      exact hl
    · exact Attempt.Keeps.bind (ih (index + 1)) (fun _ => Attempt.Keeps.pure _) l hl

/-! ## Blocks -/

/-! A block is its opening, followed by its transactions. -/

/-- A block that has been opened read its parameters, minted, and made out a schedule of fees. -/
theorem openBlock_eq_ok_iff {height : UInt64} {time : BlockTime} {c opened : Chain}
    {mint : Mint.Outcome} {schedule : Fee.Schedule} :
    (openBlock height time).run c = (.ok (mint, schedule), opened) ↔
      ∃ params, loadParams c = .ok params ∧
        (Mint.beginBlock height time params.mint).run (world c) = (.ok mint, world opened) ∧
        Fee.Schedule.ofParams params.fee = .ok schedule := by
  constructor
  · intro h
    obtain ⟨params, _, hrunParams, h⟩ := Attempt.run_bind_eq_ok.1 h
    obtain ⟨hparams, rfl⟩ := Attempt.run_read_eq_ok.1 hrunParams
    obtain ⟨mint, _, hrunMint, h⟩ := Attempt.run_bind_eq_ok.1 h
    obtain ⟨w, hmint, rfl⟩ := Attempt.run_within_eq_ok.1 hrunMint
    obtain ⟨schedule, _, hrunSchedule, h⟩ := Attempt.run_bind_eq_ok.1 h
    obtain ⟨hschedule, rfl⟩ := Attempt.run_ofExcept_eq_ok.1 hrunSchedule
    cases h
    exact ⟨params, hparams, hmint, Except.mapError_eq_ok_iff.1 hschedule⟩
  · rintro ⟨params, hparams, hmint, hschedule⟩
    -- The parts are put together in the order in which the block runs them.
    refine Attempt.run_bind_eq_ok.2 ⟨params, c, Attempt.run_read_eq_ok.2 ⟨hparams, rfl⟩, ?_⟩
    refine Attempt.run_bind_eq_ok.2 ⟨mint, opened,
      Attempt.run_within_eq_ok.2 ⟨world opened, hmint, rfl⟩, ?_⟩
    exact Attempt.run_bind_eq_ok.2 ⟨schedule, opened, Attempt.run_ofExcept_eq_ok.2
      ⟨Except.mapError_eq_ok_iff.2 hschedule, rfl⟩, rfl⟩

/-- The opening of a block keeps what minting keeps, also where it fails. -/
theorem openBlock_keeps {P : Ledger → Prop} (hbank : Mint.BankKeeps P) (height : UInt64)
    (time : BlockTime) : Attempt.Keeps (fun c => P c.ledger) (openBlock height time) :=
  .bind (.read _) fun params =>
    .bind (.within (Mint.beginBlock_keeps hbank height time params.mint) (fun _ h => h)
      fun _ _ _ h => h) fun _ => .bind (.ofExcept _) fun _ => .pure _

/-- A block is opened, and then processes its transactions. -/
theorem run_processBlock (height : UInt64) (time : BlockTime) (txs : List Transaction)
    (c : Chain) :
    (processBlock height time txs).run c =
      match (openBlock height time).run c with
      | (.error e, opened) => (.error e, opened)
      | (.ok (mint, schedule), opened) =>
        match (processFrom schedule opened.store 0 txs).run opened.ledger with
        | (.error e, l) => (.error e, { opened with ledger := l })
        | (.ok tally, l) => (.ok ⟨height, time, mint, tally⟩, { opened with ledger := l }) := by
  rw [processBlock, Attempt.run_bind]
  cases (openBlock height time).run c with
  | mk start opened =>
  cases start with
  | error e => rfl
  | ok start =>
    simp only [Attempt.run_bind, Attempt.run_get, Attempt.run_within, Attempt.run_pure]
    cases (processFrom start.2 opened.store 0 txs).run opened.ledger with
    | mk tally l => cases tally <;> rfl

/-- A successful block was opened, and processed its transactions. -/
theorem processBlock_eq_ok_iff {height : UInt64} {time : BlockTime} {txs : List Transaction}
    {c c' : Chain} {o : Outcome} :
    (processBlock height time txs).run c = (.ok o, c') ↔
      ∃ params mint w schedule tally, loadParams c = .ok params ∧
        (Mint.beginBlock height time params.mint).run (world c) = (.ok mint, w) ∧
        Fee.Schedule.ofParams params.fee = .ok schedule ∧
        (processFrom schedule w.store 0 txs).run w.bank = (.ok tally, c'.ledger) ∧
        c'.store = w.store ∧ o = ⟨height, time, mint, tally⟩ := by
  rw [run_processBlock]
  constructor
  · intro h
    -- A successful block has two successful parts, the opening and the transactions.
    cases hopen : (openBlock height time).run c with
    | mk start opened =>
    rw [hopen] at h
    cases start with
    | error e => cases h
    | ok start =>
      obtain ⟨params, hparams, hmint, hschedule⟩ := openBlock_eq_ok_iff.1 hopen
      dsimp only at h
      cases htxs : (processFrom start.2 opened.store 0 txs).run opened.ledger with
      | mk tally l =>
      rw [htxs] at h
      cases tally with
      | error e => cases h
      | ok tally =>
        cases h
        exact ⟨params, start.1, world opened, start.2, tally, hparams, hmint, hschedule, htxs, rfl,
          rfl⟩
  · rintro ⟨params, mint, w, schedule, tally, hparams, hmint, hschedule, htxs, hstore, rfl⟩
    have hopen : (openBlock height time).run c = (.ok (mint, schedule), ⟨w.store, w.bank⟩) :=
      openBlock_eq_ok_iff.2 ⟨params, hparams, hmint, hschedule⟩
    rw [hopen]
    dsimp only
    rw [htxs, ← hstore]

/-- A block of any outcome keeps what minting and admitted transactions keep. -/
theorem processBlock_keeps {P : Ledger → Prop} (hbank : Mint.BankKeeps P)
    (htx : ∀ {schedule store tx l a l'}, execute schedule store tx l = .ok (a, l') → P l → P l')
    (height : UInt64) (time : BlockTime) (txs : List Transaction) :
    Attempt.Keeps (fun c => P c.ledger) (processBlock height time txs) :=
  .bind (openBlock_keeps hbank height time) fun start => .bind .get fun _ =>
    .bind (.within (processFrom_keeps start.2 _ htx 0 txs) (fun _ h => h) fun _ _ _ h => h)
      fun _ => .pure _

end Chain

end ChainEconomy
