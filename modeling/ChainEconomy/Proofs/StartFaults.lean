import ChainEconomy.Proofs.RunFaults

/-!
# Faults at the start of a block

The start of a block makes its checks in a fixed order, and this order decides which fault everyone
who processes the block reports. A time that does not follow the time in the store closely enough is
reported exactly if all that is looked at before it is in order; what comes after it, such as a
store that does not take the new state, makes no difference.

Whatever goes wrong in front of the bank does so before anything has changed. For this to be said of
the reports as well, the start of a block is given a log here, which it adds its report to as its
last step.

## Key results

- `run_beginBlockLogged`: with a log, nothing else comes out, and what is reported is in the log
- `beginBlockLogged_eq_error_iff`: the ways in which a start with a log faults
- `exists_untimely_iff`: when the time is to blame
- `beginBlock_faults`: the faults of all starts of blocks
-/

namespace ChainEconomy.Mint

open Attempt

/-! ## The start of a block, with a log -/

/-- What the start of a block works on, together with the log that it reports to. -/
structure Logged (β : Type) where
  world : World β
  log : List Event

variable {α β : Type}

/-- A step that reports nothing. -/
def unlogged (x : Attempt (World β) ConsensusFault α) : Attempt (Logged β) ConsensusFault α :=
  within Logged.world (fun w s => { s with world := w }) x

/-- Adds a report to the log. -/
def report (e : Event) : Attempt (Logged β) ConsensusFault Unit :=
  change fun s => .ok { s with log := s.log ++ [e] }

/-- The start of a block, which reports what it has minted when all is done. The first block has
nothing to report. -/
def beginBlockLogged [Bank β] (height : UInt64) (time : BlockTime) (params : Params) :
    Attempt (Logged β) ConsensusFault Outcome := do
  let rate ← ofExcept (usableRate params)
  let state ← read fun s => State.loadChecked s.world.store
  if height = 1 then
    unlogged (persist { state with previousTime := time })
    return ⟨height, 0, 0, split 0, state.leftover⟩
  else
    let elapsed ← ofExcept (elapsedWithin params.maxAccrualSeconds state.previousTime time)
    let s ← get
    let supply := (Bank.totalSupply s.world.bank).amountOf params.denom
    let accrual := accrue supply rate state.leftover elapsed
    unlogged (persist ⟨time, accrual.leftover⟩)
    let distribution ← unlogged (within World.bank (fun bank w => { w with bank := bank })
      (issue params.denom accrual.minted))
    report (.ofPairs "mint" [("minted_amount", toString accrual.minted)])
    return ⟨height, elapsed, accrual.minted, distribution, accrual.leftover⟩

variable [Bank β] {height : UInt64} {time : BlockTime} {params : Params} {s s' : Logged β}
  {fault : ConsensusFault}

/-- A log makes no difference to the start of a block, and gets the reports of its outcome. -/
theorem run_beginBlockLogged (height : UInt64) (time : BlockTime) (params : Params)
    (s : Logged β) :
    (beginBlockLogged height time params).run s =
      match (beginBlock height time params).run s.world with
      | (.ok o, w) => (.ok o, ⟨w, s.log ++ o.events⟩)
      | (.error fault, w) => (.error fault, ⟨w, s.log⟩) := by
  unfold beginBlockLogged beginBlock
  -- Both runs take the same steps, and the one with a log has one more at its end.
  simp only [run_bind, run_ofExcept, run_read]
  cases usableRate params with
  | error fault => rfl
  | ok rate =>
    dsimp only
    cases State.loadChecked s.world.store with
    | error fault => rfl
    | ok state =>
      dsimp only
      split
      · next hheight =>
        simp only [run_bind, unlogged, run_within]
        cases (persist { state with previousTime := time }).run s.world with
        | mk r w => cases r <;> simp [Outcome.events, hheight]
      · next hheight =>
        simp only [run_bind, run_ofExcept, run_get, unlogged, run_within]
        cases elapsedWithin params.maxAccrualSeconds state.previousTime time with
        | error fault => rfl
        | ok elapsed =>
          dsimp only
          generalize accrue ((Bank.totalSupply s.world.bank).amountOf params.denom) rate
            state.leftover elapsed = accrual
          cases (persist ⟨time, accrual.leftover⟩).run s.world with
          | mk r saved =>
            cases r with
            | error fault => rfl
            | ok u =>
              dsimp only
              cases (issue params.denom accrual.minted).run saved.bank with
              | mk r bank => cases r <;> simp [report, run_change, Outcome.events, hheight]

/-- A start with a log faults as it does without one, and leaves the log alone. -/
theorem beginBlockLogged_eq_error_iff :
    (beginBlockLogged height time params).run s = (.error fault, s') ↔
      Faults height time params s.world fault s'.world ∧ s'.log = s.log := by
  rw [run_beginBlockLogged, ← beginBlock_eq_error_iff]
  cases (beginBlock height time params).run s.world with
  | mk r w =>
    cases r with
    | ok o => simp
    | error fault' =>
      obtain ⟨w', log⟩ := s'
      simp [eq_comm (a := log), and_assoc]

/-! ## Times -/

/-- The start of a block comes to look at its time: the block is not the first one, the parameters
are sensible, and the state of the minter is there, readable and sound. -/
structure ChecksTime (height : UInt64) (params : Params) (s : Store) (state : State) : Prop where
  height : height ≠ 1
  params : params.check = .ok ()
  loaded : State.load s = .ok (some state)
  sound : state.leftover.isBelowOne = true

/-- A fault that neither the store nor the bank is to blame for is one of the time. -/
theorem Faults.untimely {w w' : World β} (h : Faults height time params w fault w')
    (hstore : fault.blamesStore = false) (hbank : fault.blamesBank = false) :
    ∃ state, ChecksTime height params w.store state ∧
      Untimely params.maxAccrualSeconds state.previousTime time fault := by
  -- Of all faults, only that of the time is left when store and bank are out of the question.
  cases h with
  | params hrate =>
    obtain ⟨e, rfl⟩ := usableRate_eq_error hrate
    cases hstore
  | state _ hstate =>
    obtain ⟨e, rfl⟩ | ⟨corruption, rfl⟩ := loadChecked_eq_error hstate <;> cases hstore
  | first => cases hstore
  | time hrate hstate hheight htime =>
    obtain ⟨hload, hcheck⟩ := loadChecked_eq_ok_iff.1 hstate
    have hchecks : ChecksTime height params w.store _ :=
      ⟨hheight, (usableRate_eq_ok hrate).1, hload, State.check_eq_ok_iff.1 hcheck⟩
    exact ⟨_, hchecks, elapsedWithin_eq_error_iff.1 htime⟩
  | later => cases hstore
  | bank hrate _ _ _ _ _ hissue => cases hbank.symm.trans (blamesBank_of_issue hrate hissue)

/-- The time is to blame exactly if the start of the block comes to look at it, and it does not
follow the time in the store closely enough. -/
theorem exists_untimely_iff (hstore : fault.blamesStore = false)
    (hbank : fault.blamesBank = false) :
    (∃ s', (beginBlockLogged height time params).run s = (.error fault, s')) ↔
      ∃ state, ChecksTime height params s.world.store state ∧
        Untimely params.maxAccrualSeconds state.previousTime time fault := by
  constructor
  · rintro ⟨s', hrun⟩
    exact (beginBlockLogged_eq_error_iff.1 hrun).1.untimely hstore hbank
  · rintro ⟨state, hchecks, htime⟩
    obtain ⟨rate, hrate⟩ := exists_usableRate_eq_ok hchecks.params
    have hstate : State.loadChecked s.world.store = .ok state :=
      loadChecked_eq_ok_iff.2 ⟨hchecks.loaded, State.check_eq_ok_iff.2 hchecks.sound⟩
    exact ⟨s, beginBlockLogged_eq_error_iff.2
      ⟨.time hrate hstate hchecks.height (elapsedWithin_eq_error_iff.2 htime), rfl⟩⟩

/-- A time is found not to go on if it does not, and the fault names both times. -/
theorem untimely_nonMonotonicTime_iff {limit : UInt64} {before now previous current : BlockTime} :
    Untimely limit before now (.nonMonotonicTime previous current) ↔
      now.micros.toNat ≤ before.micros.toNat ∧ previous = before ∧ current = now := by
  constructor
  · rintro ⟨hle⟩
    exact ⟨hle, rfl, rfl⟩
  · rintro ⟨hle, rfl, rfl⟩
    exact .tooEarly hle

/-- A time is found to be out of bounds if too many seconds have passed, and the fault names their
number and the bound. -/
theorem untimely_elapsedTimeOutOfBounds_iff {limit elapsed bound : UInt64}
    {before now : BlockTime} :
    Untimely limit before now (.elapsedTimeOutOfBounds elapsed bound) ↔
      before.micros.toNat < now.micros.toNat ∧
        elapsed.toNat = Chain.secondsBetween before now ∧
        limit.toNat < elapsed.toNat ∧ bound = limit := by
  constructor
  · intro h
    cases h with
    | tooLate hcount hlimit =>
      refine ⟨?_, hcount, hlimit, rfl⟩
      -- No seconds would have passed otherwise.
      by_contra hnot
      rw [Chain.secondsBetween, Nat.sub_eq_zero_of_le (Nat.not_lt.1 hnot), Nat.zero_div] at hcount
      omega
  · rintro ⟨-, hcount, hlimit, rfl⟩
    exact .tooLate hcount hlimit

/-! ## All faults -/

/-- Sensible parameters are never to blame. -/
theorem Faults.ne_invalidParams {w w' : World β} (h : Faults height time params w fault w')
    (hcheck : params.check = .ok ()) (e : UnusableParams) : fault ≠ .invalidParams e := by
  -- Each fault comes from a step of its own, and that of the parameters is ruled out.
  rintro rfl
  cases h with
  | params hrate =>
    obtain ⟨rate, hrate'⟩ := exists_usableRate_eq_ok hcheck
    cases hrate.symm.trans hrate'
  | state _ hstate => obtain ⟨e, he⟩ | ⟨corruption, he⟩ := loadChecked_eq_error hstate <;> cases he
  | time _ _ _ htime => cases elapsedWithin_eq_error htime
  | bank hrate _ _ _ _ _ hissue => cases blamesBank_of_issue hrate hissue

/-- A fault that the bank is not to blame for has left everything as it was. -/
theorem Faults.unchanged {w w' : World β} (h : Faults height time params w fault w')
    (hbank : fault.blamesBank = false) : w' = w := by
  cases h with
  | bank hrate _ _ _ _ _ hissue => cases hbank.symm.trans (blamesBank_of_issue hrate hissue)
  | _ => rfl

/-- The faults of the start of a block, for every store, which may fail to read and to write, every
bank and every log. The log only gets the reports of the outcome. A block is too early or too late
exactly if the start of the block comes to look at its time, and this time is not after the time in
the store or more whole seconds behind it than the bound. A fault that the bank is not to blame for
leaves store, bank and log as they were. Sensible parameters are never found to be of no use. -/
theorem beginBlock_faults (height : UInt64) (time : BlockTime) (params : Params) (s : Logged β) :
    ((beginBlockLogged height time params).run s =
      match (beginBlock height time params).run s.world with
      | (.ok o, w) => (.ok o, ⟨w, s.log ++ o.events⟩)
      | (.error fault, w) => (.error fault, ⟨w, s.log⟩)) ∧
    (∀ previous current,
      (∃ s', (beginBlockLogged height time params).run s =
          (.error (.nonMonotonicTime previous current), s')) ↔
        ∃ state, ChecksTime height params s.world.store state ∧
          time.micros.toNat ≤ state.previousTime.micros.toNat ∧
          previous = state.previousTime ∧ current = time) ∧
    (∀ elapsed limit,
      (∃ s', (beginBlockLogged height time params).run s =
          (.error (.elapsedTimeOutOfBounds elapsed limit), s')) ↔
        ∃ state, ChecksTime height params s.world.store state ∧
          state.previousTime.micros.toNat < time.micros.toNat ∧
          elapsed.toNat = Chain.secondsBetween state.previousTime time ∧
          params.maxAccrualSeconds.toNat < elapsed.toNat ∧ limit = params.maxAccrualSeconds) ∧
    (∀ fault s', (beginBlockLogged height time params).run s = (.error fault, s') →
      fault.blamesBank = false → s' = s) ∧
    (params.check = .ok () → ∀ e s',
      (beginBlockLogged height time params).run s ≠ (.error (.invalidParams e), s')) := by
  refine ⟨run_beginBlockLogged height time params s, fun previous current => ?_,
    fun elapsed limit => ?_, fun fault s' hrun hbank => ?_, fun hcheck e s' hrun => ?_⟩
  · -- Which faults of the time there are has been said by their cases.
    rw [exists_untimely_iff rfl rfl]
    simp only [untimely_nonMonotonicTime_iff]
  · rw [exists_untimely_iff rfl rfl]
    simp only [untimely_elapsedTimeOutOfBounds_iff]
  · obtain ⟨hfaults, hlog⟩ := beginBlockLogged_eq_error_iff.1 hrun
    have hworld := hfaults.unchanged hbank
    cases s
    cases s'
    cases hworld
    cases hlog
    rfl
  · exact (beginBlockLogged_eq_error_iff.1 hrun).1.ne_invalidParams hcheck e rfl

/-- The chain of the sample on a medium that is full, with a report in the log. -/
def sampleFull : Logged Ledger :=
  ⟨⟨⟨Chain.Sample.chain.store.entries, ⟨fun _ => none, fun _ => some (.database "disk full")⟩⟩,
    Chain.Sample.chain.ledger⟩, [.ofPairs "mint" [("minted_amount", "1")]]⟩

/-- A block that comes a second too late is reported as such, although the medium would not have
taken its state, and leaves everything as it was. -/
theorem beginBlock_faults_sample :
    ∃ s', (beginBlockLogged 2 ⟨604801000000⟩ Chain.Sample.genesis.economy.mintParams).run
        sampleFull = (.error (.elapsedTimeOutOfBounds 604801 604800), s') ∧
      s' = sampleFull ∧
      Chain.Sample.genesis.economy.mintParams.check = .ok () ∧
      ∀ e s', (beginBlockLogged 2 ⟨604801000000⟩ Chain.Sample.genesis.economy.mintParams).run
        sampleFull ≠ (.error (.invalidParams e), s') := by
  obtain ⟨-, -, hlate, hunchanged, hparams⟩ := beginBlock_faults 2 ⟨604801000000⟩
    Chain.Sample.genesis.economy.mintParams sampleFull
  have hcheck : Chain.Sample.genesis.economy.mintParams.check = .ok () :=
    Except.eq_ok_of_isOk (by decide +kernel)
  obtain ⟨state, hload, rfl⟩ : ∃ state, State.load sampleFull.world.store = .ok state ∧
      state = some State.genesis :=
    Except.exists_of_toOption_map (f := id) (by decide +kernel)
  have hchecks : ChecksTime 2 Chain.Sample.genesis.economy.mintParams sampleFull.world.store
      State.genesis := ⟨by decide, hcheck, hload, by decide⟩
  obtain ⟨s', hrun⟩ := (hlate 604801 604800).2
    ⟨State.genesis, hchecks, by decide, by decide, by decide, by decide⟩
  exact ⟨s', hrun, hunchanged _ _ hrun rfl, hcheck, hparams hcheck⟩

end ChainEconomy.Mint
