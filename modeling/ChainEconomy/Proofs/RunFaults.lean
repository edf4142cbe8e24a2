import ChainEconomy.Chain.Run
import ChainEconomy.Proofs.BlockSpacing
import ChainEconomy.Proofs.BlockStart
import ChainEconomy.Proofs.EconomySoundness

/-!
# When a run of blocks faults

The times of a run are computed, not observed: they are evenly spaced until their sum reaches the
largest word, and stand still from there on. On a medium that does not fail, this is all that can
end a run. A chain that starts from a genesis is ready for its next block, every block that succeeds
leaves it ready and puts its own time into the store, and a block of a ready chain ends with a fault
exactly if its time does not follow the time in the store closely enough. What its transactions ask
for makes no difference.

## Key results

- `Mint.elapsedWithin_eq_error_iff`: the faults that a time can cause
- `blockTime_le_previous_iff`: times of a run stop advancing at the largest word, and only there
- `Ready.exists_processBlock_eq_ok`, `Ready.processBlock_untimely`: one block
- `Ready.runFrom`: the blocks before
- `Genesis.Starts.fault_iff_untimely`: the block of any height of a run
-/

namespace ChainEconomy

open Attempt

/-! ## Times -/

namespace Mint

/-- The fault of a block that comes at a given time, where the time of the last block and a bound on
the seconds in between are given as well. -/
inductive Untimely (limit : UInt64) (previous now : BlockTime) : ConsensusFault → Prop
  /-- The time does not go on. -/
  | tooEarly (h : now.micros.toNat ≤ previous.micros.toNat) :
    Untimely limit previous now (.nonMonotonicTime previous now)
  /-- The whole seconds in between exceed the bound. -/
  | tooLate {elapsed : UInt64} (hcount : elapsed.toNat = Chain.secondsBetween previous now)
      (hlimit : limit.toNat < elapsed.toNat) :
    Untimely limit previous now (.elapsedTimeOutOfBounds elapsed limit)

/-- The time of a block is refused for what is wrong with it, and for nothing else. -/
theorem elapsedWithin_eq_error_iff {limit : UInt64} {previous now : BlockTime}
    {fault : ConsensusFault} :
    elapsedWithin limit previous now = .error fault ↔ Untimely limit previous now fault := by
  unfold elapsedWithin
  constructor
  · intro h
    split at h
    · -- No seconds have been counted, or more than there may be.
      next hnone =>
      cases h
      -- Seconds are counted unless the time does not go on.
      unfold BlockTime.wholeSecondsSince at hnone
      split at hnone
      · next hle => exact .tooEarly (by simpa using hle)
      · cases hnone
    · next elapsed helapsed =>
      split at h
      · next hlimit =>
        cases h
        exact .tooLate (Chain.toNat_of_wholeSecondsSince helapsed) (by simpa using hlimit)
      · cases h
  · rintro (hle | @⟨elapsed, hcount, hlimit⟩)
    · have hnone : now.wholeSecondsSince previous = none := if_pos (by simpa using hle)
      rw [hnone]
    · have hlater : ¬ now.micros.toNat ≤ previous.micros.toNat := by
        intro hle
        rw [Chain.secondsBetween, Nat.sub_eq_zero_of_le hle, Nat.zero_div] at hcount
        omega
      have hsome : now.wholeSecondsSince previous = some elapsed := by
        unfold BlockTime.wholeSecondsSince
        rw [if_neg (by simpa using hlater)]
        exact congrArg some (UInt64.toNat_inj.1 ((UInt64.toNat_ofNat_of_lt'
          (Chain.secondsBetween_lt previous now)).trans hcount.symm))
      rw [hsome]
      exact if_pos (by simpa using hlimit)

end Mint

namespace Chain

/-- The time of a block as a number: the multiples of the interval are cut off at the largest word,
before and after they are turned into microseconds, and so is the sum. -/
theorem toNat_blockTime (genesis : BlockTime) (height intervalMs : UInt64) :
    (blockTime genesis height intervalMs).micros.toNat =
      min (genesis.micros.toNat +
        min (min ((height.toNat - 1) * intervalMs.toNat) Json.maxWord * 1000) Json.maxWord)
          Json.maxWord := by
  unfold blockTime BlockTime.addMicros
  simp only [toNat_saturate]

/-- The height of the block before, as a number. -/
theorem toNat_sub_one {height : UInt64} (h : 1 ≤ height.toNat) :
    (height - 1).toNat = height.toNat - 1 := UInt64.toNat_sub_of_le _ _ h

/-- Times of blocks go on from block to block as long as they can. -/
theorem blockTime_le_previous_iff {genesis : BlockTime} {height intervalMs : UInt64}
    (hheight : 2 ≤ height.toNat) (hinterval : intervalMs ≠ 0) :
    (blockTime genesis height intervalMs).micros.toNat ≤
        (blockTime genesis (height - 1) intervalMs).micros.toNat ↔
      (blockTime genesis (height - 1) intervalMs).micros.toNat = Json.maxWord := by
  have hpositive : 0 < intervalMs.toNat := by
    refine Nat.pos_of_ne_zero fun h => hinterval ?_
    exact UInt64.toNat_inj.1 h
  have hone := toNat_sub_one (by omega : 1 ≤ height.toNat)
  -- One more interval than up to the block before.
  have hstep : (height.toNat - 1) * intervalMs.toNat =
      (height.toNat - 1 - 1) * intervalMs.toNat + intervalMs.toNat := by
    rw [← Nat.succ_mul]
    congr 1
    omega
  rw [toNat_blockTime, toNat_blockTime, hone, hstep]
  generalize (height.toNat - 1 - 1) * intervalMs.toNat = before
  have hgenesis : genesis.micros.toNat ≤ Json.maxWord := by
    have hbound : genesis.micros.toNat < 2 ^ 64 := genesis.micros.toNat_lt
    show _ ≤ 18446744073709551615
    omega
  generalize Json.maxWord = word at hgenesis
  omega

/-! ## One block -/

/-- The chain can process a block: the records that a block needs are there and pass their checks,
and the medium does not fail. -/
structure Ready (c : Chain) (params : Governance.Params) (state : Mint.State) : Prop where
  medium : c.store.medium = .sound
  loaded : loadParams c = .ok params
  fee : params.fee.check = .ok ()
  mint : params.mint.check = .ok ()
  state : Mint.State.loadChecked c.store = .ok state

/-- A chain on a medium that does not fail is ready from its genesis on. -/
theorem Genesis.Starts.ready {g : Genesis} {c : Chain} (h : g.Starts c)
    (hmedium : c.store.medium = .sound) :
    c.Ready ⟨g.economy.feeParams.unsigned, g.economy.mintParams.unsigned⟩ g.economy.minter := by
  obtain ⟨before, hinit⟩ := h.store
  -- What the genesis has written can be read, and has been checked.
  obtain ⟨hcheck, -, hfind⟩ := Governance.Genesis.find?_of_init hinit
  have hsound := (Governance.Genesis.check_eq_ok_iff.1 hcheck).1
  have hread : ∀ key, c.store.medium.readFailure key = none := fun key => by rw [hmedium]; rfl
  -- Whatever stood in the store before, the records of the genesis stand in front of it.
  have hfront : ∀ {key value}, g.economy.valueAt key = some value →
      c.store.entries.find? key = some value := fun {key value} hvalue => by
    rw [hfind key, hvalue, Option.some_or]
  have hfee := Governance.loadFee_of_find? (hfront g.economy.valueAt_fee) (hread _)
  have hmint := Governance.loadMint_of_find? (hfront g.economy.valueAt_mint) (hread _)
  have hstate : Mint.State.load c.store = .ok (some g.economy.minter) :=
    Store.getRecord_of_find? (hfront g.economy.valueAt_minter)
      (g.economy.minter.isPlain_toJson _) g.economy.minter.ofJson_toJson (hread _)
  refine ⟨hmedium, ?_, Fee.Params.check_unsigned.2 hsound.fee,
    Mint.Params.check_unsigned.2 hsound.mint, Mint.loadChecked_eq_ok_iff.2 ⟨hstate, hsound.minter⟩⟩
  unfold loadParams
  rw [hfee, hmint]
  rfl

namespace Ready

variable {c c' : Chain} {params : Governance.Params} {state : Mint.State}

/-- A chain whose state of the minter has been replaced is ready with the new state. -/
theorem save (h : c.Ready params state) {state' : Mint.State} (hcheck : state'.check = .ok ())
    (hsave : state'.save c.store = .ok c'.store) : c'.Ready params state' := by
  -- The state of the minter has a key of its own: the two records of parameters are read as before.
  have hother : ∀ {α : Type} (decode : Json → Except Json.Fault α) {key : Bytes},
      key ≠ Store.minterKey → c'.store.getRecord decode key = c.store.getRecord decode key :=
    fun decode _ hkey => Store.getRecord_setRecord_of_ne decode hsave hkey
  have hfee : Governance.loadFee c'.store = Governance.loadFee c.store := by
    unfold Governance.loadFee Fee.Params.load
    rw [hother _ Store.minterKey_ne_fee.symm]
  have hmint : Governance.loadMint c'.store = Governance.loadMint c.store := by
    unfold Governance.loadMint Mint.Params.load
    rw [hother _ Store.minterKey_ne_mint.symm]
  have hstate : Mint.State.load c'.store = .ok (some state') :=
    Mint.State.load_save (Mint.loadChecked_eq_ok_iff.1 h.state).1 hsave
  refine ⟨?_, ?_, h.fee, h.mint, Mint.loadChecked_eq_ok_iff.2 ⟨hstate, hcheck⟩⟩
  · exact (Store.medium_of_set hsave).trans h.medium
  · have hparams := h.loaded
    unfold loadParams at hparams ⊢
    rw [hfee, hmint]
    exact hparams

variable (h : c.Ready params state) {height : UInt64} {time : BlockTime}
include h

/-- A block whose time does not follow the time in the store closely enough ends with a fault. -/
theorem processBlock_untimely (hheight : height ≠ 1) {fault : ConsensusFault}
    (htime : Mint.Untimely params.mint.maxAccrualSeconds state.previousTime time fault)
    (txs : List Transaction) : (processBlock height time txs).run c = (.error fault, c) := by
  -- The start of the block finds the time before it writes anything.
  have hrefused := Mint.beginBlock_untimely (w := world c) h.mint h.state hheight
    (Mint.elapsedWithin_eq_error_iff.2 htime)
  refine run_bind_eq_error.2 (.inl ?_)
  refine run_bind_eq_error.2 (.inr ⟨params, c, run_read_eq_ok.2 ⟨h.loaded, rfl⟩, ?_⟩)
  refine run_bind_eq_error.2 (.inl ?_)
  rw [run_within, hrefused]
  rfl

/-- Any other block succeeds, whatever its transactions are, and leaves the chain ready with its own
time in the store. -/
theorem exists_processBlock_eq_ok
    (htime : height = 1 ∨
      ∀ fault, ¬ Mint.Untimely params.mint.maxAccrualSeconds state.previousTime time fault)
    (txs : List Transaction) :
    ∃ o c' leftover, (processBlock height time txs).run c = (.ok o, c') ∧
      c'.Ready params ⟨time, leftover⟩ := by
  have helapsed : height = 1 ∨ ∃ elapsed, Mint.elapsedWithin params.mint.maxAccrualSeconds
      state.previousTime time = .ok elapsed := by
    refine htime.imp_right fun hnone => ?_
    cases hwithin : Mint.elapsedWithin params.mint.maxAccrualSeconds state.previousTime time with
    | ok elapsed => exact ⟨elapsed, rfl⟩
    | error fault => exact absurd (Mint.elapsedWithin_eq_error_iff.1 hwithin) (hnone fault)
  have hwrite : c.store.medium.writeFailure Store.minterKey = none := by
    rw [h.medium]
    rfl
  obtain ⟨mint, w, leftover, hmint, hsave, hcheck⟩ :=
    Mint.exists_beginBlock_eq_ok (w := world c) h.mint h.state hwrite helapsed
  obtain ⟨schedule, hschedule⟩ : ∃ schedule, Fee.Schedule.ofParams params.fee = .ok schedule := by
    unfold Fee.Schedule.ofParams
    split
    · next e he => cases he.symm.trans h.fee
    · exact ⟨_, rfl⟩
  have hmedium : w.store.medium = .sound := (Store.medium_of_set hsave).trans h.medium
  -- No fault is left for the transactions.
  obtain ⟨tally, l, htxs⟩ : ∃ tally l,
      (processFrom schedule w.store 0 txs).run w.bank = (.ok tally, l) := by
    cases hrun : (processFrom schedule w.store 0 txs).run w.bank with
    | mk r l =>
      cases r with
      | ok tally => exact ⟨tally, l, rfl⟩
      | error fault =>
        exact (processFrom_refusesOnly schedule hmedium (fun _ => False) 0 txs _ trivial _ _
          hrun).elim
  have hrun : (processBlock height time txs).run c =
      -- By now nothing is left that could have gone wrong.
      (.ok ⟨height, time, mint, tally⟩, ⟨w.store, l⟩) :=
    processBlock_eq_ok_iff.2 ⟨params, mint, w, schedule, tally, h.loaded, hmint, hschedule, htxs,
      rfl, rfl⟩
  exact ⟨_, _, leftover, hrun, h.save hcheck hsave⟩

/-- A block ends with a fault exactly if it is not the first one and its time does not follow the
time in the store closely enough. -/
theorem processBlock_eq_error_iff {txs : List Transaction} {fault : ConsensusFault} :
    (∃ c', (processBlock height time txs).run c = (.error fault, c')) ↔
      height ≠ 1 ∧
        Mint.Untimely params.mint.maxAccrualSeconds state.previousTime time fault := by
  constructor
  · rintro ⟨c', hrun⟩
    -- A block that came in time would have succeeded.
    have hlate : ¬ (height = 1 ∨ ∀ fault,
        ¬ Mint.Untimely params.mint.maxAccrualSeconds state.previousTime time fault) := by
      intro htime
      obtain ⟨o, next, leftover, hok, -⟩ := h.exists_processBlock_eq_ok htime txs
      cases hrun.symm.trans hok
    push Not at hlate
    obtain ⟨hheight, fault', huntimely⟩ := hlate
    cases hrun.symm.trans (h.processBlock_untimely hheight huntimely txs)
    exact ⟨hheight, huntimely⟩
  · rintro ⟨hheight, huntimely⟩
    exact ⟨c, h.processBlock_untimely hheight huntimely txs⟩

/-- A block that succeeds leaves its own time in the store. -/
theorem of_processBlock {txs : List Transaction} {o : Outcome}
    (hrun : (processBlock height time txs).run c = (.ok o, c')) :
    ∃ leftover, c'.Ready params ⟨time, leftover⟩ := by
  have htime : height = 1 ∨
      ∀ fault, ¬ Mint.Untimely params.mint.maxAccrualSeconds state.previousTime time fault := by
    by_contra hlate
    push Not at hlate
    obtain ⟨hheight, fault, huntimely⟩ := hlate
    obtain ⟨c'', hfault⟩ := h.processBlock_eq_error_iff.2 ⟨hheight, huntimely⟩
    cases hrun.symm.trans hfault
  obtain ⟨o', next, leftover, hok, hnext⟩ := h.exists_processBlock_eq_ok htime txs
  cases hrun.symm.trans hok
  exact ⟨leftover, hnext⟩

end Ready

/-! ## Runs -/

section

variable {genesis : BlockTime} {intervalMs : UInt64} {schedule : Schedule}

/-- A run without a fault has a successful first block, and goes on behind it. -/
theorem runFrom_succ_faultless {height : UInt64} {blocks : Nat} {c : Chain}
    (h : (runFrom genesis intervalMs schedule height (blocks + 1) c).fault = none) :
    ∃ o next, (processBlock height (blockTime genesis height intervalMs)
        (Schedule.transactionsAt schedule height)).run c = (.ok o, next) ∧
      (runFrom genesis intervalMs schedule (height + 1) blocks next).fault = none ∧
      (runFrom genesis intervalMs schedule height (blocks + 1) c).chain =
        (runFrom genesis intervalMs schedule (height + 1) blocks next).chain := by
  rw [runFrom] at h ⊢
  dsimp only at h ⊢
  split at h
  · cases h
  · next o next hblock => exact ⟨o, next, hblock, h, rfl⟩

/-- A run without a fault leaves the chain ready, and the time in the store is that of its last
block. -/
theorem Ready.runFrom {params : Governance.Params} {state : Mint.State} {height : UInt64}
    {blocks : Nat} {c : Chain} (h : c.Ready params state)
    (hfault : (Chain.runFrom genesis intervalMs schedule height (blocks + 1) c).fault = none) :
    ∃ leftover, (Chain.runFrom genesis intervalMs schedule height (blocks + 1) c).chain.Ready
      params ⟨blockTime genesis (height + UInt64.ofNat blocks) intervalMs, leftover⟩ := by
  -- By induction on the number of blocks, with any state of the minter to start from.
  induction blocks generalizing height c state with
  | zero =>
    obtain ⟨o, next, hblock, -, hchain⟩ := runFrom_succ_faultless hfault
    have hlast : height + UInt64.ofNat 0 = height := UInt64.add_zero height
    rw [hchain, hlast]
    exact h.of_processBlock hblock
  | succ blocks ih =>
    obtain ⟨o, next, hblock, hrest, hchain⟩ := runFrom_succ_faultless hfault
    obtain ⟨leftover, hnext⟩ := h.of_processBlock hblock
    have hlast : height + UInt64.ofNat (blocks + 1) = height + 1 + UInt64.ofNat blocks := by
      rw [UInt64.ofNat_add, UInt64.add_comm (UInt64.ofNat blocks), ← UInt64.add_assoc]
      rfl
    rw [hchain, hlast]
    exact ih hnext hrest

end

/-- Blocks are processed at their times behind a genesis, on a medium that does not fail. If all
blocks up to a height have succeeded, then the block of this height ends with a fault exactly if it
is not the first one, and either its time is not later than the one before, or the seconds in
between exceed the bound of the genesis. Times of blocks stand still only at the largest word. No
transactions make a difference, neither those of the blocks before nor those of the block itself. -/
theorem Genesis.Starts.fault_iff_untimely {g : Genesis} {c : Chain} (hstart : g.Starts c)
    (hmedium : c.store.medium = .sound) {intervalMs : UInt64} (hinterval : intervalMs ≠ 0)
    {schedule : Schedule} {height : UInt64} (hheight : height ≠ 0)
    (hbefore : (run g.time intervalMs schedule (height - 1) c).fault = none) :
    let previous := blockTime g.time (height - 1) intervalMs
    let now := blockTime g.time height intervalMs
    (∀ txs fault,
      (∃ c', (processBlock height now txs).run (run g.time intervalMs schedule (height - 1) c).chain
          = (.error fault, c')) ↔
        2 ≤ height.toNat ∧
          Mint.Untimely g.economy.mintParams.maxAccrualSeconds previous now fault) ∧
      (2 ≤ height.toNat → now.micros.toNat ≤ previous.micros.toNat →
        previous.micros.toNat = Json.maxWord) := by
  intro previous now
  refine ⟨fun txs fault => ?_, fun hlater => (blockTime_le_previous_iff hlater hinterval).1⟩
  have hready := hstart.ready hmedium
  by_cases hfirst : height = 1
  · -- There is no block before, and the first one comes at any time.
    subst hfirst
    have hchain : (run g.time intervalMs schedule (1 - 1) c).chain = c := rfl
    rw [hchain, hready.processBlock_eq_error_iff]
    simp
  · have hbound : height.toNat < 2 ^ 64 := height.toNat_lt
    have hlater : 2 ≤ height.toNat := by
      have hzero : height.toNat ≠ 0 := fun h => hheight (UInt64.toNat_inj.1 h)
      have hone : height.toNat ≠ 1 := fun h => hfirst (UInt64.toNat_inj.1 h)
      omega
    -- The run counts its blocks from the first one on.
    have hblocks : (height - 1).toNat = height.toNat - 2 + 1 := by
      rw [toNat_sub_one (by omega)]
      omega
    have hlast : 1 + UInt64.ofNat (height.toNat - 2) = height - 1 := by
      refine UInt64.toNat_inj.1 ?_
      rw [UInt64.toNat_add, UInt64.toNat_ofNat', hblocks]
      show (1 + (height.toNat - 2) % 2 ^ 64) % 2 ^ 64 = _
      omega
    unfold run at hbefore ⊢
    rw [hblocks] at hbefore ⊢
    obtain ⟨leftover, hready⟩ := hready.runFrom hbefore
    rw [hready.processBlock_eq_error_iff, hlast]
    exact and_congr_left fun _ => ⟨fun _ => hlater, fun _ => hfirst⟩

/-- The genesis of a chain that starts half a second before the largest word. -/
def Sample.lateGenesis : Genesis :=
  { Sample.genesis with time := ⟨UInt64.ofNat (Json.maxWord - 500000)⟩ }

/-- The chain that starts from the late genesis. -/
def Sample.lateChain : Chain :=
  ⟨(Sample.lateGenesis.economy.init.run (Store.empty .sound)).2, Sample.lateGenesis.ledger⟩

/-- The late genesis can be written into an empty store. -/
theorem Sample.lateChain_init :
    Sample.lateGenesis.economy.init.run (Store.empty .sound) = (.ok (), Sample.lateChain.store) :=
  Prod.ext (Except.eq_ok_of_isOk (by decide +kernel)) rfl

/-- Of blocks a second apart, the third one would come at the time of the second one. -/
theorem Genesis.Starts.fault_iff_untimely_sample :
    ∃ c', (processBlock 3 (blockTime Sample.lateGenesis.time 3 1000) [Sample.payment 100]).run
      (run Sample.lateGenesis.time 1000 .empty 2 Sample.lateChain).chain =
        (.error (.nonMonotonicTime (blockTime Sample.lateGenesis.time 2 1000)
          (blockTime Sample.lateGenesis.time 3 1000)), c') := by
  have hstart : Sample.lateGenesis.Starts Sample.lateChain :=
    ⟨Except.eq_ok_of_isOk (by decide +kernel), ⟨.empty .sound, Sample.lateChain_init⟩, rfl⟩
  have hmedium : Sample.lateChain.store.medium = .sound :=
    (Governance.Genesis.find?_of_init Sample.lateChain_init).2.1
  have hinterval : (1000 : UInt64) ≠ 0 := by decide
  have hheight : (3 : UInt64) ≠ 0 := by decide
  have hbefore :
      (run Sample.lateGenesis.time 1000 .empty (3 - 1) Sample.lateChain).fault = none := by
    decide +kernel
  obtain ⟨hfault, -⟩ := hstart.fault_iff_untimely hmedium hinterval hheight hbefore
  -- Both times are the largest word.
  have hstill : (blockTime Sample.lateGenesis.time 3 1000).micros.toNat ≤
      (blockTime Sample.lateGenesis.time 2 1000).micros.toNat := by decide +kernel
  -- The third block comes no later than the second one, which is all that the theorem asks.
  exact (hfault [Sample.payment 100] _).2 ⟨by decide, .tooEarly hstill⟩

end Chain

end ChainEconomy
