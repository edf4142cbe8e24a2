import ChainEconomy.Chain.Block
import ChainEconomy.Chain.Schedule

/-! # Runs of blocks

Blocks of ascending heights at evenly spaced times, each with the transactions scheduled for its
height. A run ends at its first fault. -/

namespace ChainEconomy.Chain

/-- The time of a block: those of heights above one are spaced by a number of milliseconds. -/
def blockTime (genesis : BlockTime) (height intervalMs : UInt64) : BlockTime :=
  -- The product is cut off at the largest word twice, in milliseconds and in microseconds.
  let millis := saturate ((height.toNat - 1) * intervalMs.toNat)
  genesis.addMicros (saturate (millis.toNat * 1000))

/-- What a run of blocks did. -/
structure Run where
  outcomes : List Outcome
  /-- The fault that ended the run, and the height of its block. -/
  fault : Option (UInt64 × ConsensusFault)
  /-- The chain after the run. -/
  chain : Chain

/-- Processes a number of blocks, the first of which has the given height. -/
def runFrom (genesis : BlockTime) (intervalMs : UInt64) (schedule : Schedule) (height : UInt64) :
    Nat → Chain → Run
  | 0, c => ⟨[], none, c⟩
  | blocks + 1, c =>
    let time := blockTime genesis height intervalMs
    match (processBlock height time (Schedule.transactionsAt schedule height)).run c with
    | (.error fault, c) => ⟨[], some (height, fault), c⟩
    | (.ok outcome, c) =>
      let run := runFrom genesis intervalMs schedule (height + 1) blocks c
      { run with outcomes := outcome :: run.outcomes }

/-- Processes a number of blocks, from height one on. -/
def run (genesis : BlockTime) (intervalMs : UInt64) (schedule : Schedule) (blocks : UInt64) :
    Chain → Run := runFrom genesis intervalMs schedule 1 blocks.toNat

end ChainEconomy.Chain
