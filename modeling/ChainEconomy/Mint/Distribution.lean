import ChainEconomy.Attempt
import ChainEconomy.ConsensusFault

/-! # Distribution of new supply

New supply is created in the account of one module and moved on to two pools: the treasury gets half
of it, rounded down, and the rewards get the rest. -/

namespace ChainEconomy.Mint

/-- The parts of new supply for the two pools. -/
structure Distribution where
  treasury : Nat
  rewards : Nat
  deriving DecidableEq, Repr

/-- Two halves; an odd unit goes to the rewards. -/
def split (minted : Nat) : Distribution := ⟨minted / 2, minted - minted / 2⟩

/-- The name of the module that holds new supply until it is distributed. -/
def source : String := "mint"

/-- The name of the pool that gets the smaller half. -/
def treasuryPool : String := "treasury_pool"

/-- The name of the pool that gets the larger half. -/
def rewardsPool : String := "rewards_pool"

variable {β : Type} [Bank β]

/-- Moves new supply to a pool; moving nothing always succeeds. -/
def moveToPool (pool denom : String) (amount : Nat) : Attempt β ConsensusFault Unit :=
  if amount = 0 then pure ()
  else do
    let coins ← Attempt.ofExcept <|
      (CoinSet.single denom amount).mapError fun e => .invalidParams (.coin e)
    Attempt.change fun bank =>
      (Bank.moduleToModule bank source pool coins).mapError fun e =>
        .distributionFailed source pool coins e

/-- Hands new supply to the pools. -/
def distribute (denom : String) (minted : Nat) : Attempt β ConsensusFault Distribution := do
  let parts := split minted
  moveToPool treasuryPool denom parts.treasury
  moveToPool rewardsPool denom parts.rewards
  return parts

/-- Mints supply and hands it to the pools; none is nothing to do. -/
def issue (denom : String) (minted : Nat) : Attempt β ConsensusFault Distribution :=
  if minted = 0 then pure (split 0)
  else do
    let coins ← Attempt.ofExcept <|
      (CoinSet.single denom minted).mapError fun e => .invalidParams (.coin e)
    Attempt.change fun bank => (Bank.mint bank source coins).mapError fun e => .mintFailed coins e
    distribute denom minted

end ChainEconomy.Mint
