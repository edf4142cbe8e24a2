import ChainEconomy.Event
import ChainEconomy.Mint.Accrual
import ChainEconomy.Mint.Distribution

/-! # Minting at the start of a block

Block 1 only records its time. Any later block has to be later than the one before it, by a time
within the bound; the supply owed for the whole seconds in between is minted and handed to two
pools, and the fraction that is left is kept in the store. -/

namespace ChainEconomy.Mint

/-- What minting works on. -/
structure World (β : Type) where
  store : Store
  bank : β

variable {β : Type} [Bank β]

/-- What minting did for a block. -/
structure Outcome where
  height : UInt64
  elapsedSeconds : UInt64
  minted : Nat
  distribution : Distribution
  leftover : Fixed
  deriving DecidableEq, Repr

/-- The report of minting; the first block has nothing to report. -/
def Outcome.events (o : Outcome) : List Event :=
  if o.height = 1 then [] else [.ofPairs "mint" [("minted_amount", toString o.minted)]]

/-- The state in a store, which has to be there and to be sound. -/
def State.loadChecked (s : Store) : Except ConsensusFault State :=
  match State.load s with
  | .error e => .error (.storage e)
  | .ok none => .error (.corruptState .minterMissing)
  | .ok (some state) =>
    match state.check with
    | .error flaw => .error (.corruptState (.minter flaw))
    | .ok () => .ok state

/-- The rate of parameters that have been checked. -/
def usableRate (params : Params) : Except ConsensusFault Fixed :=
  match params.check with
  | .error e => .error (.invalidParams (.mint e))
  | .ok () => params.rate.mapError fun e => .invalidParams (.mint e)

/-- Whole seconds since the last block, which have to be positive time and within a bound. -/
def elapsedWithin (limit : UInt64) (previous current : BlockTime) : Except ConsensusFault UInt64 :=
  match current.wholeSecondsSince previous with
  | none => .error (.nonMonotonicTime previous current)
  | some elapsed =>
    if Nat.blt limit.toNat elapsed.toNat then .error (.elapsedTimeOutOfBounds elapsed limit)
    else .ok elapsed

/-- Puts a state into the store. -/
def persist (state : State) : Attempt (World β) ConsensusFault Unit :=
  Attempt.change fun w =>
    match state.save w.store with
    | .error e => .error (.storage e)
    | .ok store => .ok { w with store := store }

/-- The start of a block. -/
def beginBlock (height : UInt64) (time : BlockTime) (params : Params) :
    Attempt (World β) ConsensusFault Outcome := do
  -- The parameters are judged before the store is read, at every height.
  let rate ← Attempt.ofExcept (usableRate params)
  let state ← Attempt.read fun w => State.loadChecked w.store
  if height = 1 then
    -- No block comes before the first one, so that its time is taken as it is.
    persist { state with previousTime := time }
    return ⟨height, 0, 0, split 0, state.leftover⟩
  else
    let elapsed ← Attempt.ofExcept
      (elapsedWithin params.maxAccrualSeconds state.previousTime time)
    let world ← Attempt.get
    let supply := (Bank.totalSupply world.bank).amountOf params.denom
    let accrual := accrue supply rate state.leftover elapsed
    -- The state is written before any coin moves: a failing store leaves the bank alone.
    persist ⟨time, accrual.leftover⟩
    let distribution ← Attempt.within World.bank (fun bank w => { w with bank := bank })
      (issue params.denom accrual.minted)
    return ⟨height, elapsed, accrual.minted, distribution, accrual.leftover⟩

end ChainEconomy.Mint
