import ChainEconomy.Bank
import ChainEconomy.Governance.Error

/-! # Consensus faults

Why a block cannot be processed at all. Going on after such a fault could set replicas of the chain
apart, so that it is kept apart from the refusal of a single transaction. -/

namespace ChainEconomy

/-- What is wrong with the records that a block needs. -/
inductive Corruption where
  | params (error : Governance.Error)
  | minterMissing
  | minter (flaw : Mint.StateFlaw)
  deriving DecidableEq

/-- The wording of a corruption. -/
def Corruption.message : Corruption → String
  | .params error => error.message
  | .minterMissing => "minter state missing"
  | .minter flaw => flaw.message

/-- Why parameters are of no use for a block. -/
inductive UnusableParams where
  | fee (error : Fee.ParamsError)
  | mint (error : Mint.ParamsError)
  | coin (error : CoinError)
  deriving DecidableEq

/-- The wording of a refusal. -/
def UnusableParams.message : UnusableParams → String
  | .fee error => error.message
  | .mint error => error.message
  | .coin error => error.message

/-- Why a block cannot be processed. -/
inductive ConsensusFault where
  | nonMonotonicTime (previous current : BlockTime)
  | elapsedTimeOutOfBounds (elapsed limit : UInt64)
  | mintFailed (amount : CoinSet) (error : BankError)
  | distributionFailed (source target : String) (amount : CoinSet) (error : BankError)
  | corruptState (corruption : Corruption)
  | storage (error : StorageError)
  | invalidParams (error : UnusableParams)
  deriving DecidableEq

namespace ConsensusFault

/-- The wording of a fault. -/
def message : ConsensusFault → String
  | .nonMonotonicTime previous current =>
    s!"block time {current} does not advance past previous mint time {previous}"
  | .elapsedTimeOutOfBounds elapsed limit =>
    s!"{elapsed}s elapsed since the previous block exceeds the accrual bound of {limit}s"
  | .mintFailed amount error => s!"minting {amount} failed: " ++ error.message
  | .distributionFailed source target amount error =>
    s!"moving {amount} from {source} to {target} failed: " ++ error.message
  | .corruptState corruption => "minter state is corrupt: " ++ corruption.message
  | .storage error => "state persistence failed: " ++ error.message
  | .invalidParams error =>
    "invalid mint parameters reached block processing: " ++ error.message

/-- Whether the fault is reported together with a place in a text. -/
def located : ConsensusFault → Bool
  | .corruptState (.params error) => error.located
  | .storage error => error.located
  | _ => false

end ConsensusFault

end ChainEconomy
