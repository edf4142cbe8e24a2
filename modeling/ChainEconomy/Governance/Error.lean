import ChainEconomy.Fee.Params
import ChainEconomy.Mint.Params
import ChainEconomy.Mint.State

/-! # Why governance is refused

Refusals of proposals, of single values in them, and of genesis documents. -/

namespace ChainEconomy.Governance

/-- What is wrong with a proposal. -/
inductive ProposalFlaw where
  | blankTitle
  | titleTooLong
  | blankDescription
  | descriptionTooLong
  | noChanges
  | incompleteChange
  | messageType (text : String)
  deriving DecidableEq, Repr

/-- The largest number of characters in a title. -/
def maxTitleLength : Nat := 140

/-- The largest number of characters in a description. -/
def maxDescriptionLength : Nat := 10000

/-- The wording of a flaw. -/
def ProposalFlaw.message : ProposalFlaw → String
  | .blankTitle => "proposal title cannot be blank"
  | .titleTooLong => s!"proposal title is longer than {maxTitleLength} characters"
  | .blankDescription => "proposal description cannot be blank"
  | .descriptionTooLong =>
    s!"proposal description is longer than {maxDescriptionLength} characters"
  | .noChanges => "parameter change proposal has no changes"
  | .incompleteChange => "parameter change needs a subspace and a key"
  | .messageType text => "message type " ++ Text.quoted text ++ " must have the form <route>/<type>"

/-- Why a parameter cannot have a value. -/
inductive ValueError where
  | json (fault : Json.Fault)
  | fee (error : Fee.ParamsError)
  | mint (error : Mint.ParamsError)
  | coin (error : CoinError)
  deriving DecidableEq

/-- The wording of a refusal. -/
def ValueError.message : ValueError → String
  | .json fault => fault.message
  | .fee error => error.message
  | .mint error => error.message
  | .coin error => error.message

/-- What is wrong with a genesis document. -/
inductive GenesisFlaw where
  | messageType (flaw : ProposalFlaw)
  | duplicateType (text : String)
  | minter (flaw : Mint.StateFlaw)
  | minterMissing
  deriving DecidableEq, Repr

/-- The wording of a flaw. -/
def GenesisFlaw.message : GenesisFlaw → String
  | .messageType flaw => "Invalid proposal: " ++ flaw.message
  | .duplicateType text => "duplicate excluded message type " ++ Text.quoted text
  | .minter flaw => flaw.message
  | .minterMissing => "minter state has not been initialised"

/-- Why an operation of governance is refused. -/
inductive Error where
  | invalidProposal (flaw : ProposalFlaw)
  | unknownSubspace (subspace : String)
  | unknownParameter (subspace key : String)
  | invalidValue (subspace key : String) (error : ValueError)
  | missingParams (subspace : String)
  | feeParams (error : Fee.ParamsError)
  | mintParams (error : Mint.ParamsError)
  | invalidGenesis (flaw : GenesisFlaw)
  | storage (error : StorageError)
  | serialization (fault : Json.Fault)
  deriving DecidableEq

namespace Error

/-- The wording of a refusal. -/
def message : Error → String
  | .invalidProposal flaw => "Invalid proposal: " ++ flaw.message
  | .unknownSubspace subspace => "Unknown parameter subspace: " ++ subspace
  | .unknownParameter subspace key =>
    "Unknown parameter " ++ Text.quoted key ++ " in subspace " ++ Text.quoted subspace
  | .invalidValue subspace key error =>
    "Invalid value for " ++ subspace ++ "/" ++ key ++ ": " ++ error.message
  | .missingParams subspace =>
    "Parameters for subspace " ++ Text.quoted subspace ++ " have not been initialised"
  | .feeParams error => "Invalid fee parameters: " ++ error.message
  | .mintParams error => "Invalid mint parameters: " ++ error.message
  | .invalidGenesis flaw => "Invalid genesis: " ++ flaw.message
  | .storage error => "Storage error: " ++ error.message
  | .serialization fault => "Serialization error: " ++ fault.message

/-- Whether the refusal is reported together with a place in a text. -/
def located : Error → Bool
  | .invalidValue _ _ (.json fault) => fault.located
  | .storage error => error.located
  | .serialization fault => fault.located
  | _ => false

end Error

end ChainEconomy.Governance
