import ChainEconomy.Address
import ChainEconomy.CoinSet.Text

/-! # Messages

What a transaction can ask for. Nine kinds are known, each with a fixed type; any other message
carries the text of its type and nothing else. `check` looks at a message alone, without any ledger.
-/

namespace ChainEconomy

/-- Coins that an account puts into a transfer, or takes out of it. -/
structure Share where
  address : Address
  coins : CoinSet
  deriving DecidableEq

/-- A request of a transaction. -/
inductive Message where
  | registerName (name : String) (owner : Address)
  | renewName (name : String) (owner : Address)
  | buyName (name : String) (buyer : Address)
  | transferName (name : String) (owner recipient : Address)
  | deleteName (name : String) (owner : Address)
  | registerAddress (name : String) (owner address : Address)
  | send (sender recipient : Address) (amount : CoinSet)
  | multiSend (inputs outputs : List Share)
  | createSellOrder (seller : Address) (amount : CoinSet)
  /-- A request that only its type is known of. -/
  | other (typeUrl : String)
  deriving DecidableEq

namespace Message

/-- The type of a message, which exclusions name. -/
def typeUrl : Message → String
  | .registerName _ _ => "names/RegisterName"
  | .renewName _ _ => "names/RenewName"
  | .buyName _ _ => "names/BuyName"
  | .transferName _ _ _ => "names/TransferName"
  | .deleteName _ _ => "names/DeleteName"
  | .registerAddress _ _ _ => "names/RegisterAddress"
  | .send _ _ _ => "bank/Send"
  | .multiSend _ _ => "bank/MultiSend"
  | .createSellOrder _ _ => "market/CreateSellOrder"
  | .other typeUrl => typeUrl

/-! ## Well-formed messages -/

/-- What is wrong with a message. -/
inductive Flaw where
  | nameLength
  | nameCharacters (name : String)
  | sameOwner
  | noAmount
  | emptySide
  | unbalanced (inputs outputs : CoinSet)
  | noType
  deriving DecidableEq

/-- The largest number of bytes in a name. -/
def maxNameBytes : Nat := 64

/-- The wording of a flaw. -/
def Flaw.message : Flaw → String
  | .nameLength => s!"name must be 1..={maxNameBytes} bytes"
  | .nameCharacters name => "name " ++ Text.quoted name ++ " contains invalid characters"
  | .sameOwner => "recipient already owns the name"
  | .noAmount => "amount must be positive"
  | .emptySide => "inputs and outputs must both be non-empty"
  | .unbalanced inputs outputs => s!"inputs {inputs} do not match outputs {outputs}"
  | .noType => "type url must not be empty"

/-- Whether a character may stand in a name. -/
def isNameChar (c : Char) : Bool := c.isLower || c.isDigit || c = '-' || c = '.'

/-- Refuses a text that is no name. The length counts bytes. -/
def checkName (name : String) : Except Flaw Unit :=
  let bytes := (Text.Utf8.ofString name).length
  if bytes = 0 ∨ maxNameBytes < bytes then .error .nameLength
  else if name.toList.all isNameChar then .ok ()
  else .error (.nameCharacters name)

/-- The sum of the coins of several shares. -/
def total (shares : List Share) : CoinSet := CoinSet.sum (shares.map Share.coins)

/-- Refuses a transfer of nothing. -/
def checkAmount (amount : CoinSet) : Except Flaw Unit :=
  if amount.isEmpty then .error .noAmount else .ok ()

/-- Refuses a message that is not well formed. -/
def check : Message → Except Flaw Unit
  | .registerName name _ => checkName name
  | .renewName name _ => checkName name
  | .buyName name _ => checkName name
  | .deleteName name _ => checkName name
  | .registerAddress name _ _ => checkName name
  | .transferName name owner recipient =>
    match checkName name with
    | .error flaw => .error flaw
    | .ok () => if owner = recipient then .error .sameOwner else .ok ()
  | .send _ _ amount => checkAmount amount
  | .createSellOrder _ amount => checkAmount amount
  | .multiSend inputs outputs =>
    if inputs.isEmpty || outputs.isEmpty then .error .emptySide
    else if total inputs = total outputs then .ok ()
    else .error (.unbalanced (total inputs) (total outputs))
  | .other typeUrl => if typeUrl.isEmpty then .error .noType else .ok ()

end Message

end ChainEconomy
