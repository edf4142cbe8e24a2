import ChainEconomy.Attempt
import ChainEconomy.Ledger.Basic

/-! # Carrying out messages

What each message does to a ledger. A message that is refused leaves the ledger alone, with one
exception: a transfer between many accounts takes the coins of its inputs one after the other, and
those taken before the refusal stay taken. -/

namespace ChainEconomy.Ledger

/-- Why a message is refused. -/
inductive Error where
  | bank (error : BankError)
  | nameTaken (name : String)
  | unknownName (name : String)
  | notOwner (name : String) (caller : Address)
  | notForSale (name : String)
  deriving DecidableEq

/-- The wording of a refusal. -/
def Error.message : Error → String
  | .bank error => error.message
  | .nameTaken name => "name " ++ Text.quoted name ++ " is already registered"
  | .unknownName name => "name " ++ Text.quoted name ++ " is not registered"
  | .notOwner name caller => s!"{caller} does not own name " ++ Text.quoted name
  | .notForSale name => "name " ++ Text.quoted name ++ " is not for sale"

/-- The account that gets the fees of the name service. -/
def nameService : Address := Address.ofModule "name_service"

/-- The account that holds the coins of open sell orders. -/
def market : Address := Address.ofModule "market"

/-! ## Steps -/

/-- Moves coins between two accounts. -/
def pay (l : Ledger) (source target : Address) (coins : CoinSet) : Except Error Ledger :=
  (l.transfer source target coins).mapError Error.bank

/-- The record of a name that belongs to the caller. -/
def recordOwnedBy (l : Ledger) (name : String) (caller : Address) : Except Error NameRecord :=
  match l.names.find? name with
  | none => .error (.unknownName name)
  | some r => if r.owner = caller then .ok r else .error (.notOwner name caller)

/-- Gives the credits of a first name to an account that owns exactly one. -/
def grantCredits (l : Ledger) (owner : Address) : Ledger :=
  if l.ownedNames owner = 1 then
    { l with credits := l.credits.insert owner l.pricing.creditGrant }
  else l

/-- Takes all credits from an account that owns no name. -/
def revokeCredits (l : Ledger) (owner : Address) : Ledger :=
  if l.ownedNames owner = 0 then { l with credits := l.credits.insert owner 0 } else l

/-- Puts a record under a name. -/
def putName (l : Ledger) (name : String) (r : NameRecord) : Ledger :=
  { l with names := l.names.insert name r }

/-- A name in new hands: it is not for sale, and has no addresses. -/
def handOver (l : Ledger) (name : String) (seller buyer : Address) : Ledger :=
  -- The names of both parties are counted after the change of hands.
  (((l.putName name ⟨buyer, none, []⟩).revokeCredits seller).grantCredits buyer)

/-! ## Messages -/

/-- Registers a name that is free. -/
def registerName (name : String) (owner : Address) (l : Ledger) : Except Error Ledger :=
  if l.names.contains name then .error (.nameTaken name)
  else do
    let l ← l.pay owner nameService l.pricing.registrationFee
    return (l.putName name ⟨owner, none, []⟩).grantCredits owner

/-- Renews a name for its owner. -/
def renewName (name : String) (owner : Address) (l : Ledger) : Except Error Ledger := do
  let _ ← l.recordOwnedBy name owner
  l.pay owner nameService l.pricing.renewalFee

/-- Buys a name that is for sale. -/
def buyName (name : String) (buyer : Address) (l : Ledger) : Except Error Ledger :=
  match l.names.find? name with
  | none => .error (.unknownName name)
  | some r =>
    match r.price with
    | none => .error (.notForSale name)
    | some price => (l.pay buyer r.owner price).map fun l => l.handOver name r.owner buyer

/-- Gives a name away. -/
def transferName (name : String) (owner recipient : Address) (l : Ledger) :
    Except Error Ledger := do
  let _ ← l.recordOwnedBy name owner
  return l.handOver name owner recipient

/-- Gives a name up. -/
def deleteName (name : String) (owner : Address) (l : Ledger) : Except Error Ledger := do
  let _ ← l.recordOwnedBy name owner
  return ({ l with names := l.names.erase name } : Ledger).revokeCredits owner

/-- Registers an address under a name: paid with a credit, or with the fee when none is left. -/
def registerAddress (name : String) (owner address : Address) (l : Ledger) :
    Except Error Ledger := do
  let r ← l.recordOwnedBy name owner
  let credits := l.creditsOf owner
  let l ← if credits ≤ 0 then l.pay owner nameService l.pricing.addressFee else .ok l
  -- A credit goes in either case: who has none and pays the fee gets into debt.
  let l : Ledger := { l with credits := l.credits.insert owner (Fee.spendCredit credits) }
  return l.putName name { r with addresses := r.addresses ++ [address] }

/-- Takes the coins of a share from its account. -/
def debitShare (s : Share) (l : Ledger) : Except Error Ledger :=
  match l.balances.debit s.address s.coins with
  | .error e => .error (.bank e)
  | .ok b => .ok { l with balances := b }

/-- Takes the inputs, and then hands out the outputs. -/
def multiSend (inputs outputs : List Share) : Attempt Ledger Error Unit := do
  -- Each input is a change of its own, so that a refusal does not undo those before it.
  Attempt.forEach (fun s => Attempt.change (debitShare s)) inputs
  Attempt.change fun l => .ok { l with balances := l.balances.creditAll outputs }

/-- Carries out a message. -/
def apply : Message → Attempt Ledger Error Unit
  | .registerName name owner => Attempt.change (registerName name owner)
  | .renewName name owner => Attempt.change (renewName name owner)
  | .buyName name buyer => Attempt.change (buyName name buyer)
  | .transferName name owner recipient => Attempt.change (transferName name owner recipient)
  | .deleteName name owner => Attempt.change (deleteName name owner)
  | .registerAddress name owner address => Attempt.change (registerAddress name owner address)
  | .send sender recipient amount => Attempt.change fun l => l.pay sender recipient amount
  | .multiSend inputs outputs => multiSend inputs outputs
  | .createSellOrder seller amount => Attempt.change fun l => l.pay seller market amount
  | .other _ => pure ()

end ChainEconomy.Ledger
