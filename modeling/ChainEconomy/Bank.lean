import ChainEconomy.Address
import ChainEconomy.CoinSet.Text

/-! # Banks

Whoever keeps the balances of accounts. Fees and new supply only ever meet a bank through these
operations; one that is refused leaves the bank as it was. -/

namespace ChainEconomy

/-- Why a bank refuses an operation. -/
inductive BankError where
  | insufficientFunds (address : Address) (required : CoinSet)
  | unknownModule (name : String)
  | rejected (reason : String)
  deriving DecidableEq

/-- The wording of a refusal. -/
def BankError.message : BankError → String
  | .insufficientFunds address required =>
    s!"account {address} holds insufficient funds for {required}"
  | .unknownModule name => s!"unknown module account: {name}"
  | .rejected reason => s!"bank rejected operation: {reason}"

/-- The operations of a bank. -/
class Bank (β : Type) where
  /-- Whether an account holds at least some coins. -/
  hasAtLeast : β → Address → CoinSet → Bool
  /-- Moves coins from an account to a module. -/
  sendToModule : β → Address → String → CoinSet → Except BankError β
  /-- Creates new supply in the account of a module. -/
  mint : β → String → CoinSet → Except BankError β
  /-- Moves coins between two modules. -/
  moduleToModule : β → String → String → CoinSet → Except BankError β
  /-- All coins there are. -/
  totalSupply : β → CoinSet

/-! ## Banks that refuse -/

/-- A bank together with operations that it refuses before it does anything. -/
structure GuardedBank (β : Type) where
  bank : β
  refusesSend : Option BankError
  refusesMint : Option BankError
  /-- Transfers between modules, by the module that would receive the coins. -/
  refusesTransfer : String → Option BankError

namespace GuardedBank

variable {β : Type}

/-- The change that a bank makes unless it refuses. -/
def guarded (refusal : Option BankError) (g : GuardedBank β) (change : Except BankError β) :
    Except BankError (GuardedBank β) :=
  match refusal with
  | some e => .error e
  | none => change.map fun bank => { g with bank := bank }

instance [Bank β] : Bank (GuardedBank β) where
  hasAtLeast g := Bank.hasAtLeast g.bank
  sendToModule g source target coins :=
    guarded g.refusesSend g (Bank.sendToModule g.bank source target coins)
  mint g target coins := guarded g.refusesMint g (Bank.mint g.bank target coins)
  moduleToModule g source target coins :=
    guarded (g.refusesTransfer target) g (Bank.moduleToModule g.bank source target coins)
  totalSupply g := Bank.totalSupply g.bank

end GuardedBank

end ChainEconomy
