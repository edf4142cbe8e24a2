import ChainEconomy.Fee.NameRegistry
import ChainEconomy.Ledger.Balances

/-! # Ledgers

Balances, names and credits of all accounts, together with the supply and the prices of the name
service. A ledger is a bank, and answers what pricing asks about names. -/

namespace ChainEconomy

/-- A registered name. -/
structure NameRecord where
  owner : Address
  /-- What the name costs, if it is for sale. -/
  price : Option CoinSet
  addresses : List Address
  deriving DecidableEq

/-- A record as an object. -/
def NameRecord.toJson (r : NameRecord) : Json :=
  .object [("owner", r.owner.toJson), ("price", .ofOption CoinSet.toJson r.price),
    ("addresses", .ofList Address.toJson r.addresses)]

/-- The prices of the name service. -/
structure Pricing where
  registrationFee : CoinSet
  renewalFee : CoinSet
  addressFee : CoinSet
  /-- The credits that come with an account's first name. -/
  creditGrant : Int
  deriving DecidableEq

/-- The accounts of a chain. -/
structure Ledger where
  balances : Balances
  supply : CoinSet
  names : OrderedMap String NameRecord
  credits : OrderedMap Address Int
  pricing : Pricing
  deriving DecidableEq

namespace Ledger

/-- The ledger without accounts. -/
def empty (pricing : Pricing) : Ledger := ⟨Balances.empty, CoinSet.empty, .empty, .empty, pricing⟩

/-- The coins of an account. -/
def balance (l : Ledger) (address : Address) : CoinSet := l.balances.balance address

/-- The coins of a module's account. -/
def moduleBalance (l : Ledger) (name : String) : CoinSet := l.balance (Address.ofModule name)

/-- The credits of an account. -/
def creditsOf (l : Ledger) (address : Address) : Int := (l.credits.find? address).getD 0

/-- The number of names that an account owns. -/
def ownedNames (l : Ledger) (address : Address) : Nat :=
  (l.names.values.filter fun r => decide (r.owner = address)).length

/-- Moves coins between two accounts. -/
def transfer (l : Ledger) (source target : Address) (coins : CoinSet) : Except BankError Ledger :=
  (l.balances.transfer source target coins).map fun b => { l with balances := b }

instance : Bank Ledger where
  hasAtLeast l address coins := (l.balance address).covers coins
  sendToModule l source target coins := l.transfer source (Address.ofModule target) coins
  mint l target coins :=
    .ok { l with
      balances := l.balances.credit (Address.ofModule target) coins
      supply := l.supply.add coins }
  moduleToModule l source target coins :=
    l.transfer (Address.ofModule source) (Address.ofModule target) coins
  totalSupply l := l.supply

/-- The price of a name. -/
def priceOf (l : Ledger) (name : String) : Except Fee.PriceError CoinSet :=
  match l.names.find? name with
  | none => .error (.unknown name)
  | some r =>
    match r.price with
    | none => .error (.notForSale name)
    | some price => .ok price

/-- What pricing asks about names. -/
def registry (l : Ledger) : Fee.NameRegistry where
  ownedNames := l.ownedNames
  credits := l.creditsOf
  creditGrant := l.pricing.creditGrant
  price := l.priceOf
  registrationFee := l.pricing.registrationFee
  renewalFee := l.pricing.renewalFee
  addressFee := l.pricing.addressFee

end Ledger

end ChainEconomy
