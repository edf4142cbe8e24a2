import ChainEconomy.Address
import ChainEconomy.CoinSet.Text

/-! # Name registries

What pricing a transaction needs to know about names: how many an account owns, its credits for
registering addresses, and what things cost. -/

namespace ChainEconomy.Fee

/-- Why a name has no price. -/
inductive PriceError where
  | unknown (name : String)
  | notForSale (name : String)
  deriving DecidableEq, Repr

/-- The wording of a refusal. -/
def PriceError.message : PriceError → String
  | .unknown name => "name " ++ Text.quoted name ++ " is not registered"
  | .notForSale name => "name " ++ Text.quoted name ++ " is not for sale"

/-- Answers about names and their owners. -/
structure NameRegistry where
  ownedNames : Address → Nat
  /-- Credits left; there may be a debt. -/
  credits : Address → Int
  /-- The credits that come with an account's first name. -/
  creditGrant : Int
  price : String → Except PriceError CoinSet
  registrationFee : CoinSet
  renewalFee : CoinSet
  addressFee : CoinSet

/-- Credits are counted in 64 bits; a debt stops at the smallest number there is. -/
def lowestCredits : Int := Int64.minValue.toInt

/-- The credits after one more address has been registered. -/
def spendCredit (credits : Int) : Int :=
  if credits ≤ lowestCredits then lowestCredits else credits - 1

end ChainEconomy.Fee
