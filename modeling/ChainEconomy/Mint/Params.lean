import ChainEconomy.Coin
import ChainEconomy.Fixed
import ChainEconomy.Store.Record

/-! # Mint parameters

The policy for new supply: its denomination, the part of the supply that is created for each second,
and the longest time between two blocks for which supply may be created. -/

namespace ChainEconomy.Mint

/-- The policy for new supply. -/
structure Params where
  denom : String
  ratePerSecond : Rate
  maxAccrualSeconds : UInt64
  deriving DecidableEq

/-- Why parameters are refused. -/
inductive ParamsError where
  | denom (error : CoinError)
  | negativeRate (rate : Rate)
  | rateTooHigh (rate : Rate)
  | zeroAccrualBound
  | unrepresentable (error : Fixed.Error)
  deriving DecidableEq

/-- The wording of a refusal. -/
def ParamsError.message : ParamsError → String
  | .denom error => "invalid mint denomination: " ++ error.message
  | .negativeRate rate => s!"per-second inflation rate {rate} must not be negative"
  | .rateTooHigh rate => s!"per-second inflation rate {rate} must be below one"
  | .zeroAccrualBound => "max accrual seconds must be positive"
  | .unrepresentable error => "inflation rate is not representable: " ++ error.message

/-- Refuses a rate outside of zero to one, one included. -/
def checkRate (rate : Rate) : Except ParamsError Unit :=
  if rate.isNegative then .error (.negativeRate rate)
  else if rate.atLeastOne then .error (.rateTooHigh rate)
  else .ok ()

/-- Refuses a bound of no seconds. -/
def checkMaxAccrualSeconds (seconds : UInt64) : Except ParamsError Unit :=
  if seconds = 0 then .error .zeroAccrualBound else .ok ()

namespace Params

/-- The bound where none is given: one week. -/
def defaultMaxAccrualSeconds : UInt64 := 604800

/-- Refuses parameters that are not sensible. -/
def check (p : Params) : Except ParamsError Unit := do
  (Denom.check p.denom).mapError ParamsError.denom
  checkRate p.ratePerSecond
  checkMaxAccrualSeconds p.maxAccrualSeconds

/-- The rate as a fixed-point number. -/
def rate (p : Params) : Except ParamsError Fixed := do
  checkRate p.ratePerSecond
  (Fixed.ofRate p.ratePerSecond).mapError ParamsError.unrepresentable

/-- Parameters as an object. -/
def toJson (p : Params) : Json :=
  .object [("mint_denom", .string p.denom), ("per_second_inflation_rate", p.ratePerSecond.toJson),
    ("max_accrual_seconds", .natural p.maxAccrualSeconds.toNat)]

/-- Reads parameters. -/
def ofJson : Json → Except Json.Fault Params :=
  Json.record "MintParams" ["mint_denom", "per_second_inflation_rate", "max_accrual_seconds"]
    fun r =>
      mk <$> r.required "mint_denom" Json.toText
        <*> r.required "per_second_inflation_rate" Rate.ofJson
        <*> r.optional "max_accrual_seconds" defaultMaxAccrualSeconds Json.toUInt64

/-- The key of the parameters in a store. -/
def key : Bytes := Store.paramsKey "mint"

/-- The parameters in a store. -/
def load (s : Store) : Except StorageError (Option Params) := s.getRecord ofJson key

/-- Puts parameters into a store. -/
def save (p : Params) (s : Store) : Except StorageError Store := s.setRecord key p.toJson

end Params

end ChainEconomy.Mint
