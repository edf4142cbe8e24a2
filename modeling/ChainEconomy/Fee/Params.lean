import ChainEconomy.CoinSet.Text
import ChainEconomy.Rate
import ChainEconomy.Store.Record

/-! # Fee parameters

The policy for the surcharge on messages: a percentage of their value in the base denomination, and
the least and the largest surcharge. Whether the largest is above the least is not checked. -/

namespace ChainEconomy.Fee

/-- The policy for the surcharge. -/
structure Params where
  percentage : Rate
  minimum : CoinSet
  maximum : CoinSet
  baseDenom : String
  deriving DecidableEq

/-- Why parameters are refused. -/
inductive ParamsError where
  | percentageOutOfRange (rate : Rate)
  | minimumNotPositive (fee : CoinSet) (baseDenom : String)
  | maximumNotPositive (fee : CoinSet) (baseDenom : String)
  | baseDenom (error : CoinError)
  deriving DecidableEq

/-- The wording of a refusal. -/
def ParamsError.message : ParamsError → String
  | .percentageOutOfRange rate => s!"fee percentage {rate} must lie in [0, 1]"
  | .minimumNotPositive fee denom => s!"minimum fee {fee} must hold a positive amount of {denom}"
  | .maximumNotPositive fee denom => s!"maximum fee {fee} must hold a positive amount of {denom}"
  | .baseDenom error => "invalid base denomination: " ++ error.message

/-- Refuses a percentage outside of zero to one. -/
def checkPercentage (rate : Rate) : Except ParamsError Unit :=
  if rate.isNegative || rate.exceedsOne then .error (.percentageOutOfRange rate) else .ok ()

/-- Refuses a least surcharge without the base denomination. -/
def checkMinimum (fee : CoinSet) (baseDenom : String) : Except ParamsError Unit :=
  if fee.amountOf baseDenom = 0 then .error (.minimumNotPositive fee baseDenom) else .ok ()

/-- Refuses a largest surcharge without the base denomination. -/
def checkMaximum (fee : CoinSet) (baseDenom : String) : Except ParamsError Unit :=
  if fee.amountOf baseDenom = 0 then .error (.maximumNotPositive fee baseDenom) else .ok ()

namespace Params

/-- Refuses parameters that are not sensible. -/
def check (p : Params) : Except ParamsError Unit := do
  (Denom.check p.baseDenom).mapError ParamsError.baseDenom
  checkPercentage p.percentage
  checkMinimum p.minimum p.baseDenom
  checkMaximum p.maximum p.baseDenom

/-- Parameters as an object. -/
def toJson (p : Params) : Json :=
  .object [("fee_percentage", p.percentage.toJson), ("minimum_fee", p.minimum.toJson),
    ("maximum_fee", p.maximum.toJson), ("base_denom", .string p.baseDenom)]

/-- Reads parameters. -/
def ofJson : Json → Except Json.Fault Params :=
  Json.record "FeeParams" ["fee_percentage", "minimum_fee", "maximum_fee", "base_denom"] fun r =>
    mk <$> r.required "fee_percentage" Rate.ofJson
      <*> r.required "minimum_fee" CoinSet.ofJson
      <*> r.required "maximum_fee" CoinSet.ofJson
      <*> r.required "base_denom" Json.toText

/-- The key of the parameters in a store. -/
def key : Bytes := Store.paramsKey "fee"

/-- The parameters in a store. -/
def load (s : Store) : Except StorageError (Option Params) := s.getRecord ofJson key

/-- Puts parameters into a store. -/
def save (p : Params) (s : Store) : Except StorageError Store := s.setRecord key p.toJson

end Params

end ChainEconomy.Fee
