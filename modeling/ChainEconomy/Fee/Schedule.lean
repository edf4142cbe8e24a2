import ChainEconomy.Fee.Params

/-! # Fee schedules

The surcharge on a message as a function of its value: a percentage, rounded down, kept between the
least and the largest surcharge of the parameters. -/

namespace ChainEconomy.Fee

/-- Parameters that have been checked. -/
structure Schedule where
  params : Params
  valid : params.check = .ok ()

namespace Schedule

/-- A schedule of parameters; refused if they are not sensible. -/
def ofParams (params : Params) : Except ParamsError Schedule :=
  match h : params.check with
  | .error e => .error e
  | .ok () => .ok ⟨params, h⟩

/-- The percentage of a value, rounded down. Only the base denomination counts. -/
def percentageFee (s : Schedule) (value : CoinSet) : Except CoinError CoinSet :=
  let rate := s.params.percentage
  -- The mantissa is multiplied first, so that nothing is lost before the division.
  let amount := value.amountOf s.params.baseDenom * rate.mantissa / Nat.pow 10 rate.scale
  CoinSet.single s.params.baseDenom amount

/-- A fee between the least and the largest surcharge: the least if that dominates the fee, else the
largest if the fee dominates that, else the fee itself. -/
def clamp (s : Schedule) (fee : CoinSet) : CoinSet :=
  if s.params.minimum.dominates fee then s.params.minimum
  else if fee.dominates s.params.maximum then s.params.maximum
  else fee

/-- The surcharge on a message of a given value. -/
def surcharge (s : Schedule) (value : CoinSet) : Except CoinError CoinSet :=
  (s.percentageFee value).map s.clamp

end Schedule

end ChainEconomy.Fee
