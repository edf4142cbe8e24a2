import ChainEconomy.Attempt
import ChainEconomy.Event
import ChainEconomy.Governance.Error

/-! # Changes of parameters

A change names a parameter by the module that it belongs to and a key, and gives its new value as
JSON text. A list of changes is made on a working copy first, so that nothing is written if any of
them is refused. -/

namespace ChainEconomy.Governance

/-- A new value for a parameter. -/
structure ParamChange where
  subspace : String
  key : String
  value : String
  deriving DecidableEq, Repr

/-- The parameters of the chain. -/
structure Params where
  fee : Fee.Params
  mint : Mint.Params
  deriving DecidableEq

/-- The subspace of the fee parameters. -/
def feeSubspace : String := "fee"

/-- The subspace of the mint parameters. -/
def mintSubspace : String := "mint"

/-! ## Parameters in a store -/

/-- The fee parameters in a store, which have to be there. -/
def loadFee (s : Store) : Except Error Fee.Params :=
  match Fee.Params.load s with
  | .error e => .error (.storage e)
  | .ok none => .error (.missingParams feeSubspace)
  | .ok (some params) => .ok params

/-- The mint parameters in a store, which have to be there. -/
def loadMint (s : Store) : Except Error Mint.Params :=
  match Mint.Params.load s with
  | .error e => .error (.storage e)
  | .ok none => .error (.missingParams mintSubspace)
  | .ok (some params) => .ok params

/-- Puts fee parameters into a store after a check. -/
def saveFee (params : Fee.Params) (s : Store) : Except Error Store :=
  match params.check with
  | .error e => .error (.feeParams e)
  | .ok () => (params.save s).mapError Error.storage

/-- Puts mint parameters into a store after a check. -/
def saveMint (params : Mint.Params) (s : Store) : Except Error Store :=
  match params.check with
  | .error e => .error (.mintParams e)
  | .ok () => (params.save s).mapError Error.storage

/-! ## Making changes -/

namespace ParamChange

/-- The refusal of the new value. -/
def refuse (c : ParamChange) (e : ValueError) : Error := .invalidValue c.subspace c.key e

/-- Reads the new value. -/
def decode {α : Type} (c : ParamChange) (ofJson : Json → Except Json.Fault α) : Except Error α :=
  (Json.decodeText ofJson c.value).mapError fun fault => c.refuse (.json fault)

/-- Makes a change of a fee parameter. -/
def onFee (c : ParamChange) (p : Fee.Params) : Except Error Fee.Params := do
  let check (r : Except Fee.ParamsError Unit) : Except Error Unit :=
    r.mapError fun e => c.refuse (.fee e)
  match c.key with
  | "fee_percentage" =>
    let rate ← c.decode Rate.ofJson
    check (Fee.checkPercentage rate)
    return { p with percentage := rate }
  | "minimum_fee" =>
    let fee ← c.decode CoinSet.ofJson
    check (Fee.checkMinimum fee p.baseDenom)
    return { p with minimum := fee }
  | "maximum_fee" =>
    let fee ← c.decode CoinSet.ofJson
    check (Fee.checkMaximum fee p.baseDenom)
    return { p with maximum := fee }
  | _ => .error (.unknownParameter c.subspace c.key)

/-- Makes a change of a mint parameter. -/
def onMint (c : ParamChange) (p : Mint.Params) : Except Error Mint.Params := do
  let check (r : Except Mint.ParamsError Unit) : Except Error Unit :=
    r.mapError fun e => c.refuse (.mint e)
  match c.key with
  | "mint_denom" =>
    let denom ← c.decode Json.toText
    (Denom.check denom).mapError fun e => c.refuse (.coin e)
    return { p with denom := denom }
  | "per_second_inflation_rate" =>
    let rate ← c.decode Rate.ofJson
    check (Mint.checkRate rate)
    return { p with ratePerSecond := rate }
  | "max_accrual_seconds" =>
    let seconds ← c.decode Json.toUInt64
    check (Mint.checkMaxAccrualSeconds seconds)
    return { p with maxAccrualSeconds := seconds }
  | _ => .error (.unknownParameter c.subspace c.key)

/-- Makes a change of a parameter. -/
def on (c : ParamChange) (p : Params) : Except Error Params :=
  if c.subspace = feeSubspace then (c.onFee p.fee).map fun fee => { p with fee := fee }
  else if c.subspace = mintSubspace then (c.onMint p.mint).map fun mint => { p with mint := mint }
  else .error (.unknownSubspace c.subspace)

/-- Makes several changes, up to the first that is refused. -/
def allOn : List ParamChange → Params → Except Error Params
  | [], p => .ok p
  | c :: rest, p =>
    match c.on p with
    | .error e => .error e
    | .ok p => allOn rest p

/-- The report of a change. -/
def event (c : ParamChange) : Event :=
  .ofPairs "param_change" [("subspace", c.subspace), ("key", c.key), ("value", c.value)]

/-- Makes several changes of the parameters in a store, and reports them. -/
def applyAll (changes : List ParamChange) : Attempt Store Error (List Event) := do
  let fee ← Attempt.read loadFee
  let mint ← Attempt.read loadMint
  let params ← Attempt.ofExcept (allOn changes ⟨fee, mint⟩)
  -- The two records are written one after the other: the first one stays if the second is refused.
  Attempt.change (saveFee params.fee)
  Attempt.change (saveMint params.mint)
  return changes.map event

/-- A change as an object. -/
def toJson (c : ParamChange) : Json :=
  .object [("subspace", .string c.subspace), ("key", .string c.key), ("value", .string c.value)]

/-- Reads a change. -/
def ofJson : Json → Except Json.Fault ParamChange :=
  Json.record "ParamChange" ["subspace", "key", "value"] fun r =>
    mk <$> r.required "subspace" Json.toText <*> r.required "key" Json.toText
      <*> r.required "value" Json.toText

end ParamChange

end ChainEconomy.Governance
