import ChainEconomy.Governance.Proposal

/-! # Genesis of the economy

The parameters, the excluded message types and the state of the minter that a chain starts with.
They can be written into a store and read back out of one. -/

namespace ChainEconomy.Governance

/-- What a chain's economy starts with. -/
structure Genesis where
  feeParams : Fee.Params
  excludedTypes : List String
  mintParams : Mint.Params
  minter : Mint.State
  deriving DecidableEq

namespace Genesis

/-- Refuses the first excluded type that is not well formed or has been seen before. -/
def checkTypes (seen : List String) : List String → Except GenesisFlaw Unit
  | [] => .ok ()
  | text :: rest =>
    match checkMessageType text with
    | .error flaw => .error (.messageType flaw)
    | .ok () =>
      if seen.contains text then .error (.duplicateType text) else checkTypes (text :: seen) rest

/-- Refuses a genesis that is not sensible. -/
def check (g : Genesis) : Except Error Unit := do
  g.feeParams.check.mapError Error.feeParams
  (checkTypes [] g.excludedTypes).mapError Error.invalidGenesis
  g.mintParams.check.mapError Error.mintParams
  g.minter.check.mapError fun flaw => Error.invalidGenesis (.minter flaw)

/-- Writes a genesis into a store, the state of the minter last: a store without it has not been
initialised completely. -/
def init (g : Genesis) : Attempt Store Error Unit := do
  Attempt.ofExcept g.check
  Attempt.change (saveFee g.feeParams)
  Attempt.change (saveMint g.mintParams)
  Attempt.forEach (fun text => Proposal.write fun s => Fee.Exclusions.add s text) g.excludedTypes
  Proposal.write g.minter.save

/-- Reads a genesis out of a store. -/
def ofStore (s : Store) : Except Error Genesis := do
  let minter ← (Mint.State.load s).mapError Error.storage
  -- Without the minter's state, the writing of a genesis has not come to its end.
  match minter with
  | none => .error (.invalidGenesis .minterMissing)
  | some minter =>
    let feeParams ← loadFee s
    let excludedTypes ← (Fee.Exclusions.toList s).mapError Error.storage
    let mintParams ← loadMint s
    return ⟨feeParams, excludedTypes, mintParams, minter⟩

/-! ## Genesis documents as JSON -/

/-- The two sections of a genesis. -/
def sections (g : Genesis) : List (String × Json) :=
  [("fee", .object [("params", g.feeParams.toJson),
      ("excluded_message_types", .ofList Json.string g.excludedTypes)]),
    ("mint", .object [("params", g.mintParams.toJson), ("minter", g.minter.toJson)])]

/-- A genesis as an object. -/
def toJson (g : Genesis) : Json := .object g.sections

/-- Reads the section of the fees. -/
def feeOfJson : Json → Except Json.Fault (Fee.Params × List String) :=
  Json.record "FeeGenesis" ["params", "excluded_message_types"] fun r =>
    Prod.mk <$> r.required "params" Fee.Params.ofJson
      <*> r.optional "excluded_message_types" [] (Json.toList Json.toText)

/-- Reads the section of the minter. -/
def mintOfJson : Json → Except Json.Fault (Mint.Params × Mint.State) :=
  Json.record "MintGenesis" ["params", "minter"] fun r =>
    Prod.mk <$> r.required "params" Mint.Params.ofJson
      <*> r.optional "minter" Mint.State.genesis Mint.State.ofJson

/-- Reads the two sections out of a record that has them. -/
def ofRecord (r : Json.Record) : Json.Reading Genesis :=
  (fun fee mint => ⟨fee.1, fee.2, mint.1, mint.2⟩) <$> r.required "fee" feeOfJson
    <*> r.required "mint" mintOfJson

/-- Reads a genesis. -/
def ofJson : Json → Except Json.Fault Genesis := Json.record "GenesisState" ["fee", "mint"] ofRecord

/-- Reads a genesis from JSON text. -/
def parse (text : String) : Except Error Genesis :=
  (Json.decodeText ofJson text).mapError Error.serialization

end Genesis

end ChainEconomy.Governance
