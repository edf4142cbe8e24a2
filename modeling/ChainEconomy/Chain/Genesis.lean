import ChainEconomy.Governance.Genesis
import ChainEconomy.Ledger.Apply
import ChainEconomy.Message.Json

/-! # Genesis of a chain

The economy together with the accounts and the names that the ledger starts with. In a document, the
sections of the economy stand beside those of the ledger. -/

namespace ChainEconomy.Chain

/-- A name that is registered from the start. -/
structure GenesisName where
  name : String
  owner : Address
  price : Option CoinSet
  deriving DecidableEq

/-- The name service at the start. -/
structure NameService where
  registrationFee : CoinSet
  renewalFee : CoinSet
  addressFee : CoinSet
  creditGrant : Int64
  names : List GenesisName
  deriving DecidableEq

/-- What a chain starts with. -/
structure Genesis where
  time : BlockTime
  economy : Governance.Genesis
  accounts : List Share
  nameService : NameService
  deriving DecidableEq

/-- Why a chain cannot start. -/
inductive GenesisError where
  | economy (error : Governance.Error)
  | duplicateAccount (address : Address)
  | duplicateName (name : String)
  | negativeGrant
  deriving DecidableEq

/-- The wording of a refusal. -/
def GenesisError.message : GenesisError → String
  | .economy error => error.message
  | .duplicateAccount address => s!"duplicate genesis account {address}"
  | .duplicateName name => "duplicate genesis name " ++ Text.quoted name
  | .negativeGrant => "standard credit grant must not be negative"

/-- The first item that has been seen before. -/
def firstRepeated? {α : Type} [DecidableEq α] (seen : List α) : List α → Option α
  | [] => none
  | a :: rest => if seen.contains a then some a else firstRepeated? (a :: seen) rest

namespace NameService

/-- The name service where nothing is said about it: everything is free, and there are no names. -/
def free : NameService := ⟨CoinSet.empty, CoinSet.empty, CoinSet.empty, 0, []⟩

/-- The prices of the name service. -/
def pricing (n : NameService) : Pricing :=
  ⟨n.registrationFee, n.renewalFee, n.addressFee, n.creditGrant.toInt⟩

end NameService

namespace Genesis

/-- Refuses a genesis that is not sensible. -/
def check (g : Genesis) : Except GenesisError Unit :=
  match g.economy.check with
  | .error e => .error (.economy e)
  | .ok () =>
    match firstRepeated? [] (g.accounts.map Share.address) with
    | some address => .error (.duplicateAccount address)
    | none =>
      match firstRepeated? [] (g.nameService.names.map GenesisName.name) with
      | some name => .error (.duplicateName name)
      | none => if g.nameService.creditGrant.toInt < 0 then .error .negativeGrant else .ok ()

/-- Registers a name; its owner gets the credits of a first name unless there are credits already.
-/
def addName (l : Ledger) (n : GenesisName) : Ledger :=
  let l := l.putName n.name ⟨n.owner, n.price, []⟩
  -- An account with several names gets the credits for the first of them only.
  if l.credits.contains n.owner then l
  else { l with credits := l.credits.insert n.owner l.pricing.creditGrant }

/-- The ledger that a chain starts with. -/
def ledger (g : Genesis) : Ledger :=
  let accounts : Ledger := { Ledger.empty g.nameService.pricing with
    balances := Balances.empty.creditAll g.accounts
    supply := Message.total g.accounts }
  g.nameService.names.foldl addName accounts

/-! ## Genesis documents as JSON -/

/-- A name as an object. -/
def nameToJson (n : GenesisName) : Json :=
  .object [("name", .string n.name), ("owner", n.owner.toJson),
    ("price", .ofOption CoinSet.toJson n.price)]

/-- Reads a name. -/
def nameOfJson : Json → Except Json.Fault GenesisName :=
  Json.record "GenesisName" ["name", "owner", "price"] fun r =>
    GenesisName.mk <$> r.required "name" Json.toText <*> r.required "owner" Address.ofJson
      <*> r.optional "price" none (Json.toOption CoinSet.ofJson)

/-- A name service as an object. -/
def serviceToJson (n : NameService) : Json :=
  .object [("registration_fee", n.registrationFee.toJson), ("renewal_fee", n.renewalFee.toJson),
    ("address_registration_fee", n.addressFee.toJson),
    ("standard_credit_grant", .integer n.creditGrant.toInt),
    ("names", .ofList nameToJson n.names)]

/-- Reads a name service. -/
def serviceOfJson : Json → Except Json.Fault NameService :=
  Json.record "NameServiceGenesis" ["registration_fee", "renewal_fee", "address_registration_fee",
    "standard_credit_grant", "names"] fun r =>
      NameService.mk <$> r.optional "registration_fee" CoinSet.empty CoinSet.ofJson
        <*> r.optional "renewal_fee" CoinSet.empty CoinSet.ofJson
        <*> r.optional "address_registration_fee" CoinSet.empty CoinSet.ofJson
        <*> r.optional "standard_credit_grant" 0 Json.toInt64
        <*> r.optional "names" [] (Json.toList nameOfJson)

/-- A genesis as an object. -/
def toJson (g : Genesis) : Json :=
  .object (("genesis_time", g.time.toJson) :: g.economy.sections ++
    [("accounts", .ofList Share.toJson g.accounts), ("names", serviceToJson g.nameService)])

/-- The fields that say something about the ledger. -/
def ledgerFields : List String := ["genesis_time", "accounts", "names"]

/-- Reads the fields of a genesis. -/
def ofRecord (r : Json.Record) : Json.Reading Genesis :=
  mk <$> r.optional "genesis_time" BlockTime.genesis BlockTime.ofJson
    <*> Governance.Genesis.ofRecord r
    <*> r.optional "accounts" [] (Json.toList (Share.ofJson "GenesisAccount"))
    <*> r.optional "names" NameService.free serviceOfJson

/-- Reads a genesis, which has to be an object. The fields besides those about the ledger may belong
to the economy, so that all of them are read. -/
def ofJson : Json → Except Json.Fault Genesis
  | .object fields =>
    if fields.all fun f => ledgerFields.contains f.1 || f.2.isReadable then
      (ofRecord (.byName fields)).outcome
    else .error (.at .malformed)
  | j => .error (Json.wrongKind j "struct NodeGenesis")

end Genesis

end ChainEconomy.Chain
