import ChainEconomy.Denom
import ChainEconomy.Json.Record
import ChainEconomy.Text.Blank

/-! # Coins

An amount of one denomination, and its two written forms: `5utoll`, and the object
with the fields `denom` and `amount`, the amount as a string. -/

namespace ChainEconomy

/-- Why a coin or a set of coins is refused. -/
inductive CoinError where
  | invalidDenom (denom : String)
  | duplicateDenom (denom : String)
  | invalidAmount (text : String)
  | malformed (text : String)
  | insufficient (denom : String) (available requested : Nat)
  deriving DecidableEq, Repr

/-- The wording of a refusal. -/
def CoinError.message : CoinError → String
  | .invalidDenom denom => "invalid denomination: " ++ Text.quoted denom
  | .duplicateDenom denom => s!"duplicate denomination: {denom}"
  | .invalidAmount text => "invalid amount: " ++ Text.quoted text
  | .malformed text => "malformed coin expression: " ++ Text.quoted text
  | .insufficient denom available requested =>
    s!"insufficient {denom}: have {available}, need {requested}"

/-- Refuses a text that is no denomination. -/
def Denom.check (denom : String) : Except CoinError Unit :=
  if Denom.isDenom denom then .ok () else .error (.invalidDenom denom)

/-- An amount of one denomination. -/
structure Coin where
  denom : String
  amount : Nat
  deriving DecidableEq, Repr

namespace Coin

/-- A coin whose denomination has been checked. -/
def ofParts (denom : String) (amount : Nat) : Except CoinError Coin :=
  (Denom.check denom).map fun _ => ⟨denom, amount⟩

/-- The amount and the denomination, with nothing between them. -/
def renderChars (c : Coin) : List Char := Text.decimal c.amount ++ c.denom.toList

/-- The text of a coin. -/
def render (c : Coin) : String := String.ofList c.renderChars

/-- Reads a coin: digits and a denomination, with white space around them. -/
def parse (cs : List Char) : Except CoinError Coin :=
  let text := Text.trim cs
  let digits := text.takeWhile Char.isDigit
  let denom := text.dropWhile Char.isDigit
  if digits.isEmpty || denom.isEmpty then .error (.malformed (String.ofList text))
  else ofParts (String.ofList denom) (Text.digitsValue digits)

/-- A coin as an object. -/
def toJson (c : Coin) : Json :=
  .object [("denom", .string c.denom), ("amount", .string (toString c.amount))]

/-- Reads an amount: digits with underscores between them, perhaps behind a plus sign. -/
def parseAmount? (cs : List Char) : Option Nat :=
  let body :=
    match cs with
    | '+' :: rest => rest
    | cs => cs
  match body with
  | [] => none
  -- An underscore may stand anywhere but in front, the end included.
  | '_' :: _ => none
  | body =>
    if body.all fun c => c.isDigit || c = '_' then
      some (Text.digitsValue (body.filter Char.isDigit))
    else none

/-- Reads the amount of a coin object. -/
def amountOfJson (j : Json) : Except Json.Fault Nat :=
  match j.toText with
  | .error f => .error f
  | .ok s =>
    match parseAmount? s.toList with
    | some n => .ok n
    | none => .error (.at (.rejected ("invalid amount " ++ Text.quoted s)))

/-- Reads a coin object; the denomination may be any text. -/
def ofJson : Json → Except Json.Fault Coin :=
  Json.record "Coin" ["denom", "amount"] fun r =>
    mk <$> r.required "denom" Json.toText <*> r.required "amount" amountOfJson

end Coin

end ChainEconomy
