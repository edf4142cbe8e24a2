import ChainEconomy.CoinSet.Basic
import ChainEconomy.Text.Split

/-! # Written forms of coin sets

The coins of a set by ascending denomination: separated by commas, or as a list of objects. Reading
goes through the list of coins, so that their order does not matter; white space alone is the empty
set. -/

namespace ChainEconomy.CoinSet

/-- The coins, separated by commas. -/
def renderChars (s : CoinSet) : List Char := Text.join ',' (s.toCoins.map Coin.renderChars)

/-- The text of a set. -/
def render (s : CoinSet) : String := String.ofList s.renderChars

instance : ToString CoinSet := ⟨render⟩

/-- Reads coins one after the other, up to the first refusal. -/
def parseCoins : List (List Char) → Except CoinError (List Coin)
  | [] => .ok []
  | part :: rest =>
    match Coin.parse part with
    | .error e => .error e
    | .ok c =>
      match parseCoins rest with
      | .error e => .error e
      | .ok cs => .ok (c :: cs)

/-- Reads a set: coins separated by commas, or nothing but white space. -/
def parse (cs : List Char) : Except CoinError CoinSet :=
  if Text.allBlank cs then .ok empty
  else
    match parseCoins (Text.split ',' cs) with
    | .error e => .error e
    | .ok coins => ofCoins coins

/-- A set as a list of coin objects. -/
def toJson (s : CoinSet) : Json := Json.ofList Coin.toJson s.toCoins

/-- Reads a set from a list of coin objects. -/
def ofJson (j : Json) : Except Json.Fault CoinSet :=
  match Json.toList Coin.ofJson j with
  | .error f => .error f
  | .ok coins =>
    match ofCoins coins with
    | .error e => .error (Json.Fault.at (.rejected e.message)).detached
    | .ok s => .ok s

end ChainEconomy.CoinSet
