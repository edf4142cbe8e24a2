import ChainEconomy.BlockTime
import ChainEconomy.Fixed
import ChainEconomy.Store.Record

/-! # The state of the minter

What is carried from block to block: the time of the last block, and the part of the supply owed
that is smaller than one unit. -/

namespace ChainEconomy.Mint

/-- What the minter carries from block to block. -/
structure State where
  previousTime : BlockTime
  leftover : Fixed
  deriving DecidableEq, Repr

/-- What is wrong with a state. -/
inductive StateFlaw where
  | leftoverNotBelowOne (leftover : Fixed)
  deriving DecidableEq, Repr

/-- The wording of a flaw. -/
def StateFlaw.message : StateFlaw → String
  | .leftoverNotBelowOne leftover => s!"leftover {leftover} is not below one"

namespace State

/-- The state before the first block. -/
def genesis : State := ⟨BlockTime.genesis, Fixed.zero⟩

/-- Refuses a state in which a whole unit is owed. -/
def check (s : State) : Except StateFlaw Unit :=
  if s.leftover.isBelowOne then .ok () else .error (.leftoverNotBelowOne s.leftover)

/-- A state as an object. -/
def toJson (s : State) : Json :=
  .object [("previous_mint_time", s.previousTime.toJson), ("leftover", s.leftover.toJson)]

/-- Reads a state. -/
def ofJson : Json → Except Json.Fault State :=
  Json.record "MinterState" ["previous_mint_time", "leftover"] fun r =>
    mk <$> r.required "previous_mint_time" BlockTime.ofJson <*> r.required "leftover" Fixed.ofJson

/-- The state in a store, as it is written there. -/
def load (s : Store) : Except StorageError (Option State) := s.getRecord ofJson Store.minterKey

/-- Puts a state into a store. -/
def save (m : State) (s : Store) : Except StorageError Store := s.setRecord Store.minterKey m.toJson

end State

end ChainEconomy.Mint
