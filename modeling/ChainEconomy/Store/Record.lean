import ChainEconomy.Json.Document
import ChainEconomy.Store.Basic

/-! # Records in a store

Typed values under keys, kept as JSON without spaces, and the keys of the records there are: a mark
for each excluded type of message, the state of the minter, and the parameters of a module. -/

namespace ChainEconomy.Store

/-- Reads the value under a key, if there is one. -/
def getRecord {α : Type} (decode : Json → Except Json.Fault α) (s : Store) (key : Bytes) :
    Except StorageError (Option α) :=
  match s.get key with
  | .error e => .error e
  | .ok none => .ok none
  | .ok (some bytes) =>
    match Json.decodeBytes decode bytes with
    | .error fault => .error (.corrupt key (.json fault))
    | .ok a => .ok (some a)

/-- The bytes of a record. -/
def recordBytes (j : Json) : Bytes := Text.Utf8.encode j.renderChars

/-- Puts a record under a key. -/
def setRecord (s : Store) (key : Bytes) (j : Json) : Except StorageError Store :=
  s.set key (recordBytes j)

/-! ## Keys -/

/-- What the keys of the marks for excluded types start with. -/
def exclusionStart : Bytes := [0x01]

/-- The key of the mark for an excluded type. -/
def exclusionKey (typeUrl : String) : Bytes := exclusionStart ++ Text.Utf8.ofString typeUrl

/-- The key of the state of the minter. -/
def minterKey : Bytes := [0x10]

/-- What the keys of parameters start with. -/
def paramsStart : Bytes := [0x20]

/-- The key of the parameters of a module. -/
def paramsKey (subspace : String) : Bytes := paramsStart ++ Text.Utf8.ofString subspace

end ChainEconomy.Store
