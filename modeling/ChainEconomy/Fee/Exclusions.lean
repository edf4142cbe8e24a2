import ChainEconomy.Store.Record

/-! # Excluded message types

The types of messages that bear no surcharge, as marks in a store: a type is excluded exactly if its
key is there. -/

namespace ChainEconomy.Fee.Exclusions

/-- The value of a mark. -/
def mark : Bytes := [0x01]

/-- Whether a type is excluded. -/
def contains (s : Store) (typeUrl : String) : Except StorageError Bool :=
  s.has (Store.exclusionKey typeUrl)

/-- Excludes a type. -/
def add (s : Store) (typeUrl : String) : Except StorageError Store :=
  s.set (Store.exclusionKey typeUrl) mark

/-- Ends the exclusion of a type; one that is not excluded stays so. -/
def remove (s : Store) (typeUrl : String) : Except StorageError Store :=
  s.delete (Store.exclusionKey typeUrl)

/-- The types named by keys, up to the first key that is not readable. -/
def typesOfKeys : List Bytes → Except StorageError (List String)
  | [] => .ok []
  | key :: rest =>
    match Text.Utf8.decode (key.drop Store.exclusionStart.length) with
    | .error unreadable => .error (.corrupt key (.notText unreadable))
    | .ok cs => (typesOfKeys rest).map (String.ofList cs :: ·)

/-- The excluded types, in the order of their keys. -/
def toList (s : Store) : Except StorageError (List String) :=
  match s.scan Store.exclusionStart with
  | .error e => .error e
  | .ok entries => typesOfKeys (entries.map Prod.fst)

end ChainEconomy.Fee.Exclusions
