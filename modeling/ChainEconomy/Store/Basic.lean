import ChainEconomy.Attempt
import ChainEconomy.Json.Fault
import ChainEconomy.OrderedMap
import ChainEconomy.Text.Utf8

/-! # Stores

Values under keys, both of them strings of bytes. The entries are kept in ascending order of their
keys, so that everyone who lists them sees the same sequence. A store is read from and written to
through a medium, which may fail at some keys; a failing write changes nothing. -/

namespace ChainEconomy

/-- Why what is kept under a key is of no use. -/
inductive StorageError.Reason where
  | medium (text : String)
  | json (fault : Json.Fault)
  | notText (unreadable : Text.Utf8.Unreadable)
  deriving DecidableEq, Repr

/-- Why a value cannot be had, or cannot be put in place. -/
inductive StorageError where
  /-- The database below reports an error. -/
  | database (text : String)
  /-- A value cannot be written as bytes. -/
  | serialization (text : String)
  /-- What is kept under a key is damaged. -/
  | corrupt (key : Bytes) (reason : StorageError.Reason)
  deriving DecidableEq, Repr

namespace StorageError

/-- The wording of a reason. -/
def Reason.message : Reason → String
  | .medium text => text
  | .json fault => fault.message
  | .notText unreadable => unreadable.message

/-- The wording of a failure. -/
def message : StorageError → String
  | .database text => "Database error: " ++ text
  | .serialization text => "Serialization error: " ++ text
  | .corrupt key reason =>
    "Corrupt value under key " ++ Text.Hex.render key ++ ": " ++ reason.message

/-- Whether the failure is reported together with a place in a text. -/
def located : StorageError → Bool
  | .corrupt _ (.json fault) => fault.located
  | _ => false

/-- The failures at keys whose values are damaged, each of them for a reason. -/
def damaged (reason : Bytes → Option String) (key : Bytes) : Option StorageError :=
  (reason key).map fun text => .corrupt key (.medium text)

instance : Coe (Bytes → Option String) (Bytes → Option StorageError) := ⟨damaged⟩

end StorageError

/-- The keys at which a medium fails to read or to write, and how. A search is a read at what the
keys that it looks for start with. -/
structure Medium where
  readFailure : Bytes → Option StorageError
  writeFailure : Bytes → Option StorageError

/-- The medium that never fails. -/
def Medium.sound : Medium := ⟨fun _ => none, fun _ => none⟩

instance : Inhabited Medium := ⟨.sound⟩

/-- Entries on a medium. -/
structure Store where
  entries : OrderedMap Bytes Bytes
  medium : Medium

namespace Store

/-- A store without entries. -/
def empty (medium : Medium) : Store := ⟨.empty, medium⟩

instance : Inhabited Store := ⟨empty .sound⟩

/-- The value under a key. -/
def get (s : Store) (key : Bytes) : Except StorageError (Option Bytes) :=
  match s.medium.readFailure key with
  | some e => .error e
  | none => .ok (s.entries.find? key)

/-- Whether a key has a value. -/
def has (s : Store) (key : Bytes) : Except StorageError Bool := (s.get key).map Option.isSome

/-- Puts a value under a key. -/
def set (s : Store) (key value : Bytes) : Except StorageError Store :=
  match s.medium.writeFailure key with
  | some e => .error e
  | none => .ok { s with entries := s.entries.insert key value }

/-- Drops a key and its value; a key that is absent is no loss. -/
def delete (s : Store) (key : Bytes) : Except StorageError Store :=
  match s.medium.writeFailure key with
  | some e => .error e
  | none => .ok { s with entries := s.entries.erase key }

/-- Whether a key starts with given bytes. -/
def startsWith (start key : Bytes) : Bool := start.isPrefixOf key

/-- The entries whose keys start with given bytes. Keys with a common start are neighbours, so the
search skips the smaller keys and ends at the first one that does not match. -/
def entriesUnder (start : Bytes) (m : OrderedMap Bytes Bytes) : List (Bytes × Bytes) :=
  -- A key that starts with `start` is not smaller than it.
  (m.entries.dropWhile fun e => decide (KeyOrder.Before e.1 start)).takeWhile
    fun e => startsWith start e.1

/-- Lists the entries whose keys start with given bytes. -/
def scan (s : Store) (start : Bytes) : Except StorageError (List (Bytes × Bytes)) :=
  match s.medium.readFailure start with
  | some e => .error e
  | none => .ok (entriesUnder start s.entries)

end Store

end ChainEconomy
