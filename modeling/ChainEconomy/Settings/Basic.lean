import ChainEconomy.Json.Fault
import ChainEconomy.Toml.Writer

/-! # Settings of a node

How much a node logs, where it keeps its state and finds its genesis, and how it produces blocks. -/

namespace ChainEconomy

/-- Where a node keeps the state of the economy. -/
inductive Storage where
  /-- In memory, and thus for one session only. -/
  | memory
  /-- In a directory. -/
  | disk
  deriving DecidableEq, Repr

/-- The name of a kind of storage. -/
def Storage.name : Storage → String
  | .memory => "memory"
  | .disk => "sled"

/-- The kind of storage with a name. -/
def Storage.ofName? (name : String) : Option Storage :=
  if name = Storage.memory.name then some .memory
  else if name = Storage.disk.name then some .disk
  else none

/-- A kind of storage is found by its name. -/
theorem Storage.ofName?_name (s : Storage) : Storage.ofName? s.name = some s := by
  cases s <;> decide

/-- The settings of a node. -/
structure Settings where
  logLevel : String
  logFormat : String
  dataDir : String
  storage : Storage
  genesisPath : Option String
  /-- Milliseconds between two blocks. -/
  blockIntervalMs : UInt64
  /-- How many blocks a session produces. -/
  blocks : UInt64
  metricsEnabled : Bool
  deriving DecidableEq, Repr

/-- Why there are no settings. -/
inductive SettingsError where
  | missingFile (path : String)
  /-- Neither the path nor the path with an ending leads to a file. -/
  | noSuchFile (path : String)
  | unknownFormat (path : String)
  /-- The text of a file is not well formed; the reason is not always told. -/
  | malformedFile (path : String) (reason : Option String)
  /-- A file holds something else than values with names. -/
  | notATable (path found : String)
  | unusable
  | unknownLogFormat (format : String)
  | zeroInterval
  | unwritable
  deriving DecidableEq, Repr

/-- The wording of a refusal. -/
def SettingsError.message : SettingsError → String
  | .missingFile path => "Configuration file " ++ path ++ " not found (specified via --config)"
  | .noSuchFile path => "configuration file \"" ++ path ++ "\" not found"
  | .unknownFormat path =>
    "configuration file \"" ++ path ++ "\" is not of a registered file format"
  | .malformedFile path reason => reason.getD "malformed configuration file" ++ " in " ++ path
  | .notATable path found =>
    "invalid type: " ++ found ++ ", expected a map in " ++ path ++ " in " ++ path
  | .unusable => "invalid node configuration"
  | .unknownLogFormat format =>
    "log_format must be \"pretty\" or \"json\", got " ++ Text.quoted format
  | .zeroInterval => "block_interval_ms must be positive"
  | .unwritable => "out-of-range value for u64 type"

namespace Settings

/-- The settings where nothing is said about them. -/
def standard : Settings := ⟨"info", "pretty", "./data", .memory, none, 5000, 10, false⟩

/-- The file with the genesis of the chain. -/
def genesisFile (s : Settings) : String := s.genesisPath.getD "config/genesis.json"

/-- A path below a directory. -/
def joinPath (dir name : String) : String :=
  if dir.isEmpty then name else if dir.endsWith "/" then dir ++ name else dir ++ "/" ++ name

/-- The directory with the state of the economy. -/
def stateDir (s : Settings) : String := joinPath s.dataDir "state"

/-- Refuses settings that make no sense. -/
def check (s : Settings) : Except SettingsError Unit :=
  if s.logFormat ≠ "pretty" ∧ s.logFormat ≠ "json" then .error (.unknownLogFormat s.logFormat)
  else if s.blockIntervalMs = 0 then .error .zeroInterval
  else .ok ()

/-- Whether a word can be written, as whole numbers of the format have a sign. -/
def isWritable (w : UInt64) : Bool := Nat.blt w.toNat (Nat.pow 2 63)

/-- Settings as a configuration file. -/
def render (s : Settings) : Except SettingsError String :=
  if isWritable s.blockIntervalMs && isWritable s.blocks then
    let genesis :=
      match s.genesisPath with
      | some path => Toml.line "genesis_path" (Toml.renderString path)
      | none => ""
    .ok (Toml.line "log_level" (Toml.renderString s.logLevel) ++
      Toml.line "log_format" (Toml.renderString s.logFormat) ++
      Toml.line "data_dir" (Toml.renderString s.dataDir) ++
      Toml.line "storage" (Toml.renderString s.storage.name) ++ genesis ++
      Toml.line "block_interval_ms" (Text.decimal s.blockIntervalMs.toNat) ++
      Toml.line "blocks" (Text.decimal s.blocks.toNat) ++
      Toml.line "metrics_enabled" (toString s.metricsEnabled).toList)
  else .error .unwritable

end Settings

end ChainEconomy
