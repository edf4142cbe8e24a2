import ChainEconomy.Settings.Basic
import ChainEconomy.Settings.Path

/-! # Layers of settings

A configuration file lies over the standard settings, and the environment lies over both. All layers
are loosely typed: a value is converted to the type that its setting needs. -/

namespace ChainEconomy.Settings

/-! ## Laying one over the other -/

mutual

/-- Lays a value over what stands under its name, of which the case does not matter. The fields of a
table are laid over those of the table below. -/
def overlay (name : String) : Value → Values → Values
  | .table incoming, below =>
    let name := lowerName name
    match below.lookup name, incoming with
    -- An empty table leaves alone what is there.
    | some _, [] => below
    | some (.table fields), incoming => replace name (.table (overlayAll incoming fields)) below
    | _, incoming => replace name (.table (overlayAll incoming [])) below
  | v, below => replace (lowerName name) v below

/-- Lays values over others, one after the other. -/
def overlayAll : List (String × Value) → Values → Values
  | [], below => below
  | (name, v) :: rest, below => overlayAll rest (overlay name v below)

end

/-- A value inside of tables with the given names. -/
def nest (names : List String) (v : Value) : Value :=
  names.foldr (fun name inner => .table [(name, inner)]) v

/-- Lays one value of a layer over the layers below. A value for an item of a list makes a list of
what stands there. -/
def layValue (name : String) (v : Value) (below : Values) : Values :=
  let path := Path.ofName name
  match path.names with
  | [] => below
  | first :: rest => overlay first (nest rest (if path.isItem then .list else v)) below

/-- Lays a layer over the layers below. -/
def layOver (layer below : Values) : Values :=
  layer.foldl (fun below f => layValue f.1 f.2 below) below

/-! ## The environment -/

/-- The value of a variable: a truth value or a number if it reads as one, else a string. -/
def valueOfVariable (text : String) : Value :=
  let cs := text.toList
  let lower := text.toLower
  if lower = "true" then .flag true
  else if lower = "false" then .flag false
  else
    match (Binary64.Extended.readInteger cs).filter Value.isWhole with
    | some n => .number n
    | none =>
      match Binary64.Extended.parse? cs with
      | some x => .real x
      | none => .text text

/-- What the names of variables for settings start with. -/
def variableStart : String := "tollgate_"

/-- The layer that the variables of the environment form. -/
def ofEnvironment (environment : List (String × String)) : Values :=
  environment.filterMap fun (name, text) =>
    let name := lowerName name
    if name.startsWith variableStart then
      some (String.ofList (name.toList.drop variableStart.length), valueOfVariable text)
    else none

/-! ## Conversions -/

/-- A value as text. -/
def toText : Value → Option String
  | .text s => some s
  | .number n => some (toString n)
  | .real x => some (String.ofList x.render)
  | .flag b => some (toString b)
  | .absent | .list | .table _ => none

/-- Reads a word of 64 bits, in front of which may be a plus sign. -/
def readWord (text : String) : Option UInt64 :=
  let digits :=
    match text.toList with
    | '+' :: rest => rest
    | cs => cs
  let n := Text.digitsValue digits
  if !digits.isEmpty && Text.allDigits digits && Nat.blt n (Nat.pow 2 64) then some (UInt64.ofNat n)
  else none

/-- The truth value that a word stands for. -/
def flagOfWord (text : String) : Option Bool :=
  let word := text.toLower
  if word = "true" ∨ word = "on" ∨ word = "yes" then some true
  else if word = "false" ∨ word = "off" ∨ word = "no" then some false
  else none

/-- Text as a number; a truth value counts as one or zero. -/
def wordOfText (text : String) : Option UInt64 :=
  match flagOfWord text with
  | some b => some (if b then 1 else 0)
  | none => readWord text

/-- A value as a number. -/
def toWord : Value → Option UInt64
  | .text s => wordOfText s
  | .number n => if 0 ≤ n then some (UInt64.ofNat n.toNat) else none
  | .real x => some x.toWord
  | .flag b => some (if b then 1 else 0)
  | .absent | .list | .table _ => none

/-- Text as a truth value. -/
def flagOfText (text : String) : Option Bool :=
  if text = "1" then some true else if text = "0" then some false else flagOfWord text

/-- A value as a truth value. -/
def toFlag : Value → Option Bool
  | .text s => flagOfText s
  | .number n => some (decide (n ≠ 0))
  | .real x => some (!x.isZero)
  | .flag b => some b
  | .absent | .list | .table _ => none

/-- A value as a kind of storage: its name in any case, or a table with that name as its only key.
-/
def toStorage : Value → Option Storage
  | .text s => Storage.ofName? s.toLower
  | .table [(name, _)] => Storage.ofName? name.toLower
  | _ => none

/-- The converted value under a name. -/
def setting {α : Type} (values : Values) (name : String) (convert : Value → Option α) :
    Except SettingsError α :=
  match (values.lookup name).bind convert with
  | some a => .ok a
  | none => .error .unusable

/-- The converted value under a name that may be absent. -/
def setting? {α : Type} (values : Values) (name : String) (convert : Value → Option α) :
    Except SettingsError (Option α) :=
  match values.lookup name with
  | none | some .absent => .ok none
  | some _ => (setting values name convert).map some

/-- The settings that values stand for; unknown names are ignored. -/
def ofValues (values : Values) : Except SettingsError Settings := do
  let logLevel ← setting values "log_level" toText
  let logFormat ← setting values "log_format" toText
  let dataDir ← setting values "data_dir" toText
  let storage ← setting values "storage" toStorage
  let genesisPath ← setting? values "genesis_path" toText
  let blockIntervalMs ← setting values "block_interval_ms" toWord
  let blocks ← setting values "blocks" toWord
  let metricsEnabled ← setting values "metrics_enabled" toFlag
  return ⟨logLevel, logFormat, dataDir, storage, genesisPath, blockIntervalMs, blocks,
    metricsEnabled⟩

/-- Settings as the lowest layer. -/
def toValues (s : Settings) : Values :=
  [("log_level", .text s.logLevel), ("log_format", .text s.logFormat),
    ("data_dir", .text s.dataDir), ("storage", .text s.storage.name)] ++
  (s.genesisPath.map fun path => ("genesis_path", Value.text path)).toList ++
  [("block_interval_ms", .number s.blockIntervalMs.toNat), ("blocks", .number s.blocks.toNat),
    ("metrics_enabled", .flag s.metricsEnabled)]

/-- The settings that a configuration file and the environment give. -/
def ofLayers (file : Values) (environment : List (String × String)) :
    Except SettingsError Settings :=
  -- The environment lies on top of the file, and the file on top of the standard settings.
  ofValues (layOver (ofEnvironment environment) (layOver file standard.toValues))

end ChainEconomy.Settings
