import ChainEconomy.Chain.Counters
import ChainEconomy.Chain.Run
import ChainEconomy.Cli.Arguments
import ChainEconomy.Cli.Failure
import ChainEconomy.Session
import ChainEconomy.Settings.Format
import ChainEconomy.Settings.Layers

/-! # Commands

Each command as a session. Most commands first open the state of the economy, which is written from
the genesis if the minter has left nothing in it, and keep it again where it is to outlive the
session. -/

namespace ChainEconomy.Cli

/-! ## Settings -/

/-- The file with settings where no other is named; it may be missing. -/
def standardConfigFile : String := "config/node.toml"

/-- The file with settings, if there is one. -/
def configFile? (options : Options) : Task Failure (Option String) := do
  match options.config with
  | some path =>
    if ← Task.hasPath path then return some path
    else throw (.ofSettings (.missingFile path))
  | none =>
    if ← Task.hasPath standardConfigFile then return some standardConfigFile else return none

/-- The first of several paths that leads to a file. -/
def firstFile? : List String → Task Failure (Option String)
  | [] => return none
  | path :: rest => do if ← Task.isFile path then return some path else firstFile? rest

/-- The file that a path stands for. -/
def resolveFile (path : String) : Task Failure String := do
  if ← Task.isFile path then return path
  else
    match ← firstFile? (Settings.Format.candidates path) with
    | some found => return found
    | none => throw (.ofSettings (.noSuchFile path))

/-- The values in the file with settings. -/
def fileValues : Option String → Task Failure Settings.Values
  | none => return []
  | some path => do
    let path ← resolveFile path
    match Settings.Format.ofPath? path with
    | none => throw (.ofSettings (.unknownFormat path))
    | some format =>
      let text ← Task.fileText path fun reason => .ofCauses [reason]
      match format.read (Settings.Format.withoutMark text) with
      | .error reason => throw (.ofSettings (.malformedFile (Settings.Format.tidy path) reason))
      | .ok (.table values) => return values
      | .ok other => throw (.ofSettings (.notATable (Settings.Format.tidy path) other.kindName))

/-- The number of blocks that a command asks for. -/
def Command.blocks? : Command → Option UInt64
  | .run blocks _ => blocks
  | _ => none

/-- Settings with the arguments laid over them. -/
def applyOptions (options : Options) (command : Command) (s : Settings) : Settings where
  logLevel := options.logLevel.getD s.logLevel
  logFormat := options.logFormat.getD s.logFormat
  dataDir := options.dataDir.getD s.dataDir
  storage := options.storage.getD s.storage
  genesisPath := options.genesis.orElse fun _ => s.genesisPath
  blockIntervalMs := s.blockIntervalMs
  blocks := command.blocks?.getD s.blocks
  metricsEnabled := options.metrics || s.metricsEnabled

/-- The settings for a command. -/
def loadSettings (environment : List (String × String)) (options : Options) (command : Command) :
    Task Failure Settings := do
  let file ← fileValues (← configFile? options)
  let settings ← Task.ofExcept ((Settings.ofLayers file environment).mapError Failure.ofSettings)
  let settings := applyOptions options command settings
  Task.ofExcept (settings.check.mapError Failure.ofSettings)
  return settings

/-! ## State -/

/-- The JSON value in a file. -/
def readJson {α : Type} (what path : String) (decode : Json → Except Json.Fault α) :
    Task Failure α := do
  let what := what ++ " " ++ path
  let text ← Task.fileText path (Failure.ofReading what)
  Task.ofExcept ((Json.decodeText decode text).mapError (Failure.ofParsing what))

/-- The genesis of the chain. -/
def loadGenesis (s : Settings) : Task Failure Chain.Genesis := do
  let genesis ← readJson "genesis file" s.genesisFile Chain.Genesis.ofJson
  Task.ofExcept (genesis.check.mapError fun e => .ofCauses e.causes)
  return genesis

/-- The store as it was kept. -/
def openStore (s : Settings) : Task Failure Store :=
  match s.storage with
  | .memory => return .empty .sound
  | .disk => do
    let dir := s.stateDir
    let entries ← Task.openState dir fun reason =>
      .ofCauses ["opening sled store at " ++ dir, reason]
    return ⟨entries, .sound⟩

/-- Keeps the store, if it is to outlive the session. -/
def keepStore (s : Settings) (store : Store) : Task Failure Unit :=
  match s.storage with
  | .memory => return ()
  | .disk => Task.keepState s.stateDir store.entries

/-- Carries out an attempt on the store, and keeps what it did even if it was refused. -/
def onStore {α : Type} (s : Settings) (store : Store) (x : Attempt Store Governance.Error α) :
    Task Failure (α × Store) := do
  let (result, store) := x.run store
  -- The store is kept before the refusal is reported.
  keepStore s store
  let a ← Task.ofExcept (result.mapError Failure.ofGovernance)
  return (a, store)

/-- The store, written from the genesis if need be, and the genesis. -/
def openInitialized (s : Settings) : Task Failure (Store × Chain.Genesis) := do
  let genesis ← loadGenesis s
  let store ← openStore s
  match ← Task.ofExcept ((Mint.State.load store).mapError Failure.ofStorage) with
  -- The genesis of a store that has been written is read all the same, for its ledger.
  | some _ => return (store, genesis)
  | none =>
    let (_, store) ← onStore s store genesis.economy.init
    return (store, genesis)

/-! ## Commands -/

/-- What a command printed, and the counters at its end. -/
structure Success where
  output : String
  counters : Chain.Counters

/-- A command that touched no counter. -/
def Success.ofOutput (output : String) : Success := ⟨output, .zero⟩

/-- Lines of text. -/
def lines (l : List String) : String := String.join (l.map (· ++ "\n"))

/-- The transactions to process. -/
def loadSchedule : Option String → Task Failure Chain.Schedule
  | none => return .empty
  | some path => do
    let entries ← readJson "transaction file" path (Json.toList Chain.Entry.ofJson)
    Task.ofExcept ((Chain.Schedule.ofEntries entries).mapError fun e => .ofCauses [e.message])

/-- The lines about a block: one for each transaction turned down, and one for the block. -/
def blockLines (o : Chain.Outcome) : List String :=
  let height := o.height
  let rejected := o.tally.rejected.map fun (index, reason) =>
    s!"block {height}: tx {index} rejected: " ++ reason.message
  let time := o.time
  let minted := o.mint.minted
  let admitted := o.tally.admitted
  let turnedDown := o.tally.rejected.length
  let fees := o.tally.fees
  let events := o.events.length
  let counts := s!"minted {minted} admitted {admitted} rejected {turnedDown}"
  rejected ++ [s!"block {height} at {time}: {counts} fees {fees} events {events}"]

/-- The lines about the accounts after a run. -/
def ledgerLines (l : Ledger) : List String :=
  let balance (name : String) : String :=
    let coins := l.moduleBalance name
    s!"{name}: {coins}"
  let names := l.names.entries.map fun (name, record) =>
    s!"name {name}: " ++ record.toJson.render
  let supply := l.supply
  [balance Fee.collector, balance Mint.treasuryPool, balance Mint.rewardsPool] ++ names ++
    [s!"total supply: {supply}"]

/-- The denomination in which fees are counted. -/
def baseDenom (store : Store) : String :=
  match Governance.loadFee store with
  | .ok params => params.baseDenom
  | .error _ => ""

/-- Produces blocks. -/
def runBlocks (s : Settings) (txs : Option String) : Task Failure Success := do
  let schedule ← loadSchedule txs
  let (store, genesis) ← openInitialized s
  let run := Chain.run genesis.time s.blockIntervalMs schedule s.blocks ⟨store, genesis.ledger⟩
  -- What the blocks before a fault did is kept.
  keepStore s run.chain.store
  let blocks := run.outcomes.flatMap blockLines
  match run.fault with
  | some (height, fault) =>
    throw ⟨lines blocks, s!"block {height} aborted" :: fault.causes, fault.located⟩
  | none =>
    let counters := Chain.Counters.ofOutcomes (baseDenom run.chain.store) run.outcomes
    return ⟨lines (blocks ++ ledgerLines run.chain.ledger), counters⟩

/-- Shows a part of the state. -/
def showState (s : Settings) (what : Query) : Task Failure Success := do
  let (store, _) ← openInitialized s
  match what with
  | .excluded =>
    let types ← Task.ofExcept ((Fee.Exclusions.toList store).mapError Failure.ofStorage)
    return .ofOutput (lines types)
  | .minter =>
    match ← Task.ofExcept ((Mint.State.load store).mapError Failure.ofStorage) with
    | some state => return .ofOutput (lines [state.toJson.renderPretty])
    | none => throw (.ofCauses [Corruption.minterMissing.message])
  | .params =>
    let fee ← Task.ofExcept ((Governance.loadFee store).mapError Failure.ofGovernance)
    let mint ← Task.ofExcept ((Governance.loadMint store).mapError Failure.ofGovernance)
    let params : Json := .object [("fee", fee.toJson), ("mint", mint.toJson)]
    return .ofOutput (lines [params.sortFields.renderPretty])

/-- Applies a proposal. -/
def propose (s : Settings) (file : String) : Task Failure Success := do
  let proposal ← readJson "proposal" file Governance.Proposal.ofJson
  let (store, _) ← openInitialized s
  let (events, _) ← onStore s store proposal.handle
  return .ofOutput (lines (events.map fun e => e.toJson.render))

/-- Checks a genesis. -/
def validateGenesis (s : Settings) : Task Failure Success := do
  let _ ← loadGenesis s
  return .ofOutput (lines ["genesis " ++ s.genesisFile ++ " is valid"])

/-- Shows the genesis that the state amounts to. -/
def exportGenesis (s : Settings) : Task Failure Success := do
  let (store, _) ← openInitialized s
  let genesis ← Task.ofExcept
    ((Governance.Genesis.ofStore store).mapError Failure.ofGovernance)
  return .ofOutput (lines [genesis.toJson.renderPretty])

/-- Shows the settings. -/
def showConfig (s : Settings) : Task Failure Success := do
  let text ← Task.ofExcept (s.render.mapError Failure.ofSettings)
  return .ofOutput (lines [text])

/-- Carries out a command. -/
def perform (s : Settings) : Command → Task Failure Success
  | .run _ txs => runBlocks s txs
  | .query what => showState s what
  | .propose file => propose s file
  | .validateGenesis => validateGenesis s
  | .exportGenesis => exportGenesis s
  | .showConfig => showConfig s

/-! ## The program -/

/-- How the program ended. -/
inductive Ending where
  /-- It did what it was asked to; the text of the counters follows the output if it is asked for.
  -/
  | finished (output : String) (counters : Option String)
  | failed (failure : Failure)
  | misused (error : UsageError)

/-- The name and the number of the program. -/
def versionLine : String := "tollgate-node 0.1.0"

/-- How the program is used. -/
def helpText : String :=
  lines ["Tollgate economics node: fee admission, inflation minting and governance", "",
    "Usage: tollgate-node [OPTIONS] <COMMAND>", "", "Commands:"] ++
  lines (commandNames.map ("  " ++ ·))

/-- The whole program. -/
def session (environment : List (String × String)) (arguments : List String) : Session Ending :=
  match parse arguments with
  | .error e => .finish (.misused e)
  | .ok .help => .finish (.finished helpText none)
  | .ok .version => .finish (.finished (lines [versionLine]) none)
  | .ok (.perform options command) =>
    let task : Task Failure Ending := do
      let settings ← loadSettings environment options command
      let success ← perform settings command
      let counters := if settings.metricsEnabled then some success.counters.render else none
      return .finished success.output counters
    task.run.andThen fun result =>
      match result with
      | .ok ending => .finish ending
      | .error failure => .finish (.failed failure)

end ChainEconomy.Cli
