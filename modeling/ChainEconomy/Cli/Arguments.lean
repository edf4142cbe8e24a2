import ChainEconomy.Settings.Layers
import ChainEconomy.Text.Split

/-! # Arguments of the command line

A command is named by one or two words. Options may stand before or behind each of them, once at
each of these places; a value given further behind wins. Nothing after a double dash is an option.
-/

namespace ChainEconomy.Cli

/-- The options of every command. -/
structure Options where
  config : Option String
  dataDir : Option String
  storage : Option Storage
  genesis : Option String
  logLevel : Option String
  logFormat : Option String
  metrics : Bool
  deriving DecidableEq, Repr

/-- What a command can show of the state. -/
inductive Query where
  | excluded
  | minter
  | params
  deriving DecidableEq, Repr

/-- A command. -/
inductive Command where
  | run (blocks : Option UInt64) (txs : Option String)
  | query (what : Query)
  | propose (file : String)
  | validateGenesis
  | exportGenesis
  | showConfig
  deriving DecidableEq, Repr

/-- What arguments ask for. -/
inductive Request where
  | help
  | version
  | perform (options : Options) (command : Command)
  deriving DecidableEq, Repr

/-- Why arguments are refused. -/
inductive UsageError where
  | unknownOption (argument : String)
  | missingValue (option : String)
  | superfluousValue (option : String)
  | repeatedOption (option : String)
  | badValue (option value : String)
  | unknownCommand (name : String)
  | missingCommand
  | superfluousArgument (argument : String)
  | missingArgument (name : String)
  deriving DecidableEq, Repr

/-- The wording of a refusal. -/
def UsageError.message : UsageError → String
  | .unknownOption argument => "unexpected option " ++ argument
  | .missingValue option => "option " ++ option ++ " needs a value"
  | .superfluousValue option => "option " ++ option ++ " takes no value"
  | .repeatedOption option => "option " ++ option ++ " cannot be repeated"
  | .badValue option value => "invalid value " ++ Text.quoted value ++ " for " ++ option
  | .unknownCommand name => "unknown command " ++ name
  | .missingCommand => "a command is required"
  | .superfluousArgument argument => "unexpected argument " ++ argument
  | .missingArgument name => "argument " ++ name ++ " is required"

/-! ## Options -/

/-- The name of an option. -/
inductive OptionName where
  | config
  | dataDir
  | storage
  | genesis
  | logLevel
  | logFormat
  | metrics
  | blocks
  | txs
  | help
  | version
  deriving DecidableEq, Repr

/-- The places where options can stand: before any command, or behind one. -/
inductive Place where
  | start
  | run
  | query
  | propose
  /-- Behind a command that takes nothing else. -/
  | plain
  deriving DecidableEq, Repr

namespace OptionName

/-- The long name. -/
def long : OptionName → String
  | config => "config"
  | dataDir => "data-dir"
  | storage => "storage"
  | genesis => "genesis"
  | logLevel => "log-level"
  | logFormat => "log-format"
  | metrics => "metrics"
  | blocks => "blocks"
  | txs => "txs"
  | help => "help"
  | version => "version"

/-- The letter, for options that have one. -/
def letter? : OptionName → Option Char
  | config => some 'c'
  | dataDir => some 'd'
  | genesis => some 'g'
  | help => some 'h'
  | version => some 'V'
  | _ => none

/-- Whether the option stands for itself, without a value. -/
def isFlag (o : OptionName) : Bool := o = metrics || o = help || o = version

/-- The options that are understood at a place. -/
def knownAt (place : Place) : List OptionName :=
  let common := [config, dataDir, storage, genesis, logLevel, logFormat, metrics, help]
  match place with
  | .start => version :: common
  | .run => blocks :: txs :: common
  | _ => common

/-- The values that an option can have, where there are only a few. -/
def choices? : OptionName → Option (List String)
  | storage => some [Storage.memory.name, Storage.disk.name]
  | logLevel => some ["trace", "debug", "info", "warn", "error"]
  | logFormat => some ["pretty", "json"]
  | _ => none

/-- Whether an option can have a value. -/
def accepts (o : OptionName) (value : String) : Bool :=
  match o.choices? with
  | some choices => choices.contains value
  | none => if o = blocks then (Settings.readWord value).isSome else !value.isEmpty

end OptionName

/-- Options with their values, at one place. -/
abbrev Given := List (OptionName × String)

/-- The given options with one more. -/
def record (o : OptionName) (value : String) (given : Given) : Except UsageError Given :=
  if (given.lookup o).isSome then .error (.repeatedOption o.long)
  else if !o.isFlag && !o.accepts value then .error (.badValue o.long value)
  else .ok ((o, value) :: given)

/-- Whether an argument reads as an option; a single dash does not. -/
def looksLikeOption (argument : String) : Bool :=
  argument.startsWith "-" && argument != "-"

/-- An option as it is written: with its value attached, or without one. -/
structure Written where
  name : OptionName
  value : Option String

/-- The option that an argument with two dashes stands for. -/
def longOption (place : Place) (argument : String) : Except UsageError Written :=
  let body := argument.toList.drop 2
  let (name, value) :=
    match Text.splitOnce? '=' body with
    | some (name, value) => (name, some (String.ofList value))
    | none => (body, none)
  match (OptionName.knownAt place).find? fun o => o.long = String.ofList name with
  | none => .error (.unknownOption argument)
  | some o => .ok ⟨o, value⟩

/-- The option that an argument with one dash stands for. -/
def shortOption (place : Place) (argument : String) : Except UsageError Written :=
  match argument.toList.drop 1 with
  | [] => .error (.unknownOption argument)
  | letter :: rest =>
    match (OptionName.knownAt place).find? fun o => o.letter? = some letter with
    | none => .error (.unknownOption argument)
    | some o =>
      let value :=
        match rest with
        | [] => none
        | '=' :: value => some (String.ofList value)
        | value => some (String.ofList value)
      -- The letters behind a flag would be further options, but a flag with a letter ends the
      -- session.
      .ok ⟨o, if o.isFlag then none else value⟩

/-- The option that an argument stands for. -/
def writtenOption (place : Place) (argument : String) : Except UsageError Written :=
  if argument.startsWith "--" then longOption place argument else shortOption place argument

/-- What the arguments at a place come to. -/
inductive Scan where
  | help
  | version
  /-- The options, the first argument that is none, and the arguments after it. -/
  | found (given : Given) (argument : Option String) (rest : List String)

/-- Reads options up to the first argument that is none. -/
def scanOptions (place : Place) : Given → List String → Except UsageError Scan
  | given, [] => .ok (.found given none [])
  | given, argument :: rest =>
    if argument = "--" then
      match rest with
      | [] => .ok (.found given none [])
      | next :: after =>
        -- Behind a double dash no argument names a command.
        if place = .propose then .ok (.found given (some next) ("--" :: after))
        else .error (.superfluousArgument next)
    else if !looksLikeOption argument then .ok (.found given (some argument) rest)
    else
      match writtenOption place argument with
      | .error e => .error e
      | .ok ⟨.help, none⟩ => .ok .help
      | .ok ⟨.version, none⟩ => .ok .version
      | .ok ⟨o, value⟩ =>
        match o.isFlag, value, rest with
        | true, some _, _ => .error (.superfluousValue o.long)
        | true, none, rest =>
          match record o "" given with
          | .error e => .error e
          | .ok given => scanOptions place given rest
        | false, some value, rest =>
          match record o value given with
          | .error e => .error e
          | .ok given => scanOptions place given rest
        | false, none, [] => .error (.missingValue o.long)
        | false, none, value :: rest =>
          if looksLikeOption value then .error (.missingValue o.long)
          else
            match record o value given with
            | .error e => .error e
            | .ok given => scanOptions place given rest

/-! ## Commands -/

/-- Options given at several places, those further behind first. -/
def Options.ofGiven (given : Given) : Options where
  config := given.lookup .config
  dataDir := given.lookup .dataDir
  storage := (given.lookup .storage).bind Storage.ofName?
  genesis := given.lookup .genesis
  logLevel := given.lookup .logLevel
  logFormat := given.lookup .logFormat
  metrics := (given.lookup .metrics).isSome

/-- Goes on behind a command, with the options there in front of those before. -/
def behind (place : Place) (before : Given) (arguments : List String)
    (next : Given → Given → Option String → List String → Except UsageError Request) :
    Except UsageError Request :=
  match scanOptions place [] arguments with
  | .error e => .error e
  | .ok .help => .ok .help
  | .ok .version => .ok .version
  | .ok (.found given argument rest) => next given (given ++ before) argument rest

/-- Ends with a command that takes no argument. -/
def complete (command : Given → Command) (given all : Given) (argument : Option String)
    (_ : List String) : Except UsageError Request :=
  match argument with
  | some argument => .error (.superfluousArgument argument)
  | none => .ok (.perform (.ofGiven all) (command given))

/-- The command to produce blocks. -/
def runCommand (given : Given) : Command :=
  .run ((given.lookup .blocks).bind Settings.readWord) (given.lookup .txs)

/-- Ends with the command to apply a proposal, the file of which is an argument. -/
def completePropose (given all : Given) (argument : Option String) (rest : List String) :
    Except UsageError Request :=
  match argument with
  | none => .error (.missingArgument "FILE")
  | some file =>
    if file.isEmpty then .error (.badValue "FILE" file)
    else
      match rest with
      | ["--"] => complete (fun _ => .propose file) given all none []
      | "--" :: next :: _ => .error (.superfluousArgument next)
      | rest =>
        match scanOptions .propose given rest with
        | .error e => .error e
        | .ok .help => .ok .help
        | .ok .version => .ok .version
        -- The options read before the file are among those that come back.
        | .ok (.found more argument rest) =>
          complete (fun _ => .propose file) more (more ++ all) argument rest

/-- The names of all commands. -/
def commandNames : List String :=
  ["run", "query", "propose", "validate-genesis", "export-genesis", "show-config"]

/-- The names of all queries. -/
def queryNames : List String := ["excluded", "minter", "params"]

/-- Whether help can be had on what arguments name. -/
def hasHelp : List String → Bool
  | [] => true
  | [command] => commandNames.contains command || command = "help"
  | [command, what] => command = "query" && (queryNames.contains what || what = "help")
  | _ => false

/-- Reads what stands behind the name of a query. -/
def parseQuery (_ all : Given) (argument : Option String) (rest : List String) :
    Except UsageError Request :=
  let showing (what : Query) := behind .plain all rest (complete fun _ => .query what)
  match argument with
  | none => .error .missingCommand
  | some "excluded" => showing .excluded
  | some "minter" => showing .minter
  | some "params" => showing .params
  | some "help" => if hasHelp ("query" :: rest) then .ok .help else .error .missingCommand
  | some name => .error (.unknownCommand name)

/-- Reads what stands behind the name of a command. -/
def parseCommand (_ all : Given) (argument : Option String) (rest : List String) :
    Except UsageError Request :=
  match argument with
  | none => .error .missingCommand
  | some "run" => behind .run all rest (complete runCommand)
  | some "query" => behind .query all rest parseQuery
  | some "propose" => behind .propose all rest completePropose
  | some "validate-genesis" => behind .plain all rest (complete fun _ => .validateGenesis)
  | some "export-genesis" => behind .plain all rest (complete fun _ => .exportGenesis)
  | some "show-config" => behind .plain all rest (complete fun _ => .showConfig)
  | some "help" => if hasHelp rest then .ok .help else .error .missingCommand
  | some name => .error (.unknownCommand name)

/-- What arguments ask for. -/
def parse (arguments : List String) : Except UsageError Request :=
  behind .start [] arguments parseCommand

example : (parse ["--storage", "sled", "run", "--blocks=3", "--storage=memory"]).toOption =
    some (.perform ⟨none, none, some .memory, none, none, none, false⟩ (.run (some 3) none)) := by
  decide +kernel
example : (parse ["run", "--blocks", "-1"]).toOption = none := by decide +kernel
example : (parse ["propose", "--", "-p.json"]).toOption =
    some (.perform ⟨none, none, none, none, none, none, false⟩ (.propose "-p.json")) := by
  decide +kernel

end ChainEconomy.Cli
