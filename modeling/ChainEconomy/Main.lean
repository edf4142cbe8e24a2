import ChainEconomy.Cli.Program

/-! # The program

Carries out what a session asks for: files are read, and state is kept as lines of hexadecimal text
in a file of its own. -/

namespace ChainEconomy.Cli

/-- The variables of the environment that hold settings. -/
def settingVariables : List String :=
  ["TOLLGATE_LOG_LEVEL", "TOLLGATE_LOG_FORMAT", "TOLLGATE_DATA_DIR", "TOLLGATE_STORAGE",
    "TOLLGATE_GENESIS_PATH", "TOLLGATE_BLOCK_INTERVAL_MS", "TOLLGATE_BLOCKS",
    "TOLLGATE_METRICS_ENABLED"]

/-- The variables that are set. -/
def readEnvironment : IO (List (String × String)) := do
  let found ← settingVariables.mapM fun name => return (name, ← IO.getEnv name)
  return found.filterMap fun (name, value) => value.map fun value => (name, value)

/-- The reason for a failed operation. -/
def reasonOf : IO.Error → String
  | .noFileOrDirectory .. => "No such file or directory (os error 2)"
  | e => toString e

/-- The result of an operation, or the reason why there is none. -/
def attempt {α : Type} (act : IO α) : IO (Except String α) := do
  try
    let a ← act
    return .ok a
  catch e => return .error (reasonOf e)

/-- The file with the state kept in a directory. -/
def stateFile (dir : String) : String := dir ++ "/entries"

/-- An entry as a line of text. -/
def entryLine (e : Bytes × Bytes) : String :=
  Text.Hex.render e.1 ++ " " ++ Text.Hex.render e.2 ++ "\n"

/-- The entry in a line of text. -/
def entryOfLine (line : String) : Option (Bytes × Bytes) := do
  let (key, value) ← Text.splitOnce? ' ' line.toList
  let key ← (Text.Hex.decode (Text.Utf8.encode key)).toOption
  let value ← (Text.Hex.decode (Text.Utf8.encode value)).toOption
  return (key, value)

/-- Whether a path can be opened. -/
def opens (path : String) : IO Bool := do
  let handle ← attempt (IO.FS.Handle.mk path .read)
  return handle.toOption.isSome

/-- Reads the entries kept in a directory. -/
def readState (dir : String) : IO (OrderedMap Bytes Bytes) := do
  IO.FS.createDirAll dir
  if ← opens (stateFile dir) then
    let text ← IO.FS.readFile (stateFile dir)
    let entries := (Text.split '\n' text.toList).filterMap fun l => entryOfLine (String.ofList l)
    return entries.foldl (fun m e => m.insert e.1 e.2) .empty
  else return .empty

/-- Carries out a session. -/
def carryOut {α : Type} : Session α → IO α
  | .finish result => return result
  | .hasPath path resume => do carryOut (resume (← opens path))
  | .isFile path resume => do
    carryOut (resume (← attempt (IO.FS.readBinFile path)).toOption.isSome)
  | .fileText path resume => do carryOut (resume (← attempt (IO.FS.readFile path)))
  | .openState dir resume => do carryOut (resume (← attempt (readState dir)))
  | .keepState dir entries resume => do
    IO.FS.writeFile (stateFile dir) (String.join (entries.entries.map entryLine))
    carryOut resume

/-- Reports how the program ended, and gives its exit code. -/
def report : Ending → IO UInt32
  | .finished output counters => do
    IO.print output
    counters.forM IO.println
    return 0
  | .failed failure => do
    IO.print failure.output
    IO.eprintln ("error: " ++ failure.message)
    return 1
  | .misused e => do
    IO.eprintln ("error: " ++ e.message)
    return 2

end ChainEconomy.Cli

/-- The entry point. -/
def main (arguments : List String) : IO UInt32 := do
  let environment ← ChainEconomy.Cli.readEnvironment
  ChainEconomy.Cli.report (← ChainEconomy.Cli.carryOut
    (ChainEconomy.Cli.session environment arguments))
