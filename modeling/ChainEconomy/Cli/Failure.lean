import ChainEconomy.Chain.Genesis
import ChainEconomy.ConsensusFault
import ChainEconomy.Settings.Basic

/-! # Failures of a command

A failure is reported as a chain of causes, the outermost one first. The wording of an error may
hold the wording of its cause already, which is then said twice. -/

namespace ChainEconomy

/-- The chain of causes of a refusal of fee parameters. -/
def Fee.ParamsError.causes (e : Fee.ParamsError) : List String :=
  e.message ::
    match e with
    | .baseDenom error => [error.message]
    | _ => []

/-- The chain of causes of a refusal of mint parameters. -/
def Mint.ParamsError.causes (e : Mint.ParamsError) : List String :=
  e.message ::
    match e with
    | .denom error => [error.message]
    | .unrepresentable error => [error.message]
    | _ => []

/-- The chain of causes of a failure of a store. -/
def StorageError.causes (e : StorageError) : List String :=
  e.message ::
    match e with
    | .database text => [text]
    | .serialization text => [text]
    | .corrupt .. => []

/-- The chain of causes of a refusal by governance. -/
def Governance.Error.causes (e : Governance.Error) : List String :=
  e.message ::
    match e with
    | .feeParams error => error.causes
    | .mintParams error => error.causes
    | .storage error => error.causes
    | .serialization fault => [fault.message]
    | _ => []

/-- The chain of causes of a fault. -/
def ConsensusFault.causes (e : ConsensusFault) : List String :=
  e.message ::
    match e with
    | .mintFailed _ error => [error.message]
    | .distributionFailed _ _ _ error => [error.message]
    | _ => []

/-- The chain of causes of an unusable genesis. -/
def Chain.GenesisError.causes : Chain.GenesisError → List String
  | .economy error => error.causes
  | e => [e.message]

namespace Cli

/-- A command that failed: what it had printed by then, and why it failed. -/
structure Failure where
  output : String
  causes : List String
  /-- Whether the failure is reported together with a place in a text. -/
  located : Bool
  deriving DecidableEq, Repr

namespace Failure

/-- A failure before anything has been printed. -/
def ofCauses (causes : List String) : Failure := ⟨"", causes, false⟩

/-- A failure to read a file. -/
def ofReading (what reason : String) : Failure := .ofCauses ["reading " ++ what, reason]

/-- A failure to make sense of a file. -/
def ofParsing (what : String) (fault : Json.Fault) : Failure :=
  ⟨"", ["parsing " ++ what, fault.message], fault.located⟩

/-- A failure of the store. -/
def ofStorage (e : StorageError) : Failure := ⟨"", e.causes, e.located⟩

/-- A refusal by governance. -/
def ofGovernance (e : Governance.Error) : Failure := ⟨"", e.causes, e.located⟩

/-- Settings that cannot be had; without a reason, a malformed file is reported
with its place. -/
def ofSettings (e : SettingsError) : Failure :=
  let located :=
    match e with
    | .malformedFile _ none => true
    | _ => false
  ⟨"", [e.message], located⟩

/-- The wording of a failure. -/
def message (f : Failure) : String := ": ".intercalate f.causes

end Failure

end Cli

end ChainEconomy
