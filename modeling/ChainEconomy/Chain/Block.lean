import ChainEconomy.Chain.Genesis
import ChainEconomy.Fee.Assessment
import ChainEconomy.Mint.Block

/-! # Blocks

A block first mints supply for the time that has passed, and then admits and carries out its
transactions in order. A transaction that is turned down leaves no trace in the ledger; a fault ends
the block, with what was done before it. -/

namespace ChainEconomy

/-- The state of a chain. -/
structure Chain where
  store : Store
  ledger : Ledger

namespace Chain

/-- Why a transaction is turned down. -/
inductive Rejection where
  | admission (error : Fee.AdmissionError)
  | execution (index : Nat) (error : Ledger.Error)
  deriving DecidableEq

/-- The wording of a rejection. -/
def Rejection.message : Rejection → String
  | .admission error => "admission failed: " ++ error.message
  | .execution index error => s!"message {index} failed: " ++ error.message

/-! ## Transactions -/

/-- Carries out messages, the first of which has the given position. -/
def applyFrom (index : Nat) : List Message → Attempt Ledger Rejection Unit
  | [] => pure ()
  | m :: rest => do
    (Ledger.apply m).mapError fun e => .execution index e
    applyFrom (index + 1) rest

/-- Admits a transaction and carries out its messages. Prices are those before the transaction. -/
def execute (schedule : Fee.Schedule) (store : Store) (tx : Transaction) (l : Ledger) :
    Except Rejection (Fee.Assessment × Ledger) :=
  match Fee.assess schedule store l.registry l tx with
  | .error e => .error (.admission e)
  | .ok admission =>
    match (applyFrom 0 tx.messages).run admission.bank with
    -- The ledger behind the failed message is dropped, and the surcharges with it.
    | (.error e, _) => .error e
    | (.ok (), after) => .ok (admission.assessment, after)

/-- What the transactions of a block did. -/
structure Tally where
  admitted : Nat
  /-- The transactions that were turned down, by their positions. -/
  rejected : List (Nat × Rejection)
  /-- The surcharges collected. -/
  fees : CoinSet
  events : List Event
  deriving DecidableEq

namespace Tally

/-- No transactions. -/
def empty : Tally := ⟨0, [], CoinSet.empty, []⟩

/-- One more admitted transaction in front of the others. -/
def addAdmitted (a : Fee.Assessment) (t : Tally) : Tally :=
  ⟨t.admitted + 1, t.rejected, a.systemFees.add t.fees, a.event :: t.events⟩

/-- One more rejected transaction in front of the others. -/
def addRejected (index : Nat) (reason : Rejection) (t : Tally) : Tally :=
  { t with rejected := (index, reason) :: t.rejected }

end Tally

/-- Processes transactions, the first of which has the given position. -/
def processFrom (schedule : Fee.Schedule) (store : Store) (index : Nat) :
    List Transaction → Attempt Ledger ConsensusFault Tally
  | [] => pure Tally.empty
  | tx :: rest => do
    let ledger ← Attempt.get
    match execute schedule store tx ledger with
    | .ok (assessment, after) =>
      Attempt.set after
      let tally ← processFrom schedule store (index + 1) rest
      return tally.addAdmitted assessment
    -- A store that cannot be read is no fault of the transaction.
    | .error (.admission (.storage e)) => Attempt.fail (.storage e)
    | .error reason =>
      let tally ← processFrom schedule store (index + 1) rest
      return tally.addRejected index reason

/-! ## The block -/

/-- What a block did. -/
structure Outcome where
  height : UInt64
  time : BlockTime
  mint : Mint.Outcome
  tally : Tally
  deriving DecidableEq

/-- The reports of a block, those of minting first. -/
def Outcome.events (o : Outcome) : List Event := o.mint.events ++ o.tally.events

/-- What minting sees of a chain. -/
def world (c : Chain) : Mint.World Ledger := ⟨c.store, c.ledger⟩

/-- The parameters in the store, which a block cannot do without. -/
def loadParams (c : Chain) : Except ConsensusFault Governance.Params := do
  let corrupt := fun e => ConsensusFault.corruptState (.params e)
  let mint ← (Governance.loadMint c.store).mapError corrupt
  let fee ← (Governance.loadFee c.store).mapError corrupt
  return ⟨fee, mint⟩

/-- What a block does in front of its transactions: it mints, and fixes their fees. -/
def openBlock (height : UInt64) (time : BlockTime) :
    Attempt Chain ConsensusFault (Mint.Outcome × Fee.Schedule) := do
  let params ← Attempt.read loadParams
  let mint ← Attempt.within world (fun w _ => ⟨w.store, w.bank⟩)
    (Mint.beginBlock height time params.mint)
  -- Supply that has been minted stays, even if there is no schedule for the fees.
  let schedule ← Attempt.ofExcept <|
    (Fee.Schedule.ofParams params.fee).mapError fun e => .invalidParams (.fee e)
  return (mint, schedule)

/-- Processes a block. -/
def processBlock (height : UInt64) (time : BlockTime) (txs : List Transaction) :
    Attempt Chain ConsensusFault Outcome := do
  let (mint, schedule) ← openBlock height time
  let chain ← Attempt.get
  let tally ← Attempt.within Chain.ledger (fun l c => { c with ledger := l })
    (processFrom schedule chain.store 0 txs)
  return ⟨height, time, mint, tally⟩

end Chain

end ChainEconomy
