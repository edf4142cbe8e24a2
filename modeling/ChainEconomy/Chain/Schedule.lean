import ChainEconomy.OrderedMap
import ChainEconomy.Transaction

/-! # Schedules of transactions

Which transactions go into the block of which height. A schedule is read from a list of entries in
any order; the entries of one height keep their order. -/

namespace ChainEconomy.Chain

/-- A transaction for a height. -/
structure Entry where
  height : UInt64
  tx : Transaction
  deriving DecidableEq

/-- Transactions by height. -/
abbrev Schedule := OrderedMap UInt64 (List Transaction)

/-- Why there is no schedule. -/
inductive ScheduleError where
  | heightZero
  deriving DecidableEq, Repr

/-- The wording of a refusal. -/
def ScheduleError.message : ScheduleError → String
  | .heightZero => "transaction scheduled at height 0; heights start at 1"

namespace Schedule

/-- The transactions for a height. -/
def transactionsAt (s : Schedule) (height : UInt64) : List Transaction := (s.find? height).getD []

/-- The schedule with one more entry behind those of its height. -/
def add (s : Schedule) (e : Entry) : Schedule :=
  s.insert e.height (Schedule.transactionsAt s e.height ++ [e.tx])

/-- Adds entries; heights start at one. -/
def addAll (s : Schedule) : List Entry → Except ScheduleError Schedule
  | [] => .ok s
  | e :: rest => if e.height = 0 then .error .heightZero else addAll (add s e) rest

/-- The schedule of a list of entries. -/
def ofEntries (entries : List Entry) : Except ScheduleError Schedule := addAll .empty entries

end Schedule

/-- Reads an entry. -/
def Entry.ofJson : Json → Except Json.Fault Entry :=
  Json.record "ScheduledTx" ["height", "tx"] fun r =>
    mk <$> r.required "height" Json.toUInt64 <*> r.required "tx" Transaction.ofJson

end ChainEconomy.Chain
