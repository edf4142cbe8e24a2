import ChainEconomy.Chain.Block

/-! # Counters

Totals over the blocks of a run, in the text format of a metrics server: a paragraph for each
counter, in alphabetical order. A counter that was never touched is not shown. -/

namespace ChainEconomy.Chain

/-- Totals over blocks. A total wraps around at 64 bits; what one block adds stops at the largest
word. -/
structure Counters where
  blocks : Nat
  admitted : UInt64
  rejected : UInt64
  fees : UInt64
  minted : UInt64
  deriving DecidableEq, Repr

namespace Counters

/-- No blocks. -/
def zero : Counters := ⟨0, 0, 0, 0, 0⟩

/-- The totals with one more block, of whose fees only one denomination counts. -/
def add (baseDenom : String) (c : Counters) (o : Outcome) : Counters where
  blocks := c.blocks + 1
  admitted := c.admitted + saturate o.tally.admitted
  rejected := c.rejected + saturate o.tally.rejected.length
  fees := c.fees + saturate (o.tally.fees.amountOf baseDenom)
  minted := c.minted + saturate o.mint.minted

/-- The totals over several blocks. -/
def ofOutcomes (baseDenom : String) (outcomes : List Outcome) : Counters :=
  outcomes.foldl (add baseDenom) zero

/-- A counter with its description. -/
def paragraph (name description : String) (value : UInt64) : String :=
  s!"# HELP {name} {description}\n# TYPE {name} counter\n{name} {value}"

/-- The paragraphs of all counters that were touched. -/
def render (c : Counters) : String :=
  let rejected :=
    if c.rejected = 0 then []
    else
      [paragraph "tollgate_txs_rejected_total" "Transactions rejected at admission or execution"
        c.rejected]
  let touched :=
    if c.blocks = 0 then []
    else
      [paragraph "tollgate_fees_collected_total"
        "System fees moved to the fee collector, in the base denomination" c.fees,
      paragraph "tollgate_minted_total" "Units minted by block inflation" c.minted,
      paragraph "tollgate_txs_admitted_total" "Transactions admitted and executed" c.admitted] ++
        rejected
  "\n\n".intercalate touched

end Counters

end ChainEconomy.Chain
