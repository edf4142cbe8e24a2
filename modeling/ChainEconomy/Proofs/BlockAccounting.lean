import ChainEconomy.Proofs.CoinSetText
import ChainEconomy.Proofs.RejectionTraceless

/-!
# What a block says about itself

The tally of a block keeps three accounts at once: a count, a sum of surcharges and a log of
reports, next to the list of what was rejected. Each of them is one function of the same list, that
of the assessments at which the admitted transactions were carried out, one after the other. The
reports carry amounts as text, and the text is read as the amounts.

## Key results

- `Executed`: transactions that are carried out in order, with their assessments
- `exists_executed`: what the tally makes of the assessments
- `rejected_ascending`, `lt_of_mem_rejected`, `admitted_add_rejected`: what it lists
- `processBlock_accounting`: the accounts of a block
-/

namespace ChainEconomy

/-! ## Reading a report -/

/-- The coins under a name of an event, read from their text. -/
def Event.coins? (e : Event) (key : String) : Option CoinSet :=
  (e.attribute? key).bind fun text => (CoinSet.parse text.toList).toOption

/-- The text of a set is read as the set. -/
theorem Event.coins?_of_attribute {e : Event} {key : String} {s : CoinSet}
    (h : e.attribute? key = some s.render) : e.coins? key = some s := by
  rw [coins?, h, Option.bind_some, CoinSet.parse_toList_render]
  rfl

namespace Fee.Assessment

/-- The surcharges are read from the report of an assessment. -/
theorem systemFee_of_event (a : Assessment) : a.event.coins? "system_fee" = some a.systemFees :=
  Event.coins?_of_attribute rfl

/-- The total is read from the report of an assessment. -/
theorem totalFee_of_event (a : Assessment) : a.event.coins? "total_fee" = some a.total :=
  Event.coins?_of_attribute rfl

/-- What the payer has to hold includes the surcharges. -/
theorem total_covers (a : Assessment) : a.total.covers a.systemFees = true := by
  refine CoinSet.covers_iff.2 fun denom => ?_
  rw [total, CoinSet.amountOf_add]
  exact Nat.le_add_left _ _

end Fee.Assessment

namespace Chain

/-! ## The admitted transactions -/

/-- Transactions that are admitted and carried out, one after the other, at the given assessments.
-/
inductive Executed (schedule : Fee.Schedule) (store : Store) :
    Ledger → List Transaction → List Fee.Assessment → Ledger → Prop
  | nil (l : Ledger) : Executed schedule store l [] [] l
  | cons {tx : Transaction} {rest : List Transaction} {a : Fee.Assessment}
    {others : List Fee.Assessment} {l t l' : Ledger}
    (hfirst : execute schedule store tx l = .ok (a, t))
    (hrest : Executed schedule store t rest others l') :
    Executed schedule store l (tx :: rest) (a :: others) l'

section

variable {schedule : Fee.Schedule} {store : Store} {index : Nat} {txs : List Transaction}
  {l l' : Ledger} {tally : Tally}

/-- The transactions that are not rejected have been carried out in order, and the tally counts,
sums up and reports their assessments. -/
theorem exists_executed
    (h : (processFrom schedule store index txs).run l = (.ok tally, l')) :
    ∃ assessments, Executed schedule store l (keptFrom index tally.rejected txs) assessments l' ∧
      tally.admitted = assessments.length ∧
      tally.fees = CoinSet.sum (assessments.map Fee.Assessment.systemFees) ∧
      tally.events = assessments.map Fee.Assessment.event := by
  -- The induction is on the transactions. The tally is built from the last one on, so that each
  -- step puts one more transaction in front of it.
  induction txs generalizing index l tally with
  | nil =>
    cases h
    exact ⟨[], .nil l', rfl, rfl, rfl⟩
  | cons tx rest ih =>
    obtain ⟨a, after, t, hexecute, hrest, rfl⟩ | ⟨reason, t, hrest, rfl⟩ :=
      processFrom_cons_eq_ok h
    · obtain ⟨others, hothers, hcount, hfees, hevents⟩ := ih hrest
      -- All listed positions come later, so that the transaction is one of those kept.
      have hkept := keptFrom_cons_of_lt (fun r hr => le_of_mem_rejected hrest hr) tx rest
      refine ⟨a :: others, hkept ▸ .cons hexecute hothers, ?_, ?_, ?_⟩
      · rw [List.length_cons, ← hcount]
        rfl
      · rw [List.map_cons, CoinSet.sum_cons, ← hfees]
        rfl
      · rw [List.map_cons, ← hevents]
        rfl
    · -- Nothing of the transaction gets into the accounts, and the ledger is the one before it.
      obtain ⟨assessments, hexecuted, haccounts⟩ := ih hrest
      have hdropped := keptFrom_cons_of_listed index reason t.rejected tx rest
      exact ⟨assessments, hdropped ▸ hexecuted, haccounts⟩

/-! ## The rejected transactions -/

/-- The rejected transactions are listed in the order of their positions. -/
theorem rejected_ascending
    (h : (processFrom schedule store index txs).run l = (.ok tally, l')) :
    (tally.rejected.map Prod.fst).Pairwise (· < ·) := by
  induction txs generalizing index l tally with
  | nil =>
    cases h
    exact List.Pairwise.nil
  | cons tx rest ih =>
    obtain ⟨a, after, t, -, hrest, rfl⟩ | ⟨reason, t, hrest, rfl⟩ := processFrom_cons_eq_ok h
    · -- An admitted transaction is not listed, and so does not disturb the order.
      have hothers := ih hrest
      exact hothers
    · -- Those behind the first transaction are counted from the next position on.
      refine List.pairwise_cons.2 ⟨fun position hposition => ?_, ih hrest⟩
      obtain ⟨r, hr, rfl⟩ := List.mem_map.1 hposition
      exact le_of_mem_rejected hrest hr

/-- No position is listed that no transaction has. -/
theorem lt_of_mem_rejected
    (h : (processFrom schedule store index txs).run l = (.ok tally, l')) {r : Nat × Rejection}
    (hr : r ∈ tally.rejected) : r.1 < index + txs.length :=
  (position_of_mem_rejected h hr).2

/-- Every transaction is either admitted or rejected. -/
theorem admitted_add_rejected
    (h : (processFrom schedule store index txs).run l = (.ok tally, l')) :
    tally.admitted + tally.rejected.length = txs.length := by
  induction txs generalizing index l tally with
  | nil =>
    cases h
    rfl
  | cons tx rest ih =>
    rw [List.length_cons]
    obtain ⟨a, after, t, -, hrest, rfl⟩ | ⟨reason, t, hrest, rfl⟩ := processFrom_cons_eq_ok h
    · have hcount := ih hrest
      simp only [Tally.addAdmitted]
      omega
    · have hcount := ih hrest
      simp only [Tally.addRejected, List.length_cons]
      omega

end

/-! ## Blocks -/

/-- The report of minting, which every block but the first one has. -/
theorem mint_events_of_beginBlock {height : UInt64} {time : BlockTime} {params : Mint.Params}
    {w w' : Mint.World Ledger} {o : Mint.Outcome}
    (h : (Mint.beginBlock height time params).run w = (.ok o, w')) :
    o.events = if height = 1 then []
      else [.ofPairs "mint" [("minted_amount", toString o.minted)]] := by
  -- Only a later block makes a report, since the first one mints nothing.
  by_cases hone : height = 1
  · subst hone
    obtain ⟨state, -, -, -, rfl⟩ := Mint.beginBlock_one_eq_ok h
    rfl
  · obtain ⟨_, _, _, _, _, -, -, -, -, -, -, rfl⟩ := Mint.beginBlock_later_eq_ok hone h
    rfl

/-- The accounts of a successful block are exact. Every transaction is admitted or rejected, and
those rejected are listed in order. Behind the report of minting, which is missing at height one,
stands one report for each admitted transaction, in their order. The surcharges that are read from
the reports add up to those collected, and each total that is read covers its surcharges. -/
theorem processBlock_accounting {height : UInt64} {time : BlockTime} {txs : List Transaction}
    {c c' : Chain} {o : Outcome} (h : (processBlock height time txs).run c = (.ok o, c')) :
    o.tally.admitted + o.tally.rejected.length = txs.length ∧
    (o.tally.rejected.map Prod.fst).Pairwise (· < ·) ∧
    (∀ r ∈ o.tally.rejected, r.1 < txs.length) ∧
    ∃ params schedule minted assessments reports, loadParams c = .ok params ∧
      Fee.Schedule.ofParams params.fee = .ok schedule ∧
      (Mint.beginBlock height time params.mint).run (world c) = (.ok o.mint, ⟨c'.store, minted⟩) ∧
      Executed schedule c'.store minted (o.tally.kept txs) assessments c'.ledger ∧
      o.events = (if height = 1 then []
        else [.ofPairs "mint" [("minted_amount", toString o.mint.minted)]]) ++ reports ∧
      reports = assessments.map Fee.Assessment.event ∧
      reports.length = o.tally.admitted ∧
      (reports.mapM (Event.coins? · "system_fee")).map CoinSet.sum = some o.tally.fees ∧
      ∀ e ∈ reports, e.kind = "fee_assessed" ∧
        ∃ total system, e.coins? "total_fee" = some total ∧ e.coins? "system_fee" = some system ∧
          total.covers system = true := by
  obtain ⟨params, mint, ⟨store, minted⟩, schedule, tally, hparams, hmint, hschedule, htxs, rfl,
    rfl⟩ := processBlock_eq_ok_iff.1 h
  obtain ⟨assessments, hexecuted, hcount, hfees, hevents⟩ := exists_executed htxs
  -- Positions count from zero here, so that the bound is the number of transactions.
  have hrange : ∀ r ∈ tally.rejected, r.1 < txs.length := fun r hr => by
    have := lt_of_mem_rejected htxs hr
    omega
  -- Each report is read as the assessment that it was written from.
  have hread : (assessments.map Fee.Assessment.event).mapM (Event.coins? · "system_fee") =
      some (assessments.map Fee.Assessment.systemFees) := by
    rw [List.mapM_map]
    simp only [Function.comp_def, Fee.Assessment.systemFee_of_event]
    exact List.mapM_pure
  refine ⟨admitted_add_rejected htxs, rejected_ascending htxs, hrange, params, schedule, minted,
    assessments, _, hparams, hschedule, hmint, hexecuted, ?_, rfl, ?_, ?_, fun e he => ?_⟩
  · rw [Outcome.events, mint_events_of_beginBlock hmint, hevents]
  · rw [List.length_map, hcount]
  · rw [hread, hfees, Option.map_some]
  · obtain ⟨a, -, rfl⟩ := List.mem_map.1 he
    exact ⟨rfl, a.total, a.systemFees, a.totalFee_of_event, a.systemFee_of_event, a.total_covers⟩

/-- A later block, with a transaction that fails in front of one that succeeds. -/
theorem processBlock_accounting_sample :
    ∃ o c', (processBlock 2 ⟨1000000⟩ [Sample.halfway, Sample.payment 100]).run Sample.chain =
        (.ok o, c') ∧
      o.tally.admitted + o.tally.rejected.length = 2 ∧
      o.tally.rejected.map Prod.fst = [0] ∧
      o.events = [.ofPairs "mint" [("minted_amount", "100")],
        .ofPairs "fee_assessed" [("total_fee", "101utoll"), ("system_fee", "1utoll")]] := by
  obtain ⟨o, c', hrun, hshown⟩ : ∃ o c',
      (processBlock 2 ⟨1000000⟩ [Sample.halfway, Sample.payment 100]).run Sample.chain =
        (.ok o, c') ∧
      (o.tally.rejected.map Prod.fst, o.events) =
        ([0], [.ofPairs "mint" [("minted_amount", "100")],
          .ofPairs "fee_assessed" [("total_fee", "101utoll"), ("system_fee", "1utoll")]]) :=
    Attempt.exists_run_eq_ok (by decide +kernel)
  obtain ⟨hrejected, hevents⟩ := Prod.mk.inj hshown
  exact ⟨o, c', hrun, (processBlock_accounting hrun).1, hrejected, hevents⟩

end Chain

end ChainEconomy
