import ChainEconomy.Proofs.Reachable

/-!
# Rejected transactions leave no trace

A block is compared with the same block without the transactions that were rejected in it. Both runs
meet the same ledger in front of every admitted transaction, since a rejected one, however far it
got, hands on the ledger that it was given. The positions that the tally lists are those of the
first run; the second run has no gaps, so that its positions are counted from anywhere.

## Key results

- `processFrom_cons_eq_ok`: a transaction is admitted or rejected
- `processFrom_keptFrom`: the transactions that are kept do the same without the others
- `processBlock_kept`: so does the block
-/

namespace ChainEconomy.Chain

/-- Whether a position is not listed as rejected. -/
def isKept (rejected : List (Nat × Rejection)) (position : Nat) : Bool :=
  rejected.all fun r => r.1 != position

/-- The transactions whose positions are not listed, where the first one has the given position. -/
def keptFrom (index : Nat) (rejected : List (Nat × Rejection)) (txs : List Transaction) :
    List Transaction :=
  ((txs.zipIdx index).filter fun e => isKept rejected e.2).map Prod.fst

/-- The transactions of a block that have not been rejected. -/
def Tally.kept (t : Tally) (txs : List Transaction) : List Transaction := keptFrom 0 t.rejected txs

/-! ## One transaction -/

/-- The first of several transactions is admitted and changes the ledger, or it is rejected and does
not. -/
theorem processFrom_cons_eq_ok {schedule : Fee.Schedule} {store : Store} {index : Nat}
    {tx : Transaction} {rest : List Transaction} {l l' : Ledger} {tally : Tally}
    (h : (processFrom schedule store index (tx :: rest)).run l = (.ok tally, l')) :
    (∃ a after t, execute schedule store tx l = .ok (a, after) ∧
      (processFrom schedule store (index + 1) rest).run after = (.ok t, l') ∧
      tally = t.addAdmitted a) ∨
    ∃ reason t, (processFrom schedule store (index + 1) rest).run l = (.ok t, l') ∧
      tally = t.addRejected index reason := by
  -- The loop looks at the ledger, and then at what has become of the transaction.
  obtain ⟨_, _, hget, h⟩ := Attempt.run_bind_eq_ok.1 h
  cases hget
  split at h
  · next a after hexecute =>
    obtain ⟨_, _, hset, h⟩ := Attempt.run_bind_eq_ok.1 h
    cases hset
    obtain ⟨t, _, hrest, h⟩ := Attempt.run_bind_eq_ok.1 h
    obtain ⟨rfl, rfl⟩ := Attempt.run_pure_eq_ok.1 h
    exact .inl ⟨a, after, t, hexecute, hrest, rfl⟩
  · -- A fault of the store would have ended the block.
    cases h
  · next reason _ _ =>
    obtain ⟨t, _, hrest, h⟩ := Attempt.run_bind_eq_ok.1 h
    obtain ⟨rfl, rfl⟩ := Attempt.run_pure_eq_ok.1 h
    exact .inr ⟨reason, t, hrest, rfl⟩

/-- A transaction that is admitted goes in front of what becomes of the others. -/
theorem processFrom_cons_of_admitted {schedule : Fee.Schedule} {store : Store} {index : Nat}
    {tx : Transaction} {rest : List Transaction} {l after l' : Ledger} {a : Fee.Assessment}
    {t : Tally} (hexecute : execute schedule store tx l = .ok (a, after))
    (hrest : (processFrom schedule store (index + 1) rest).run after = (.ok t, l')) :
    (processFrom schedule store index (tx :: rest)).run l = (.ok (t.addAdmitted a), l') := by
  refine Attempt.run_bind_eq_ok.2 ⟨l, l, rfl, ?_⟩
  rw [hexecute]
  refine Attempt.run_bind_eq_ok.2 ⟨(), after, rfl, ?_⟩
  exact Attempt.run_bind_eq_ok.2 ⟨t, l', hrest, rfl⟩

/-! ## Positions -/

/-- A rejected transaction is listed with its position, which is that of one of the transactions. -/
theorem position_of_mem_rejected {schedule : Fee.Schedule} {store : Store} {index : Nat}
    {txs : List Transaction} {l l' : Ledger} {tally : Tally}
    (h : (processFrom schedule store index txs).run l = (.ok tally, l')) {r : Nat × Rejection}
    (hr : r ∈ tally.rejected) : index ≤ r.1 ∧ r.1 < index + txs.length := by
  -- By induction on the transactions: the others are counted from the next position on.
  induction txs generalizing index l tally with
  | nil => cases h; cases hr
  | cons tx rest ih =>
    rw [List.length_cons]
    obtain ⟨a, after, t, -, hrest, rfl⟩ | ⟨reason, t, hrest, rfl⟩ := processFrom_cons_eq_ok h
    · have := ih hrest hr
      omega
    · cases hr with
      | head =>
        dsimp only
        omega
      | tail _ hr =>
        have := ih hrest hr
        omega

/-- No listed position comes before the first transaction. -/
theorem le_of_mem_rejected {schedule : Fee.Schedule} {store : Store} {index : Nat}
    {txs : List Transaction} {l l' : Ledger} {tally : Tally}
    (h : (processFrom schedule store index txs).run l = (.ok tally, l')) {r : Nat × Rejection}
    (hr : r ∈ tally.rejected) : index ≤ r.1 :=
  (position_of_mem_rejected h hr).1

/-- A transaction is kept if all listed positions come after it. -/
theorem keptFrom_cons_of_lt {index : Nat} {rejected : List (Nat × Rejection)}
    (h : ∀ r ∈ rejected, index < r.1) (tx : Transaction) (rest : List Transaction) :
    keptFrom index rejected (tx :: rest) = tx :: keptFrom (index + 1) rejected rest := by
  have hkept : isKept rejected index = true := by
    rw [isKept, List.all_eq_true]
    intro r hr
    have := h r hr
    rw [bne_iff_ne]
    omega
  simp only [keptFrom, List.zipIdx_cons, List.filter_cons, hkept, if_true, List.map_cons]

/-- A transaction whose position is listed is dropped, and its position names no other one. -/
theorem keptFrom_cons_of_listed (index : Nat) (reason : Rejection)
    (rejected : List (Nat × Rejection)) (tx : Transaction) (rest : List Transaction) :
    keptFrom index ((index, reason) :: rejected) (tx :: rest) =
      keptFrom (index + 1) rejected rest := by
  have hdropped : isKept ((index, reason) :: rejected) index = false := by simp [isKept]
  simp only [keptFrom, List.zipIdx_cons, List.filter_cons, hdropped, Bool.false_eq_true, if_false]
  -- Positions of the others are higher, so that the listed one is none of theirs.
  refine congrArg (List.map Prod.fst) (List.filter_congr fun e he => ?_)
  have hlater : index + 1 ≤ e.2 := List.le_snd_of_mem_zipIdx he
  have hother : (index != e.2) = true := by
    rw [bne_iff_ne]
    omega
  rw [isKept, List.all_cons, hother, Bool.true_and, isKept]

/-! ## All transactions -/

/-- What several transactions do is done by those of them that are not rejected. -/
theorem processFrom_keptFrom {schedule : Fee.Schedule} {store : Store} {index : Nat}
    {txs : List Transaction} {l l' : Ledger} {tally : Tally}
    (h : (processFrom schedule store index txs).run l = (.ok tally, l')) (start : Nat) :
    (processFrom schedule store start (keptFrom index tally.rejected txs)).run l =
      (.ok { tally with rejected := [] }, l') := by
  -- By induction on the transactions, with both counts free.
  induction txs generalizing index start l tally with
  | nil => cases h; rfl
  | cons tx rest ih =>
    obtain ⟨a, after, t, hexecute, hrest, rfl⟩ | ⟨reason, t, hrest, rfl⟩ :=
      processFrom_cons_eq_ok h
    · -- All listed positions come later, so that the transaction stays.
      have hlater : ∀ r ∈ (t.addAdmitted a).rejected, index < r.1 := fun r hr =>
        le_of_mem_rejected hrest hr
      rw [keptFrom_cons_of_lt hlater]
      exact processFrom_cons_of_admitted hexecute (ih hrest (start + 1))
    · -- The transaction goes, and the second run stays where it is in its count.
      have hdrop := keptFrom_cons_of_listed index reason t.rejected tx rest
      exact hdrop ▸ ih hrest start

/-- A rejected transaction leaves no trace. The transactions of a successful block that it did not
reject, run from the same chain at the same height and time, give the same block: the same minting,
count, fees and reports, and the same ledger and store. None of them is rejected. -/
theorem processBlock_kept {height : UInt64} {time : BlockTime} {txs : List Transaction}
    {c c' : Chain} {o : Outcome} (h : (processBlock height time txs).run c = (.ok o, c')) :
    (processBlock height time (o.tally.kept txs)).run c =
      (.ok { o with tally := { o.tally with rejected := [] } }, c') := by
  obtain ⟨params, mint, w, schedule, tally, hparams, hmint, hschedule, htxs, hstore, rfl⟩ :=
    processBlock_eq_ok_iff.1 h
  exact processBlock_eq_ok_iff.2 ⟨params, mint, w, schedule, _, hparams, hmint, hschedule,
    processFrom_keptFrom htxs 0, hstore, rfl⟩

/-- A transaction that fails after its fee and a transfer, in front of one that succeeds. -/
theorem processBlock_kept_sample :
    ∃ o c', (processBlock 1 ⟨0⟩ [Sample.halfway, Sample.payment 100]).run Sample.chain =
        (.ok o, c') ∧
      o.tally.rejected.map Prod.fst = [0] ∧
      (processBlock 1 ⟨0⟩ (o.tally.kept [Sample.halfway, Sample.payment 100])).run Sample.chain =
        (.ok { o with tally := { o.tally with rejected := [] } }, c') := by
  obtain ⟨o, c', hrun, hrejected⟩ : ∃ o c',
      (processBlock 1 ⟨0⟩ [Sample.halfway, Sample.payment 100]).run Sample.chain = (.ok o, c') ∧
        o.tally.rejected.map Prod.fst = [0] := Attempt.exists_run_eq_ok (by decide +kernel)
  exact ⟨o, c', hrun, hrejected, processBlock_kept hrun⟩

end ChainEconomy.Chain
