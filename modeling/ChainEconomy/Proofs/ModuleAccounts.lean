import ChainEconomy.Proofs.AdmissionCoverage
import ChainEconomy.Proofs.RejectionTraceless

/-!
# The accounts of modules

Nobody holds a key for the account of a module, so that its coins should move through the protocol
alone. A transaction takes coins from its fee payer and from the accounts that its messages name as
payers, and from no others. Only the fee payer is looked at when it is admitted: a message that
names the account of a module as its payer spends from it.

## Key results

- `Message.payers`: the accounts that a message takes coins from
- `Ledger.apply_balance_le`, `execute_balance_le`: nobody else loses coins
- `spent_by_payer`: what a module account loses, it loses to messages that name it
- `collector_spent`: a transfer out of the account that collects the surcharges
-/

namespace ChainEconomy

/-- The accounts that a message takes coins from, if it takes any. -/
def Message.payers : Message → List Address
  | .transferName _ _ _ | .deleteName _ _ => []
  | m => m.actors

namespace Balances

/-! ## Accounts that are not debited -/

/-- A transfer takes coins from its source only. -/
theorem le_balance_of_transfer {b b' : Balances} {source target x : Address} {coins : CoinSet}
    (h : b.transfer source target coins = .ok b') (hx : x ≠ source) (denom : String) :
    -- What is left of the transfer adds to the account, if it concerns it at all.
    (b.balance x).amountOf denom ≤ (b'.balance x).amountOf denom := by
  have hmoved := amountOf_of_transfer h x denom
  rw [if_neg hx] at hmoved
  omega

end Balances

namespace Ledger

variable {l l' : Ledger} {x : Address}

/-- A transfer on a ledger takes coins from its source only. -/
theorem le_balance_of_transfer {source target : Address} {coins : CoinSet}
    (h : l.transfer source target coins = .ok l') (hx : x ≠ source) (denom : String) :
    (l.balance x).amountOf denom ≤ (l'.balance x).amountOf denom := by
  obtain ⟨b, hb, rfl⟩ := transfer_eq_ok_iff.1 h
  exact Balances.le_balance_of_transfer hb hx denom

/-- A payment takes coins from its source only. -/
theorem le_balance_of_pay {source target : Address} {coins : CoinSet}
    (h : l.pay source target coins = .ok l') (hx : x ≠ source) (denom : String) :
    (l.balance x).amountOf denom ≤ (l'.balance x).amountOf denom :=
  le_balance_of_transfer (Except.mapError_eq_ok_iff.1 h) hx denom

/-- Inputs are taken from their own accounts only. -/
theorem balance_of_debitAll {inputs : List Share} (h : (debitAll inputs).run l = (.ok (), l'))
    (hx : x ∉ inputs.map Share.address) : l'.balance x = l.balance x := by
  obtain ⟨b, hb, rfl⟩ := debitAll_eq_ok_iff.1 h
  rw [balance, balance, ← hb, Balances.balance_creditAll, Message.totalFor_of_not_mem hx,
    CoinSet.add_empty]

/-- A message that succeeds takes coins from its payers only. -/
theorem apply_balance_le {m : Message} (h : (apply m).run l = (.ok (), l')) (hx : x ∉ m.payers)
    (denom : String) : (l.balance x).amountOf denom ≤ (l'.balance x).amountOf denom := by
  -- Some messages do not touch balances at all.
  have hrefl : ∀ {t : Ledger}, t.balances = l.balances →
      (l.balance x).amountOf denom ≤ (t.balance x).amountOf denom := fun {t} ht => by
    rw [balance, balance, ht]
  cases m with
  | registerName name owner =>
    obtain ⟨-, paid, hpay, rfl⟩ := registerName_eq_ok (Attempt.run_change_eq_ok.1 h)
    simpa [balance] using le_balance_of_pay hpay (List.ne_of_not_mem_cons hx) denom
  | renewName name owner =>
    have hpay := (renewName_eq_ok (Attempt.run_change_eq_ok.1 h)).2
    exact le_balance_of_pay hpay (List.ne_of_not_mem_cons hx) denom
  | buyName name buyer =>
    obtain ⟨r, price, paid, -, -, hpay, rfl⟩ := buyName_eq_ok (Attempt.run_change_eq_ok.1 h)
    simpa [balance] using le_balance_of_pay hpay (List.ne_of_not_mem_cons hx) denom
  -- Giving a name away or up costs nothing.
  | transferName name owner recipient =>
    obtain ⟨-, rfl⟩ := transferName_eq_ok (Attempt.run_change_eq_ok.1 h)
    exact hrefl (handOver_balances _ _ _ _)
  | deleteName name owner =>
    obtain ⟨-, rfl⟩ := deleteName_eq_ok (Attempt.run_change_eq_ok.1 h)
    exact hrefl (revokeCredits_balances _ _)
  | registerAddress name owner address =>
    obtain ⟨r, paid, -, hpaid, rfl⟩ := registerAddress_eq_ok (Attempt.run_change_eq_ok.1 h)
    -- The fee has been paid, or a credit was left.
    split at hpaid
    · exact le_balance_of_pay hpaid (List.ne_of_not_mem_cons hx) denom
    · cases hpaid
      exact hrefl rfl
  | send sender recipient amount =>
    exact le_balance_of_pay (Attempt.run_change_eq_ok.1 h) (List.ne_of_not_mem_cons hx) denom
  | createSellOrder seller amount =>
    exact le_balance_of_pay (Attempt.run_change_eq_ok.1 h) (List.ne_of_not_mem_cons hx) denom
  | multiSend inputs outputs =>
    -- All inputs are taken in front of the first output, and outputs only add.
    obtain ⟨taken, htaken, rfl⟩ := multiSend_eq_ok h
    rw [← balance_of_debitAll htaken hx]
    exact Balances.le_balance_creditAll taken.balances outputs x denom
  | other typeUrl =>
    cases h
    exact Nat.le_refl _

end Ledger

namespace Chain

/-! ## Transactions -/

/-- Messages one after the other take coins from their payers only. -/
theorem applyFrom_balance_le {index : Nat} {messages : List Message} {l l' : Ledger} {x : Address}
    (h : (applyFrom index messages).run l = (.ok (), l')) (hx : ∀ m ∈ messages, x ∉ m.payers)
    (denom : String) : (l.balance x).amountOf denom ≤ (l'.balance x).amountOf denom := by
  -- By induction on the messages.
  induction messages generalizing index l with
  | nil => cases h; exact Nat.le_refl _
  | cons m rest ih =>
    obtain ⟨hm, hothers⟩ := List.forall_mem_cons.1 hx
    obtain ⟨t, hfirst, hrest⟩ := applyFrom_cons_eq_ok.1 h
    exact Nat.le_trans (Ledger.apply_balance_le hfirst hm denom) (ih hrest hothers)

/-- An admitted transaction takes coins from its fee payer and from the payers of its messages
only. -/
theorem execute_balance_le {schedule : Fee.Schedule} {store : Store} {tx : Transaction}
    {a : Fee.Assessment} {l l' : Ledger} {x : Address}
    (h : execute schedule store tx l = .ok (a, l')) (hpayer : x ≠ tx.feePayer)
    (hx : ∀ m ∈ tx.messages, x ∉ m.payers) (denom : String) :
    (l.balance x).amountOf denom ≤ (l'.balance x).amountOf denom := by
  obtain ⟨bank, hassess, hrun⟩ := execute_eq_ok_iff.1 h
  have hfees := Ledger.le_balance_of_transfer (Fee.transfer_of_assess hassess) hpayer denom
  exact Nat.le_trans hfees (applyFrom_balance_le hrun hx denom)

/-! ## Modules -/

/-- The accounts of the modules that coins are kept for. -/
def moduleAccounts : List Address :=
  ["fee_collector", "mint", "treasury_pool", "rewards_pool", "name_service", "market"].map
    Address.ofModule

/-- A transaction of an ordinary payer, admitted on any ledger, leaves the account of a module with
less of a denomination only if one of its messages names this very account as its payer. -/
theorem spent_by_payer {schedule : Fee.Schedule} {store : Store} {tx : Transaction}
    {a : Fee.Assessment} {l l' : Ledger} (h : execute schedule store tx l = .ok (a, l'))
    (hpayer : tx.feePayer ∉ moduleAccounts) {x : Address} (hx : x ∈ moduleAccounts) {denom : String}
    (hless : (l'.balance x).amountOf denom < (l.balance x).amountOf denom) :
    ∃ m ∈ tx.messages, x ∈ m.payers := by
  -- Were the account named by no message, nothing of it could have been taken.
  by_contra hnone
  have hothers : ∀ m ∈ tx.messages, x ∉ m.payers := fun m hm hmem => hnone ⟨m, hm, hmem⟩
  have hne : x ≠ tx.feePayer := fun heq => hpayer (heq ▸ hx)
  exact absurd (execute_balance_le h hne hothers denom) (Nat.not_le.2 hless)

namespace Sample

/-- A transfer of two coins from the account that collects the surcharges, in a transaction that
another account pays for. -/
def theft : Transaction :=
  ⟨[.send Address.feeCollector (account 2) (coins 2)], account 1, ""⟩

/-- The account that pays is that of no module. -/
theorem theft_feePayer : theft.feePayer ∉ moduleAccounts := by decide +kernel

/-- The first block leaves one coin with the collector. -/
theorem collected :
    ((chain.after steps).ledger.balance Address.feeCollector).amountOf "utoll" = 1 := by
  decide +kernel

end Sample

/-- The account that loses a coin is the one that the transfer names. -/
theorem spent_by_payer_sample :
    ∃ a l', execute Sample.schedule (Sample.chain.after Sample.steps).store Sample.theft
        (Sample.chain.after Sample.steps).ledger = .ok (a, l') ∧
      Sample.theft.feePayer ∉ moduleAccounts ∧ Address.feeCollector ∈ moduleAccounts ∧
      (l'.balance Address.feeCollector).amountOf "utoll" <
        ((Sample.chain.after Sample.steps).ledger.balance Address.feeCollector).amountOf "utoll" ∧
      ∃ m ∈ Sample.theft.messages, Address.feeCollector ∈ m.payers := by
  obtain ⟨⟨a, l'⟩, hexecute, hafter⟩ : ∃ r : Fee.Assessment × Ledger,
      execute Sample.schedule (Sample.chain.after Sample.steps).store Sample.theft
        (Sample.chain.after Sample.steps).ledger = .ok r ∧
      (r.2.balance Address.feeCollector).amountOf "utoll" = 0 :=
    Except.exists_of_toOption_map (by decide +kernel)
  have hmember : Address.feeCollector ∈ moduleAccounts := List.mem_cons_self
  have hless : (l'.balance Address.feeCollector).amountOf "utoll" <
      ((Sample.chain.after Sample.steps).ledger.balance
        Address.feeCollector).amountOf "utoll" := by
    rw [hafter, Sample.collected]
    exact Nat.one_pos
  exact ⟨a, l', hexecute, Sample.theft_feePayer, hmember, hless,
    spent_by_payer hexecute Sample.theft_feePayer hmember hless⟩

/-- On a ledger that can come about, a block mints nothing and admits a transfer of an ordinary
payer, and the account that collects the surcharges has less than before. -/
theorem collector_spent :
    Sample.genesis.Starts Sample.chain ∧ Sample.theft.feePayer ∉ moduleAccounts ∧
      ∃ o c', (processBlock 2 ⟨1⟩ [Sample.theft]).run (Sample.chain.after Sample.steps) =
          (.ok o, c') ∧
        o.mint.minted = 0 ∧ o.tally.kept [Sample.theft] = [Sample.theft] ∧
        (c'.ledger.balance Address.feeCollector).amountOf "utoll" <
          ((Sample.chain.after Sample.steps).ledger.balance
            Address.feeCollector).amountOf "utoll" := by
  -- The block is evaluated, and so are the balances in front of it and behind it.
  obtain ⟨o, c', hrun, hshown⟩ : ∃ o c',
      (processBlock 2 ⟨1⟩ [Sample.theft]).run (Sample.chain.after Sample.steps) = (.ok o, c') ∧
      (o.mint.minted, o.tally.kept [Sample.theft]) = (0, [Sample.theft]) :=
    Attempt.exists_run_eq_ok (by decide +kernel)
  obtain ⟨hminted, hkept⟩ := Prod.mk.inj hshown
  have hafter : (((processBlock 2 ⟨1⟩ [Sample.theft]).run
      (Sample.chain.after Sample.steps)).2.ledger.balance
        Address.feeCollector).amountOf "utoll" = 0 := by decide +kernel
  rw [hrun] at hafter
  refine ⟨Sample.chain_starts, Sample.theft_feePayer, o, c', hrun, hminted, hkept, ?_⟩
  rw [hafter, Sample.collected]
  exact Nat.one_pos

end Chain

end ChainEconomy
