import ChainEconomy.Proofs.PayerTracking
import ChainEconomy.Proofs.Payments
import ChainEconomy.Proofs.Reachable

/-!
# Admission covers execution

A transaction is admitted if its payer holds the total of its price, and is carried out afterwards.
When the payer is the only one who acts in it, the price covers what its messages take from the
payer, so that none of them is refused for lack of funds: every message costs the payer at most the
value that it was priced with, and what the payer holds covers the values of all messages to come.

This holds of all transactions in which pricing refills the credits of the payer only where the
ledger does so, too. Otherwise pricing may take the registration of an address for free that the
ledger asks a fee for.

## Key results

- `apply_affords`: a message costs at most its value and does not lack funds
- `applyFrom_no_shortage`: so do all messages
- `Genesis.Starts.admission_covers`: admission covers execution on all ledgers that can come about
- `Genesis.Starts.admission_may_not_cover`: it does not if pricing refills credits on its own
-/

namespace ChainEconomy

namespace Ledger

/-- Whether a refusal says that an account does not hold enough. -/
def Error.isShortage : Error → Bool
  | .bank (.insufficientFunds _ _) => true
  | _ => false

/-- The step costs the account at most a value, and is not refused for lack of funds. -/
def Affords (payer : Address) (value : CoinSet) (l : Ledger) : Except Error Ledger → Prop
  | .ok l' => ∀ denom, (l.balance payer).amountOf denom ≤
      (l'.balance payer).amountOf denom + value.amountOf denom
  | .error e => e.isShortage = false

namespace Affords

variable {payer : Address} {value : CoinSet} {l : Ledger}

/-- A payment that the value covers, by an account that holds the value. -/
theorem pay {coins : CoinSet} (target : Address)
    (hcoins : ∀ denom, coins.amountOf denom ≤ value.amountOf denom)
    (hfunds : ∀ denom, value.amountOf denom ≤ (l.balance payer).amountOf denom) :
    Affords payer value l (l.pay payer target coins) := by
  -- The payer holds the value, and so what is asked of it.
  have hheld : ∀ denom, coins.amountOf denom ≤ (l.balances.balance payer).amountOf denom :=
    fun denom => Nat.le_trans (hcoins denom) (hfunds denom)
  obtain ⟨b, htransfer, hleft⟩ := Balances.exists_transfer_eq_ok hheld target
  rw [pay_eq_ok_iff.2 ⟨b, htransfer, rfl⟩]
  intro denom
  exact Nat.le_trans (hleft denom) (Nat.add_le_add_left (hcoins denom) _)

/-- A step that moves no coins. -/
theorem of_balances {l' : Ledger} (h : l'.balances = l.balances) :
    Affords payer value l (.ok l') := by
  intro denom
  rw [balance, balance, h]
  exact Nat.le_add_right _ _

/-- A step that costs at most a value, and then one that moves no coins. -/
theorem andThen {x : Except Error Ledger} {f : Ledger → Ledger}
    (hx : Affords payer value l x) (hf : ∀ t, (f t).balances = t.balances) :
    Affords payer value l (x >>= fun t => pure (f t)) := by
  cases x with
  | error e => exact hx
  | ok t =>
    intro denom
    have h := hx denom
    rw [balance, balance] at h ⊢
    rwa [hf t]

/-- A step that only the owner of a name may make. -/
theorem ofOwner {name : String} {caller : Address} {f : NameRecord → Except Error Ledger}
    (hf : ∀ r, l.recordOwnedBy name caller = .ok r → Affords payer value l (f r)) :
    Affords payer value l (l.recordOwnedBy name caller >>= f) := by
  cases hr : l.recordOwnedBy name caller with
  | ok r => exact hf r hr
  | error e =>
    -- The name may not exist, or belong to someone else; neither is a lack of funds.
    unfold recordOwnedBy at hr
    split at hr
    · cases hr; rfl
    · split at hr
      · cases hr
      · cases hr; rfl

end Affords

/-! ## One message -/

/-- What a run costs the account, and why it may be refused. -/
def AffordsRun (payer : Address) (value : CoinSet) (l : Ledger) :
    Except Error Unit × Ledger → Prop
  | (.ok (), l') => Affords payer value l (.ok l')
  | (.error e, _) => e.isShortage = false

/-- A change that is made or refused as a whole costs what it does to the ledger. -/
theorem Affords.change {payer : Address} {value : CoinSet} {l : Ledger}
    {f : Ledger → Except Error Ledger} (h : Affords payer value l (f l)) :
    AffordsRun payer value l ((Attempt.change f).run l) := by
  rw [Attempt.run_change]
  cases hf : f l with
  | error e => rw [hf] at h; exact h
  | ok l' => rw [hf] at h; exact h

/-- The inputs of one account can all be taken if it holds their sum. -/
theorem exists_debitAll_eq_ok {payer : Address} {inputs : List Share} {l : Ledger}
    (hinputs : ∀ s ∈ inputs, s.address = payer)
    (hfunds : ∀ denom, (Message.total inputs).amountOf denom ≤ (l.balance payer).amountOf denom) :
    ∃ l', (debitAll inputs).run l = (.ok (), l') := by
  have hcovers : ∀ x, (l.balances.balance x).covers (Message.totalFor x inputs) = true := by
    intro x
    rw [CoinSet.covers_iff]
    -- All inputs are of the payer, so that any other account is not asked for anything.
    by_cases hx : x ∈ inputs.map Share.address
    · obtain ⟨s, hs, rfl⟩ := List.mem_map.1 hx
      rw [hinputs s hs, Message.totalFor_of_forall hinputs]
      exact hfunds
    · rw [Message.totalFor_of_not_mem hx]
      exact fun denom => Nat.zero_le _
  obtain ⟨b, hb⟩ := Balances.exists_creditAll_eq_iff.2 hcovers
  exact ⟨_, debitAll_eq_ok_iff.2 ⟨b, hb, rfl⟩⟩

/-- Money sent from the accounts of the payer alone costs the sum of the inputs, of which some may
come back to the payer as an output. -/
theorem multiSend_affords {payer : Address} {inputs : List Share} (outputs : List Share)
    {l : Ledger} (hinputs : ∀ s ∈ inputs, s.address = payer)
    (hfunds : ∀ denom, (Message.total inputs).amountOf denom ≤ (l.balance payer).amountOf denom) :
    AffordsRun payer (Message.total inputs) l ((multiSend inputs outputs).run l) := by
  obtain ⟨taken, htaken⟩ := exists_debitAll_eq_ok hinputs hfunds
  have hleft := Pays.of_debitAll hinputs htaken
  have hrun : (multiSend inputs outputs).run l =
      (.ok (), { taken with balances := taken.balances.creditAll outputs }) :=
    Attempt.run_bind_eq_ok.2 ⟨(), taken, htaken, rfl⟩
  rw [hrun]
  intro denom
  -- Outputs are entered, never charged, so that they only raise what is left.
  have hback := Balances.le_balance_creditAll taken.balances outputs payer denom
  rw [← hleft denom]
  exact Nat.add_le_add_right hback _

/-- A message of the payer that pricing is on track for costs at most its value, and does not lack
funds if the payer holds the value. -/
theorem apply_affords {old l : Ledger} {payer : Address} {p q : Fee.Payer} {m : Message}
    {value : CoinSet} (h : Tracks old payer p l) (hactors : ∀ a ∈ m.actors, a = payer)
    (hvalue : Fee.messageValue old.registry p m = .ok (value, q))
    (hfunds : ∀ denom, value.amountOf denom ≤ (l.balance payer).amountOf denom) :
    AffordsRun payer value l ((Ledger.apply m).run l) := by
  have hexact : ∀ {coins : CoinSet}, coins = value →
      ∀ denom, coins.amountOf denom ≤ value.amountOf denom := fun heq denom =>
    Nat.le_of_eq (by rw [heq])
  -- In every case the ledger asks for the value itself, or for nothing.
  cases m with
  | registerName name owner =>
    obtain rfl : owner = payer := hactors owner List.mem_cons_self
    cases hvalue
    refine Affords.change ?_
    unfold registerName
    split
    · rfl
    · refine Affords.andThen (Affords.pay _ (hexact ?_) hfunds) fun t => by simp
      rw [h.pricing]; rfl
  | renewName name owner =>
    obtain rfl : owner = payer := hactors owner List.mem_cons_self
    cases hvalue
    refine Affords.change (Affords.ofOwner fun r _ => Affords.pay _ (hexact ?_) hfunds)
    rw [h.pricing]; rfl
  | buyName name buyer =>
    obtain rfl : buyer = payer := hactors buyer List.mem_cons_self
    refine Affords.change ?_
    unfold buyName
    cases hr : l.names.find? name with
    | none => rfl
    | some r =>
      cases hp : r.price with
      | none => simp only [hp]; rfl
      | some price =>
        -- The price in the ledger is the one that pricing found.
        have hsame : old.registry.price name = .ok price := h.prices name r price hr hp
        simp only [Fee.messageValue, hsame, Except.ok.injEq, Prod.mk.injEq] at hvalue
        simp only [hp]
        exact Affords.andThen (Affords.pay _ (hexact hvalue.1) hfunds) fun t => by simp
  | transferName name owner recipient =>
    exact Affords.change (Affords.ofOwner fun r _ => Affords.of_balances (by simp))
  | deleteName name owner =>
    exact Affords.change (Affords.ofOwner fun r _ => Affords.of_balances (by simp))
  | registerAddress name owner address =>
    obtain rfl : owner = payer := hactors owner List.mem_cons_self
    cases hvalue
    refine Affords.change (Affords.ofOwner fun r hr => ?_)
    by_cases hcredits : l.creditsOf owner ≤ 0
    · -- The ledger asks for the fee, and so pricing has charged it.
      have hcharged := h.counters.credits_nonpos (ownedNames_pos hr) hcredits
      simp only [if_pos hcredits]
      refine Affords.andThen (Affords.pay _ (hexact ?_) hfunds) fun t => rfl
      rw [if_pos hcharged, h.pricing]; rfl
    · simp only [if_neg hcredits]
      exact Affords.andThen (Affords.of_balances rfl) fun t => rfl
  | send sender recipient amount =>
    obtain rfl : sender = payer := hactors sender List.mem_cons_self
    cases hvalue
    exact Affords.change (Affords.pay _ (hexact rfl) hfunds)
  | createSellOrder seller amount =>
    obtain rfl : seller = payer := hactors seller List.mem_cons_self
    cases hvalue
    exact Affords.change (Affords.pay _ (hexact rfl) hfunds)
  | multiSend inputs outputs =>
    cases hvalue
    exact multiSend_affords outputs (fun s hs => hactors _ (List.mem_map_of_mem hs)) hfunds
  | other typeUrl => exact Affords.of_balances rfl

/-! ## All messages -/

/-- Whether pricing refills the credits of the payer only where the ledger does so, in all messages
up to the first that is refused. -/
def refillsMatch (names : Fee.NameRegistry) (payer : Address) :
    Fee.Payer → Ledger → List Message → Bool
  | _, _, [] => true
  | p, l, m :: rest =>
    match Fee.messageValue names p m, (Ledger.apply m).run l with
    | .ok (_, q), (.ok (), after) =>
      refillMatches payer p m after && refillsMatch names payer q after rest
    | _, _ => true

end Ledger

namespace Chain

/-- Whether a message has been refused for lack of funds. -/
def Rejection.isShortage : Rejection → Bool
  | .execution _ e => e.isShortage
  | .admission _ => false

/-- If the payer is the only one who acts and holds the values of all messages, none of them is
refused for lack of funds. -/
theorem applyFrom_no_shortage {old l : Ledger} {payer : Address} {p : Fee.Payer}
    {schedule : Fee.Schedule} {store : Store} {messages : List Message} {all : List Fee.Charge}
    (h : Ledger.Tracks old payer p l) (hgrant : 0 ≤ old.pricing.creditGrant)
    (hactors : ∀ m ∈ messages, ∀ a ∈ m.actors, a = payer)
    (hcheck : ∀ m ∈ messages, m.check = .ok ())
    (hcharges : Fee.charges schedule store old.registry p messages = .ok all)
    (hfunds : ∀ denom, (CoinSet.sum (all.map Fee.Charge.value)).amountOf denom ≤
      (l.balance payer).amountOf denom)
    (hrefills : Ledger.refillsMatch old.registry payer p l messages = true) {index : Nat}
    {reason : Rejection} {l' : Ledger}
    (hrun : (applyFrom index messages).run l = (.error reason, l')) :
    reason.isShortage = false := by
  -- The induction goes along the messages, with the ledger and the payer of the pricing side by
  -- side. What carries it is that pricing is on track, and that the payer holds the values to come.
  induction messages generalizing p l all index with
  | nil => cases hrun
  | cons m rest ih =>
    obtain ⟨value, q, surcharge, others, hvalue, -, hothers, rfl⟩ := Fee.charges_cons_eq_ok hcharges
    rw [List.map_cons, CoinSet.sum_cons] at hfunds
    simp only [CoinSet.amountOf_add] at hfunds
    have hcost := Ledger.apply_affords h (hactors m List.mem_cons_self) hvalue fun denom =>
      Nat.le_trans (Nat.le_add_right _ _) (hfunds denom)
    rw [applyFrom, Attempt.run_bind, Attempt.run_mapError] at hrun
    simp only [Ledger.refillsMatch, hvalue] at hrefills
    cases hm : (Ledger.apply m).run l with
    | mk r after =>
      rw [hm] at hcost hrun hrefills
      cases r with
      | error e =>
        -- The message itself has been refused.
        cases hrun
        exact hcost
      | ok u =>
        obtain ⟨hrefill, hrefills⟩ := Bool.and_eq_true_iff.1 hrefills
        have htrack := h.apply hgrant (hactors m List.mem_cons_self)
          (hcheck m List.mem_cons_self) hvalue hm hrefill
        -- The message has cost its value at most, and the rest is covered by what is left.
        have hleft : ∀ denom, (CoinSet.sum (others.map Fee.Charge.value)).amountOf denom ≤
            (after.balance payer).amountOf denom := fun denom => by
          have hbefore := hfunds denom
          have hafter := hcost denom
          omega
        exact ih htrack (fun m hm => hactors m (List.mem_cons_of_mem _ hm))
          (fun m hm => hcheck m (List.mem_cons_of_mem _ hm)) hothers hleft hrefills hrun

/-! ## Ledgers that can come about -/

/-- No way in which a ledger can change gives an account more credits than a first name does. -/
theorem creditsBounded_keeps : LedgerKeeps Ledger.CreditsBounded where
  transfer h hl := by
    obtain ⟨b, -, rfl⟩ := Ledger.transfer_eq_ok_iff.1 h
    exact ⟨hl.grant_nonneg, hl.bounded⟩
  message _ h hl := (Ledger.apply_keeps Ledger.creditsBounded_stepsKeep _).of_run h hl
  mint _ _ hl := ⟨hl.grant_nonneg, hl.bounded⟩

/-- A name of a genesis refills the credits of its owner, if the name is one to be held. -/
theorem Genesis.addName_creditsBounded {l : Ledger} (hl : l.CreditsBounded) (n : GenesisName) :
    (addName l n).CreditsBounded := by
  -- An improper name is left out, and any other one raises the credits to the grant.
  simp only [addName]
  split
  · exact ⟨hl.grant_nonneg, hl.bounded⟩
  · refine ⟨hl.grant_nonneg, fun x => ?_⟩
    rw [Ledger.creditsOf_insert]
    split
    · exact Int.le_refl _
    · exact hl.bounded x

/-- No account ever has more credits than a first name brings along. -/
theorem Genesis.Starts.creditsBounded {g : Genesis} {start : Chain} (hstart : g.Starts start)
    (steps : List Step) : (start.after steps).ledger.CreditsBounded := by
  refine after_keeps creditsBounded_keeps start steps ?_
  obtain ⟨-, -, -, hgrant⟩ := Genesis.check_eq_ok hstart.checked
  rw [hstart.ledger]
  exact Genesis.ledger_keeps (P := Ledger.CreditsBounded)
    (fun _ n hl => Genesis.addName_creditsBounded hl n) g ⟨hgrant, fun _ => hgrant⟩

/-- What is left to the payer of an admitted transaction covers the values of its messages. -/
theorem funds_of_assess {schedule : Fee.Schedule} {store : Store} {names : Fee.NameRegistry}
    {l bank : Ledger} {tx : Transaction} {a : Fee.Assessment}
    (h : Fee.assess schedule store names l tx = .ok ⟨a, bank⟩) :
    (∃ b, bank = { l with balances := b }) ∧
      ∀ denom, a.txFees.amountOf denom ≤ (bank.balance tx.feePayer).amountOf denom := by
  obtain ⟨-, hheld, -⟩ := Fee.assess_eq_ok h
  -- The payer holds the total, which is the sum of the values and of the surcharges.
  have htotal : ∀ denom, a.txFees.amountOf denom + a.systemFees.amountOf denom ≤
      (l.balance tx.feePayer).amountOf denom := fun denom => by
    rw [← CoinSet.amountOf_add]
    exact CoinSet.covers_iff.1 hheld denom
  obtain ⟨b, hmoved, rfl⟩ := Ledger.transfer_eq_ok_iff.1 (Fee.transfer_of_assess h)
  -- The surcharges cost the payer no more than they are worth, even if they come back.
  have hpay := Ledger.pay_eq_ok_iff.2 ⟨b, hmoved, rfl⟩
  have hcost : Ledger.Affords tx.feePayer a.systemFees l _ :=
    .pay (Address.ofModule Fee.collector) (fun denom => Nat.le_refl _) fun denom =>
      Nat.le_trans (Nat.le_add_left _ _) (htotal denom)
  rw [hpay] at hcost
  refine ⟨⟨b, rfl⟩, fun denom => ?_⟩
  have hleft := hcost denom
  have hbefore := htotal denom
  omega

/-! ## A name service to look at -/

namespace Sample

/-- The sample genesis with a fee on addresses, one credit for a first name, and an account that
holds what six messages without a value cost. -/
def nameGenesis : Genesis := { genesis with
  accounts := [⟨account 1, coins 6⟩]
  nameService := { NameService.free with addressFee := coins 5, creditGrant := 1 } }

/-- The chain that starts from the genesis with a name service. -/
def nameChain : Chain :=
  ⟨(nameGenesis.economy.init.run (Store.empty .sound)).2, nameGenesis.ledger⟩

/-- The chain is one that has been started, and nothing has happened to it yet. -/
theorem nameChain_starts : nameGenesis.Starts nameChain where
  checked := Except.eq_ok_of_isOk (by decide +kernel)
  store := ⟨.empty .sound, Prod.ext (Except.eq_ok_of_isOk (by decide +kernel)) rfl⟩
  ledger := rfl

/-- The schedule of the fees of the sample. -/
def schedule : Fee.Schedule :=
  ⟨genesis.economy.feeParams, Except.eq_ok_of_isOk (by decide +kernel)⟩

/-- The account gives its only name up and gets another one: credits are refilled twice. -/
def renamed : Transaction :=
  ⟨[.registerName "a" (account 1), .registerAddress "a" (account 1) (account 2),
    .deleteName "a" (account 1), .registerName "b" (account 1),
    .registerAddress "b" (account 1) (account 2)], account 1, ""⟩

/-- The account gives one of two names up and gets another one: pricing takes it for nameless in
between and refills its credits, the ledger does not. -/
def refilled : Transaction :=
  ⟨[.registerName "a" (account 1), .registerName "b" (account 1),
    .registerAddress "a" (account 1) (account 2), .deleteName "a" (account 1),
    .registerName "c" (account 1), .registerAddress "b" (account 1) (account 2)], account 1, ""⟩

end Sample

/-- The total of an admission covers the execution. On every ledger that can come about, a
transaction that is admitted and in which only its payer acts is never refused for lack of funds
afterwards, provided that pricing refills the credits of the payer only where the ledger does so. -/
theorem Genesis.Starts.admission_covers {g : Genesis} {start : Chain} (hstart : g.Starts start)
    (steps : List Step) {schedule : Fee.Schedule} {store : Store} {tx : Transaction}
    {a : Fee.Assessment} {bank : Ledger}
    (hactors : ∀ m ∈ tx.messages, ∀ x ∈ m.actors, x = tx.feePayer)
    (hassess : Fee.assess schedule store (start.after steps).ledger.registry
      (start.after steps).ledger tx = .ok ⟨a, bank⟩)
    (hrefills : Ledger.refillsMatch (start.after steps).ledger.registry tx.feePayer
      (.ofRegistry (start.after steps).ledger.registry tx.feePayer) bank tx.messages = true)
    (index : Nat) (account : Address) (coins : CoinSet) (l' : Ledger) :
    (applyFrom 0 tx.messages).run bank ≠
      (.error (.execution index (.bank (.insufficientFunds account coins))), l') := by
  intro hrun
  have hbounded := hstart.creditsBounded steps
  obtain ⟨⟨b, hbank⟩, hfunds⟩ := funds_of_assess hassess
  obtain ⟨hcheck, all, hcharges, rfl⟩ := Fee.compute_eq_ok (Fee.assess_eq_ok hassess).1
  -- The messages meet a ledger that differs from the one of the pricing in balances only.
  have htrack : Ledger.Tracks (start.after steps).ledger tx.feePayer
      (.ofRegistry (start.after steps).ledger.registry tx.feePayer) bank := by
    rw [hbank]
    exact (Ledger.Tracks.refl hbounded tx.feePayer).setBalances b
  have hshort := applyFrom_no_shortage htrack hbounded.grant_nonneg hactors
    (fun m hm => Transaction.check_message hcheck hm) hcharges hfunds hrefills hrun
  -- Only a shortage could have refused a message in this way.
  exact Bool.noConfusion hshort

/-- The transaction that refills credits twice is covered. -/
theorem Genesis.Starts.admission_covers_sample :
    (∀ m ∈ Sample.renamed.messages, ∀ x ∈ m.actors, x = Sample.renamed.feePayer) ∧
    ∃ a bank, Fee.assess Sample.schedule Sample.nameChain.store Sample.nameChain.ledger.registry
        Sample.nameChain.ledger Sample.renamed = .ok ⟨a, bank⟩ ∧
      Ledger.refillsMatch Sample.nameChain.ledger.registry Sample.renamed.feePayer
        (.ofRegistry Sample.nameChain.ledger.registry Sample.renamed.feePayer) bank
        Sample.renamed.messages = true ∧
      ∀ index account coins l', (applyFrom 0 Sample.renamed.messages).run bank ≠
        (.error (.execution index (.bank (.insufficientFunds account coins))), l') := by
  have hactors : ∀ m ∈ Sample.renamed.messages, ∀ x ∈ m.actors, x = Sample.renamed.feePayer := by
    decide +kernel
  obtain ⟨⟨a, bank⟩, hassess, hrefills⟩ : ∃ admission, Fee.assess Sample.schedule
      Sample.nameChain.store Sample.nameChain.ledger.registry Sample.nameChain.ledger
      Sample.renamed = .ok admission ∧
      Ledger.refillsMatch Sample.nameChain.ledger.registry Sample.renamed.feePayer
        (.ofRegistry Sample.nameChain.ledger.registry Sample.renamed.feePayer) admission.bank
        Sample.renamed.messages = true := Except.exists_of_toOption_map (by decide +kernel)
  exact ⟨hactors, a, bank, hassess, hrefills,
    Sample.nameChain_starts.admission_covers [] hactors hassess hrefills⟩

/-- Without the condition on refills, admission does not cover the execution: the payer is admitted
with exactly the total, and the last message then asks for a fee of 5. -/
theorem Genesis.Starts.admission_may_not_cover :
    Sample.nameGenesis.Starts Sample.nameChain ∧
    (∀ m ∈ Sample.refilled.messages, ∀ x ∈ m.actors, x = Sample.refilled.feePayer) ∧
    ∃ a bank, Fee.assess Sample.schedule Sample.nameChain.store Sample.nameChain.ledger.registry
        Sample.nameChain.ledger Sample.refilled = .ok ⟨a, bank⟩ ∧
      ∃ l', (applyFrom 0 Sample.refilled.messages).run bank =
        (.error (.execution 5 (.bank (.insufficientFunds (Sample.account 1) (Sample.coins 5)))),
          l') := by
  have hactors : ∀ m ∈ Sample.refilled.messages, ∀ x ∈ m.actors, x = Sample.refilled.feePayer := by
    decide +kernel
  obtain ⟨⟨a, bank⟩, hassess, hreason⟩ : ∃ admission, Fee.assess Sample.schedule
      Sample.nameChain.store Sample.nameChain.ledger.registry Sample.nameChain.ledger
      Sample.refilled = .ok admission ∧
      ((applyFrom 0 Sample.refilled.messages).run admission.bank).1.refusal? =
        some (.execution 5
          (.bank (.insufficientFunds (Sample.account 1) (Sample.coins 5)))) :=
    Except.exists_of_toOption_map (by decide +kernel)
  exact ⟨Sample.nameChain_starts, hactors, a, bank, hassess, Attempt.exists_run_eq_error hreason⟩

end Chain

end ChainEconomy
