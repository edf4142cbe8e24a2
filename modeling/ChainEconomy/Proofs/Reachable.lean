import ChainEconomy.Proofs.AdmissionSteps
import ChainEconomy.Proofs.BlockSteps

/-!
# Chains that can come about

A chain starts from a genesis that has been checked, and then lives through steps in any order:
blocks of any height, time and transactions, proposals that governance has passed, and changes of
the medium under its store, which may begin or cease to fail at any key. A step that is refused is a
step as well, with what it did before the refusal.

A property of ledgers holds of every chain that can come about if it holds of the first ledger and
if minting, transfers of the bank and admitted transactions keep it. What the blocks do is opened
here once, so that each property is left with these cases.

## Key results

- `Genesis.check_eq_ok`, `Genesis.ledger_keeps`: what a checked genesis and its ledger are like
- `execute_keeps`: what an admitted transaction keeps
- `after_keeps`: what every sequence of steps keeps
-/

namespace ChainEconomy.Chain

/-- Something that happens to a chain. -/
inductive Step where
  | block (height : UInt64) (time : BlockTime) (txs : List Transaction)
  | proposal (p : Governance.Proposal)
  | medium (m : Medium)

/-- The chain after a step, whatever the outcome of the step. -/
def next (c : Chain) : Step → Chain
  | .block height time txs => ((processBlock height time txs).run c).2
  | .proposal p => { c with store := (p.handle.run c.store).2 }
  | .medium m => { c with store := { c.store with medium := m } }

/-- The chain after several steps. -/
def after (c : Chain) (steps : List Step) : Chain := steps.foldl next c

/-- A chain that starts from a genesis: the genesis has been checked, the store has been written
from it, whatever stood there before, and the ledger has been built from it. -/
structure Genesis.Starts (g : Genesis) (c : Chain) : Prop where
  checked : g.check = .ok ()
  store : ∃ before, g.economy.init.run before = (.ok (), c.store)
  ledger : c.ledger = g.ledger

/-! ## A genesis that has been checked -/

/-- No item is found to be repeated if they all differ, from each other and from those seen before.
-/
theorem firstRepeated?_eq_none_iff {α : Type} [DecidableEq α] {seen items : List α} :
    firstRepeated? seen items = none ↔ items.Nodup ∧ ∀ a ∈ items, a ∉ seen := by
  -- By induction on the items. What has been looked at joins what has been seen.
  induction items generalizing seen with
  | nil => simp [firstRepeated?]
  | cons a rest ih =>
    rw [firstRepeated?]
    split
    · next hseen =>
      have hmem : a ∈ seen := List.contains_iff_mem.1 hseen
      exact ⟨(nomatch ·), fun h => absurd hmem (h.2 a List.mem_cons_self)⟩
    · next hseen =>
      have hnot : a ∉ seen := fun hmem => hseen (List.contains_iff_mem.2 hmem)
      rw [ih, List.nodup_cons, List.forall_mem_cons]
      -- The items behind the first are held against it as well.
      simp only [List.mem_cons, not_or]
      constructor
      · rintro ⟨hrest, hnew⟩
        exact ⟨⟨fun hmem => (hnew a hmem).1 rfl, hrest⟩, hnot, fun b hb => (hnew b hb).2⟩
      · rintro ⟨⟨hmem, hrest⟩, -, hnew⟩
        exact ⟨hrest, fun b hb => ⟨fun heq => hmem (heq ▸ hb), hnew b hb⟩⟩

/-- Neither accounts nor names are repeated, and a first name never costs credits. -/
theorem Genesis.check_eq_ok {g : Genesis} (h : g.check = .ok ()) :
    g.economy.check = .ok () ∧ (g.accounts.map Share.address).Nodup ∧
      (g.nameService.names.map GenesisName.name).Nodup ∧
      0 ≤ g.nameService.creditGrant.toInt := by
  -- The checks one after the other, each of them passed.
  unfold Genesis.check at h
  split at h
  · cases h
  · next heconomy =>
    split at h
    · cases h
    · next haccounts =>
      split at h
      · cases h
      · next hnames =>
        split at h
        · cases h
        · next hgrant =>
          exact ⟨heconomy, (firstRepeated?_eq_none_iff.1 haccounts).1,
            (firstRepeated?_eq_none_iff.1 hnames).1, by omega⟩

/-! ## The first ledger -/

namespace Genesis

/-- Registering a name of the genesis moves no coins. -/
theorem addName_balances (l : Ledger) (n : GenesisName) : (addName l n).balances = l.balances := by
  simp only [addName]
  split <;> rfl

/-- Registering a name of the genesis leaves the supply alone. -/
theorem addName_supply (l : Ledger) (n : GenesisName) : (addName l n).supply = l.supply := by
  simp only [addName]
  split <;> rfl

/-- A name of the genesis is registered with its owner and its price. -/
theorem addName_names (l : Ledger) (n : GenesisName) :
    (addName l n).names = l.names.insert n.name ⟨n.owner, n.price, []⟩ := by
  simp only [addName]
  split <;> rfl

/-- Registering a name of the genesis leaves the prices of the service alone. -/
theorem addName_pricing (l : Ledger) (n : GenesisName) : (addName l n).pricing = l.pricing := by
  simp only [addName]
  split <;> rfl

/-- What holds of the accounts, and is kept by every name that is registered, holds of the first
ledger. -/
theorem ledger_keeps {P : Ledger → Prop} (hP : ∀ l n, P l → P (addName l n)) (g : Genesis)
    (haccounts : P { Ledger.empty g.nameService.pricing with
      balances := Balances.empty.creditAll g.accounts
      supply := Message.total g.accounts }) : P g.ledger :=
  List.foldlRecOn (motive := P) g.nameService.names addName haccounts fun l hl n _ => hP l n hl

end Genesis

/-! ## Properties of all ledgers -/

/-- The property survives what an admitted transaction does: the collection of its surcharges, and
well-formed messages that succeed. -/
structure TransactionKeeps (P : Ledger → Prop) : Prop where
  transfer : ∀ {l l' : Ledger} {source target : Address} {coins : CoinSet},
    l.transfer source target coins = .ok l' → P l → P l'
  message : ∀ {m : Message} {l l' : Ledger}, m.check = .ok () →
    (Ledger.apply m).run l = (.ok (), l') → P l → P l'

/-- The property survives everything that a ledger is asked for. -/
structure LedgerKeeps (P : Ledger → Prop) : Prop extends TransactionKeeps P where
  mint : ∀ {l : Ledger} (target : Address) (coins : CoinSet), P l →
    P { l with balances := l.balances.credit target coins, supply := l.supply.add coins }

/-- Messages one after the other keep what each of them keeps. -/
theorem applyFrom_keeps {P : Ledger → Prop} (hP : TransactionKeeps P) {index : Nat}
    {messages : List Message} (hcheck : ∀ m ∈ messages, m.check = .ok ()) {l l' : Ledger}
    (h : (applyFrom index messages).run l = (.ok (), l')) (hl : P l) : P l' := by
  -- By induction on the messages.
  induction messages generalizing index l with
  | nil => cases h; exact hl
  | cons m rest ih =>
    obtain ⟨t, hm, hrest⟩ := applyFrom_cons_eq_ok.1 h
    exact ih (fun m hm => hcheck m (List.mem_cons_of_mem _ hm)) hrest
      (hP.message (hcheck m List.mem_cons_self) hm hl)

/-- An admitted transaction moves its surcharges and carries out well-formed messages. -/
theorem execute_keeps {P : Ledger → Prop} (hP : TransactionKeeps P) {schedule : Fee.Schedule}
    {store : Store} {tx : Transaction} {l l' : Ledger} {a : Fee.Assessment}
    (h : execute schedule store tx l = .ok (a, l')) (hl : P l) : P l' := by
  obtain ⟨bank, hassess, hrun⟩ := execute_eq_ok_iff.1 h
  obtain ⟨hprice, -, -⟩ := Fee.assess_eq_ok hassess
  have hcheck : ∀ m ∈ tx.messages, m.check = .ok () := fun m hm =>
    Transaction.check_message (Fee.compute_eq_ok hprice).1 hm
  have hbank : P bank := hP.transfer (Fee.transfer_of_assess hassess) hl
  exact applyFrom_keeps hP hcheck hrun hbank

/-- No step takes a kept property from the ledger. -/
theorem next_keeps {P : Ledger → Prop} (hP : LedgerKeeps P) (c : Chain) (step : Step)
    (hc : P c.ledger) : P (c.next step).ledger := by
  cases step with
  | block height time txs =>
    exact processBlock_keeps ⟨hP.transfer, hP.mint⟩
      (fun h => execute_keeps hP.toTransactionKeeps h) height time txs c hc
  | proposal p => exact hc
  | medium m => exact hc

/-- No sequence of steps takes a kept property from the ledger. -/
theorem after_keeps {P : Ledger → Prop} (hP : LedgerKeeps P) (c : Chain) (steps : List Step)
    (hc : P c.ledger) : P (c.after steps).ledger := by
  -- By induction on the steps.
  induction steps generalizing c with
  | nil => exact hc
  | cons step rest ih => exact ih (c.next step) (next_keeps hP c step hc)

/-! ## A chain to look at -/

namespace Sample

/-- The account whose address repeats one byte. -/
def account (byte : UInt8) : Address := ⟨List.replicate 32 byte, List.length_replicate⟩

/-- An amount of the base denomination. -/
def coins (amount : Nat) : CoinSet := CoinSet.empty.put "utoll" amount

/-- One funded account, a surcharge of one percent, and new supply of a tenth for each second. -/
def genesis : Genesis where
  time := BlockTime.genesis
  economy := {
    feeParams := ⟨⟨false, 1, 2, by decide, by decide⟩, coins 1, coins 10, "utoll"⟩
    excludedTypes := []
    mintParams := ⟨"utoll", ⟨false, 1, 1, by decide, by decide⟩, 604800⟩
    minter := Mint.State.genesis }
  accounts := [⟨account 1, coins 1000⟩]
  nameService := NameService.free

/-- The chain that starts from the genesis, on a store that has been empty. -/
def chain : Chain := ⟨(genesis.economy.init.run (Store.empty .sound)).2, genesis.ledger⟩

/-- The sample chain is started by its genesis. -/
theorem chain_starts : genesis.Starts chain where
  checked := Except.eq_ok_of_isOk (by decide +kernel)
  store := ⟨.empty .sound, Prod.ext (Except.eq_ok_of_isOk (by decide +kernel)) rfl⟩
  ledger := rfl

/-- A transfer of the given amount from the funded account. -/
def payment (amount : Nat) : Transaction :=
  ⟨[.send (account 1) (account 2) (coins amount)], account 1, ""⟩

/-- A transfer that succeeds in front of a message that does not. -/
def halfway : Transaction :=
  ⟨[.send (account 1) (account 2) (coins 100), .deleteName "nobody" (account 1)], account 1, ""⟩

/-- A first block, with a payment that is made and one that is not covered. -/
def steps : List Step := [.block 1 ⟨0⟩ [payment 100, payment 1000]]

end Sample

end ChainEconomy.Chain
