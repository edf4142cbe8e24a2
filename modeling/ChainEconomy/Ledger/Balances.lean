import ChainEconomy.Bank
import ChainEconomy.Message.Basic

/-! # Balances

The coins of every account. An account without coins has no entry, so that two tables with the same
balances are equal. `balance` is the view; `balance_put` says what changing one balance does to it,
and `ext_balance` that the balances determine the table. -/

namespace ChainEconomy

/-- Coins by account, none of them empty. -/
structure Balances where
  sets : OrderedMap Address CoinSet
  funded : ∀ e ∈ sets.entries, e.2.isEmpty = false

namespace Balances

instance : DecidableEq Balances := fun a b =>
  decidable_of_iff (a.sets = b.sets) (by cases a; cases b; simp)

/-- The table without accounts. -/
def empty : Balances := ⟨.empty, by simp [OrderedMap.empty]⟩

instance : Inhabited Balances := ⟨empty⟩

/-- The coins of an account. -/
def balance (b : Balances) (address : Address) : CoinSet :=
  (b.sets.find? address).getD CoinSet.empty

/-- The table with one balance changed. -/
def put (b : Balances) (address : Address) (coins : CoinSet) : Balances :=
  if h : coins.isEmpty = false then
    ⟨b.sets.insert address coins, fun e he => by
      rcases OrderedMap.mem_entries_insert he with rfl | he
      · exact h
      · exact b.funded e he⟩
  else ⟨b.sets.erase address, fun e he => b.funded e (OrderedMap.mem_entries_of_mem_erase he)⟩

/-- Adds coins to an account. -/
def credit (b : Balances) (address : Address) (coins : CoinSet) : Balances :=
  b.put address ((b.balance address).add coins)

/-- Takes coins from an account, which has to hold them. -/
def debit (b : Balances) (address : Address) (coins : CoinSet) : Except BankError Balances :=
  match (b.balance address).sub? coins with
  | .error _ => .error (.insufficientFunds address coins)
  | .ok rest => .ok (b.put address rest)

/-- Moves coins between two accounts. -/
def transfer (b : Balances) (source target : Address) (coins : CoinSet) :
    Except BankError Balances :=
  match b.debit source coins with
  | .error e => .error e
  | .ok b => .ok (b.credit target coins)

/-- Adds the coins of several shares to their accounts. -/
def creditAll (b : Balances) (shares : List Share) : Balances :=
  shares.foldl (fun b s => b.credit s.address s.coins) b

/-- All coins of all accounts. -/
def total (b : Balances) : CoinSet := CoinSet.sum b.sets.values

/-! ## Balances determine the table -/

@[simp] theorem balance_empty (address : Address) : empty.balance address = CoinSet.empty := rfl

/-- After one balance is changed, it is the new one, and all others are as before. -/
theorem balance_put (b : Balances) (address x : Address) (coins : CoinSet) :
    (b.put address coins).balance x = if x = address then coins else b.balance x := by
  unfold put balance
  split
  · next h =>
    rw [OrderedMap.find?_insert]
    split <;> rfl
  · next h =>
    rw [OrderedMap.find?_erase]
    split
    · have : coins = CoinSet.empty := CoinSet.isEmpty_iff.1 (by simpa using h)
      simp [this]
    · rfl

/-- An account stands in the table exactly if it holds something. -/
theorem find?_eq_ite (b : Balances) (address : Address) :
    b.sets.find? address =
      if (b.balance address).isEmpty then none else some (b.balance address) := by
  unfold balance
  cases hf : b.sets.find? address with
  | none => rfl
  | some coins =>
    have := b.funded _ (OrderedMap.find?_eq_some_iff.1 hf)
    simp_all

/-- Two tables with the same balances are equal. -/
theorem ext_balance {a b : Balances} (h : ∀ address, a.balance address = b.balance address) :
    a = b := by
  have : a.sets = b.sets :=
    OrderedMap.ext_find? fun address => by rw [find?_eq_ite, find?_eq_ite, h]
  cases a; cases b; cases this; rfl

end Balances

end ChainEconomy
