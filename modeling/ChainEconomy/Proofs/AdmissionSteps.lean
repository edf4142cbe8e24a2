import ChainEconomy.Fee.Assessment
import ChainEconomy.Proofs.LedgerEffects

/-!
# How a transaction is admitted

The check, the pricing and the admission of a transaction, taken apart once. Everything that an
admitted transaction has passed can be read off its admission: its messages are well formed, its
price is the sum of the charges for them, the payer held that price, and only the surcharges have
moved.

## Key results

- `Transaction.check_eq_ok_iff`, `Transaction.check_message`: well-formed transactions
- `Fee.charges_cons_eq_ok`: the charges for a list of messages
- `Fee.assess_eq_ok`, `Fee.transfer_of_assess`: a successful admission
-/

namespace ChainEconomy

/-! ## Well-formed transactions -/

namespace Transaction

/-- The messages are checked one after the other, which is a check of all of them. -/
theorem checkMessages_eq_ok_iff {index : Nat} {messages : List Message} :
    checkMessages index messages = .ok () ↔ ∀ m ∈ messages, m.check = .ok () := by
  -- The position is only used to report a flaw, and so does not matter.
  induction messages generalizing index with
  | nil => simp [checkMessages]
  | cons m rest ih =>
    unfold checkMessages
    rw [List.forall_mem_cons]
    cases m.check with
    | error flaw => simp
    | ok u =>
      dsimp only
      rw [ih]
      simp

/-- What is asked of a transaction. The order of its messages does not matter to it. -/
theorem check_eq_ok_iff {tx : Transaction} :
    tx.check = .ok () ↔ tx.messages ≠ [] ∧ tx.feePayer.isZero = false ∧
      (Text.Utf8.ofString tx.memo).length ≤ maxMemoBytes ∧
      ∀ m ∈ tx.messages, m.check = .ok () := by
  -- The checks are made in this order, each of them only if those in front of it are passed.
  simp only [check]
  split
  · next hnone => simp [List.isEmpty_iff.1 hnone]
  · next hsome =>
    have hmessages : tx.messages ≠ [] := fun h => hsome (List.isEmpty_iff.2 h)
    split
    · next hzero => simp [hzero]
    · next hpayer =>
      split
      · next hlong => simp [Nat.not_le.2 hlong]
      · next hshort =>
        rw [checkMessages_eq_ok_iff]
        simp [hmessages, hpayer, Nat.not_lt.1 hshort]

/-- Every message of a well-formed transaction is well formed. -/
theorem check_message {tx : Transaction} (h : tx.check = .ok ()) {m : Message}
    (hm : m ∈ tx.messages) : m.check = .ok () :=
  (check_eq_ok_iff.1 h).2.2.2 m hm

end Transaction

namespace Fee

/-! ## Pricing -/

/-- The charges for several messages: the first one is priced for the payer as it is, the others for
the payer after it. -/
theorem charges_cons_eq_ok {schedule : Schedule} {store : Store} {names : NameRegistry} {p : Payer}
    {m : Message} {rest : List Message} {all : List Charge}
    (h : charges schedule store names p (m :: rest) = .ok all) :
    ∃ value q surcharge others, messageValue names p m = .ok (value, q) ∧
      messageSurcharge schedule store m.typeUrl value = .ok surcharge ∧
      charges schedule store names q rest = .ok others ∧ all = ⟨value, surcharge⟩ :: others := by
  -- The value is looked up first, then the exclusion of the type, then the rest of the messages.
  unfold charges at h
  split at h
  · cases h
  · next value q hvalue =>
    split at h
    · cases h
    · next surcharge hsurcharge =>
      obtain ⟨others, hothers, rfl⟩ := Except.map_eq_ok_iff.1 h
      exact ⟨value, q, surcharge, others, hvalue, hsurcharge, hothers, rfl⟩

/-- A priced transaction is well formed, and its price is made of the charges for its messages. -/
theorem compute_eq_ok {schedule : Schedule} {store : Store} {names : NameRegistry}
    {tx : Transaction} {a : Assessment} (h : compute schedule store names tx = .ok a) :
    tx.check = .ok () ∧
      ∃ all, charges schedule store names (Payer.ofRegistry names tx.feePayer) tx.messages =
        .ok all ∧ Assessment.ofCharges all = a := by
  unfold compute at h
  split at h
  · cases h
  · next hcheck => exact ⟨hcheck, Except.map_eq_ok_iff.1 h⟩

/-! ## Admission -/

/-- An admitted transaction has been priced, its payer held the price, and the surcharges have been
moved, if there are any. -/
theorem assess_eq_ok {β : Type} [Bank β] {schedule : Schedule} {store : Store}
    {names : NameRegistry} {bank after : β} {tx : Transaction} {a : Assessment}
    (h : assess schedule store names bank tx = .ok ⟨a, after⟩) :
    compute schedule store names tx = .ok a ∧
      Bank.hasAtLeast bank tx.feePayer a.total = true ∧
      (if a.systemFees.isEmpty then bank = after
      else Bank.sendToModule bank tx.feePayer collector a.systemFees = .ok after) := by
  -- Each refusal on the way is none of an admitted transaction.
  unfold assess at h
  split at h
  · cases h
  · next priced hprice =>
    split at h
    · cases h
    · next hfunds =>
      rw [Bool.not_eq_true, Bool.not_eq_false'] at hfunds
      split at h
      · next hfree =>
        -- There is nothing to collect.
        cases h
        exact ⟨hprice, hfunds, by rw [if_pos hfree]⟩
      · next hfees =>
        split at h
        · cases h
        · next moved hmoved =>
          cases h
          exact ⟨hprice, hfunds, by rw [if_neg hfees]; exact hmoved⟩

/-- On a ledger, admission is a transfer of the surcharges, even if there are none. -/
theorem transfer_of_assess {schedule : Schedule} {store : Store} {names : NameRegistry}
    {l after : Ledger} {tx : Transaction} {a : Assessment}
    (h : assess schedule store names l tx = .ok ⟨a, after⟩) :
    l.transfer tx.feePayer (Address.ofModule collector) a.systemFees = .ok after := by
  obtain ⟨-, -, hfees⟩ := assess_eq_ok h
  split at hfees
  · next hnone =>
    rw [CoinSet.isEmpty_iff.1 hnone, ← hfees]
    exact l.transfer_empty _ _
  · exact hfees

end Fee

end ChainEconomy
