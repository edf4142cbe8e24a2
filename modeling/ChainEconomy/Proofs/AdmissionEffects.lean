import ChainEconomy.Proofs.AdmissionCoverage
import ChainEconomy.Proofs.PriceItems

/-!
# What admission does

Admission prices a transaction, looks at what the payer holds, collects the surcharges and makes a
report, in this order. Only the last two steps change anything, and neither of them can be refused:
a payer who holds the total holds the surcharges, which are a part of it. So a refusal is always
one from the first two steps, and leaves everything as it was.

For this to be said of the reports as well, admission is given a log here. The store is read once
for each message, and may change, and begin or cease to fail, between any two of them.

## Key results

- `run_assessLogged`: with a log, nothing else comes out, and what is reported is in the log
- `deniesPrice_of_computeDuring`: why a transaction may have no price
- `admits_of_run`: all that admission can end with on a ledger, and `Admits.of_error`,
  `Admits.eq_insufficientFunds_iff`, `Admits.eq_ok_iff`: when it ends with what
- `Collects`: a ledger and a log behind the collection of surcharges
- `admission_moves_surcharges`: what is refused, and what an admission changes
-/

namespace ChainEconomy.Fee

open Attempt

/-! ## Pricing on a store that changes -/

section

variable (schedule : Schedule) (storeAt : Nat → Store) (names : NameRegistry)

/-- What each of several messages costs, the first of which has the given position. The exclusion of
its type is looked up in the store as it is at its position. -/
def chargesDuring : Nat → Payer → List Message → Except AdmissionError (List Charge)
  | _, _, [] => .ok []
  | index, p, m :: rest =>
    match messageValue names p m with
    | .error e => .error e
    | .ok (value, p) =>
      match messageSurcharge schedule (storeAt index) m.typeUrl value with
      | .error e => .error e
      | .ok surcharge => (chargesDuring (index + 1) p rest).map (⟨value, surcharge⟩ :: ·)

/-- Prices a transaction while the store changes. -/
def computeDuring (tx : Transaction) : Except AdmissionError Assessment :=
  match tx.check with
  | .error flaw => .error (.malformed flaw)
  | .ok () =>
    (chargesDuring schedule storeAt names 0 (Payer.ofRegistry names tx.feePayer) tx.messages).map
      Assessment.ofCharges

end

variable {β : Type} {schedule : Schedule} {storeAt : Nat → Store} {names : NameRegistry}
  {tx : Transaction}

/-- On a store that stays as it is, messages have their usual charges. -/
theorem chargesDuring_const (store : Store) (index : Nat) (p : Payer) (messages : List Message) :
    chargesDuring schedule (fun _ => store) names index p messages =
      charges schedule store names p messages := by
  -- The store is the same at every position, so that positions do not matter.
  induction messages generalizing index p with
  | nil => rfl
  | cons m rest ih =>
    unfold chargesDuring charges
    cases messageValue names p m with
    | error e => rfl
    | ok r =>
      dsimp only
      cases messageSurcharge schedule store m.typeUrl r.1 with
      | error e => rfl
      | ok surcharge =>
        dsimp only
        rw [ih]

/-- On a store that stays as it is, a transaction has its usual price. -/
theorem computeDuring_const (store : Store) :
    computeDuring schedule (fun _ => store) names tx = compute schedule store names tx := by
  unfold computeDuring compute
  cases tx.check with
  | error flaw => rfl
  | ok _ =>
    dsimp only
    rw [chargesDuring_const]

/-! ## Transactions without a price -/

/-- Whether a refusal says that there is no price: the transaction is not well formed, buys a name
that is not for sale, or has a message whose type cannot be looked up. -/
def AdmissionError.deniesPrice : AdmissionError → Bool
  | .malformed _ | .priceLookup _ _ | .storage _ => true
  | .insufficientFunds _ | .feeTransfer _ | .coin _ => false

/-- The value of a message is missing only if a name has no price. -/
theorem deniesPrice_of_messageValue {p : Payer} {m : Message} {e : AdmissionError}
    (h : messageValue names p m = .error e) : e.deniesPrice = true := by
  -- Only the price of a name that is bought is looked up in the registry.
  cases m with
  | buyName name buyer =>
    unfold messageValue at h
    dsimp only at h
    split at h
    · cases h
      rfl
    · cases h
  | _ => cases h

/-- There is a surcharge on every value, so that it cannot be what is missing. -/
theorem deniesPrice_of_messageSurcharge {store : Store} {typeUrl : String} {value : CoinSet}
    {e : AdmissionError} (h : messageSurcharge schedule store typeUrl value = .error e) :
    e.deniesPrice = true := by
  unfold messageSurcharge at h
  split at h
  · cases h
    rfl
  · cases h
  · rw [Schedule.surcharge_eq_charged] at h
    cases h

/-- Charges are missing for lack of a value or of the answer of the store. -/
theorem deniesPrice_of_chargesDuring {index : Nat} {p : Payer} {messages : List Message}
    {e : AdmissionError} (h : chargesDuring schedule storeAt names index p messages = .error e) :
    e.deniesPrice = true := by
  induction messages generalizing index p with
  | nil => cases h
  | cons m rest ih =>
    unfold chargesDuring at h
    split at h
    · next hvalue =>
      cases h
      exact deniesPrice_of_messageValue hvalue
    · split at h
      · next hsurcharge =>
        cases h
        exact deniesPrice_of_messageSurcharge hsurcharge
      · exact ih (Except.map_eq_error_iff.1 h)

/-- A transaction has no price if it is malformed or one of its messages has none. -/
theorem deniesPrice_of_computeDuring {e : AdmissionError}
    (h : computeDuring schedule storeAt names tx = .error e) : e.deniesPrice = true := by
  unfold computeDuring at h
  split at h
  · cases h
    rfl
  · exact deniesPrice_of_chargesDuring (Except.map_eq_error_iff.1 h)

/-! ## Admission, with a log -/

/-- What admission works on: a bank, and the log that it reports to. -/
structure Logged (β : Type) where
  bank : β
  log : List Event

section

variable [Bank β]

/-- Collects surcharges, if there are any. -/
def collect (payer : Address) (fees : CoinSet) : Attempt (Logged β) AdmissionError Unit :=
  if fees.isEmpty then pure ()
  else change fun s =>
    match Bank.sendToModule s.bank payer collector fees with
    | .error e => .error (.feeTransfer e)
    | .ok bank => .ok { s with bank := bank }

/-- Adds a report to the log. -/
def report (e : Event) : Attempt (Logged β) AdmissionError Unit :=
  change fun s => .ok { s with log := s.log ++ [e] }

/-- Admits a transaction, on a bank and a log themselves: what is done before a refusal stays done.
-/
def assessLogged (schedule : Schedule) (storeAt : Nat → Store) (names : NameRegistry)
    (tx : Transaction) : Attempt (Logged β) AdmissionError Assessment := do
  let a ← ofExcept (computeDuring schedule storeAt names tx)
  let s ← get
  if !Bank.hasAtLeast s.bank tx.feePayer a.total then fail (.insufficientFunds a.total)
  else do
    collect tx.feePayer a.systemFees
    report a.event
    return a

/-- A log makes no difference to admission, and gets the report of what is admitted. -/
theorem run_assessLogged (store : Store) (s : Logged β) :
    (assessLogged schedule (fun _ => store) names tx).run s =
      match assess schedule store names s.bank tx with
      | .error e => (.error e, s)
      | .ok admission =>
        (.ok admission.assessment, ⟨admission.bank, s.log ++ [admission.assessment.event]⟩) := by
  -- Both run through the same questions in the same order; the log differs behind the last one.
  unfold assessLogged assess
  rw [computeDuring_const, run_bind, run_ofExcept]
  cases compute schedule store names tx with
  | error e => rfl
  | ok a =>
    dsimp only
    rw [run_bind, run_get]
    dsimp only
    split
    · rfl
    · rw [run_bind]
      unfold collect
      -- Without surcharges, neither of them calls the bank.
      by_cases hfree : a.systemFees.isEmpty = true
      · rw [if_pos hfree, if_pos hfree]
        rfl
      · rw [if_neg hfree, if_neg hfree, run_change]
        cases Bank.sendToModule s.bank tx.feePayer collector a.systemFees <;> rfl

end

/-! ## Admission on a ledger -/

/-- All that admission can end with on a ledger: there is no price, the payer does not hold the
total, or the surcharges have been collected and reported. -/
inductive Admits (schedule : Schedule) (storeAt : Nat → Store) (names : NameRegistry)
    (tx : Transaction) (s : Logged Ledger) :
    Except AdmissionError Assessment → Logged Ledger → Prop
  | unpriced {e : AdmissionError}
    (hprice : computeDuring schedule storeAt names tx = .error e) :
    Admits schedule storeAt names tx s (.error e) s
  | short {a : Assessment} (hprice : computeDuring schedule storeAt names tx = .ok a)
    (hfunds : (s.bank.balance tx.feePayer).covers a.total = false) :
    Admits schedule storeAt names tx s (.error (.insufficientFunds a.total)) s
  | admitted {a : Assessment} {l : Ledger}
    (hprice : computeDuring schedule storeAt names tx = .ok a)
    (hfunds : (s.bank.balance tx.feePayer).covers a.total = true)
    (hmoved : s.bank.transfer tx.feePayer (Address.ofModule collector) a.systemFees = .ok l) :
    Admits schedule storeAt names tx s (.ok a) ⟨l, s.log ++ [a.event]⟩

variable {s s' : Logged Ledger} {r : Except AdmissionError Assessment}

/-- A payer who holds the total can be charged with the surcharges. -/
theorem exists_transfer_of_covers {l : Ledger} {payer : Address} {a : Assessment}
    (hfunds : (l.balance payer).covers a.total = true) (target : Address) :
    ∃ l', l.transfer payer target a.systemFees = .ok l' := by
  -- The surcharges are a part of the total, so that the transfer never lacks coins.
  have hheld : ∀ denom,
      a.systemFees.amountOf denom ≤ (l.balances.balance payer).amountOf denom := by
    intro denom
    have htotal := CoinSet.covers_iff.1 hfunds denom
    unfold Assessment.total at htotal
    rw [CoinSet.amountOf_add] at htotal
    exact Nat.le_trans (Nat.le_add_left _ _) htotal
  obtain ⟨b, hb, -⟩ := Balances.exists_transfer_eq_ok hheld target
  exact ⟨_, Ledger.transfer_eq_ok_iff.2 ⟨b, hb, rfl⟩⟩

/-- Collecting is a transfer to the collector, also if there is nothing to collect. -/
theorem run_collect {l : Ledger} {payer : Address} {fees : CoinSet}
    (h : s.bank.transfer payer (Address.ofModule collector) fees = .ok l) :
    (collect payer fees).run s = (.ok (), { s with bank := l }) := by
  unfold collect
  split
  · next hnone =>
    -- Nothing is transferred, and no transfer is what a transfer of nothing comes to.
    rw [CoinSet.isEmpty_iff.1 hnone, Ledger.transfer_empty] at h
    cases h
    rfl
  · have hsend : Bank.sendToModule s.bank payer collector fees = .ok l := h
    apply run_change_eq_ok.2
    rw [hsend]

/-- Every run of an admission ends in one of the three ways. -/
theorem admits_of_run (h : (assessLogged schedule storeAt names tx).run s = (r, s')) :
    Admits schedule storeAt names tx s r s' := by
  unfold assessLogged at h
  rw [run_bind, run_ofExcept] at h
  -- The run is followed up to its first refusal, or to its end.
  cases hprice : computeDuring schedule storeAt names tx with
  | error e =>
    rw [hprice] at h
    cases h
    exact .unpriced hprice
  | ok a =>
    rw [hprice] at h
    dsimp only at h
    rw [run_bind, run_get] at h
    dsimp only at h
    cases hfunds : (s.bank.balance tx.feePayer).covers a.total with
    | false =>
      rw [if_pos (by simpa [Bank.hasAtLeast] using hfunds)] at h
      cases h
      exact .short hprice hfunds
    | true =>
      rw [if_neg (by simpa [Bank.hasAtLeast] using hfunds)] at h
      -- The bank cannot refuse any more, as its transfer is one of coins that are held.
      obtain ⟨l, hmoved⟩ := exists_transfer_of_covers hfunds (Address.ofModule collector)
      rw [run_bind, run_collect hmoved] at h
      cases h
      exact .admitted hprice hfunds hmoved

namespace Admits

/-- A refusal is one of the first two steps, and nothing has been done yet. -/
theorem of_error (h : Admits schedule storeAt names tx s r s') {e : AdmissionError}
    (hr : r = .error e) :
    s' = s ∧ (e.deniesPrice = true ∨ ∃ required, e = .insufficientFunds required) := by
  cases h with
  | unpriced hprice =>
    cases hr
    exact ⟨rfl, .inl (deniesPrice_of_computeDuring hprice)⟩
  | short hprice hfunds =>
    cases hr
    exact ⟨rfl, .inr ⟨_, rfl⟩⟩
  | admitted => cases hr

/-- The payer is found not to hold the total exactly if there is a total and it does not. -/
theorem eq_insufficientFunds_iff (h : Admits schedule storeAt names tx s r s')
    {required : CoinSet} :
    r = .error (.insufficientFunds required) ↔
      ∃ a, computeDuring schedule storeAt names tx = .ok a ∧
        (s.bank.balance tx.feePayer).covers a.total = false ∧ required = a.total := by
  constructor
  · rintro rfl
    -- Of the three ways, only the second one is such a refusal: a missing price is worded
    -- otherwise.
    cases h with
    | unpriced hprice => cases deniesPrice_of_computeDuring hprice
    | short hprice hfunds => exact ⟨_, hprice, hfunds, rfl⟩
  · rintro ⟨a, hprice, hfunds, rfl⟩
    cases h with
    | unpriced hnone => cases hprice.symm.trans hnone
    | short hsame _ =>
      cases hprice.symm.trans hsame
      rfl
    | admitted hsame hheld _ =>
      cases hprice.symm.trans hsame
      cases hfunds.symm.trans hheld

/-- An admission succeeds exactly if there is a price and the payer holds the total of it. -/
theorem eq_ok_iff (h : Admits schedule storeAt names tx s r s') {a : Assessment} :
    r = .ok a ↔ computeDuring schedule storeAt names tx = .ok a ∧
      (s.bank.balance tx.feePayer).covers a.total = true := by
  constructor
  · rintro rfl
    cases h with
    | admitted hprice hfunds _ => exact ⟨hprice, hfunds⟩
  · rintro ⟨hprice, hfunds⟩
    cases h with
    | unpriced hnone => cases hprice.symm.trans hnone
    | short hsame hlacks =>
      cases hprice.symm.trans hsame
      cases hfunds.symm.trans hlacks
    | admitted hsame _ _ => exact hsame.symm.trans hprice

end Admits

/-! ## What an admission changes -/

/-- Surcharges have been moved from their payer to the collector, and reported; nothing else has
changed. -/
structure Collects (payer : Address) (a : Assessment) (s s' : Logged Ledger) : Prop where
  charged : payer ≠ Address.ofModule collector →
    ∀ denom, (s'.bank.balance payer).amountOf denom + a.systemFees.amountOf denom =
      (s.bank.balance payer).amountOf denom
  collected : payer ≠ Address.ofModule collector →
    ∀ denom, (s'.bank.moduleBalance collector).amountOf denom =
      (s.bank.moduleBalance collector).amountOf denom + a.systemFees.amountOf denom
  /-- A collector that pays for itself pays to itself. -/
  unmoved : payer = Address.ofModule collector → s'.bank = s.bank
  others : ∀ x, x ≠ payer → x ≠ Address.ofModule collector →
    s'.bank.balance x = s.bank.balance x
  supply : s'.bank.supply = s.bank.supply
  names : s'.bank.names = s.bank.names
  credits : s'.bank.credits = s.bank.credits
  pricing : s'.bank.pricing = s.bank.pricing
  reported : s'.log = s.log ++ [a.event]

/-- A transfer from the payer to the collector moves the surcharges, and a report is made of it. -/
theorem collects_of_transfer {payer : Address} {a : Assessment} {l : Ledger}
    (h : s.bank.transfer payer (Address.ofModule collector) a.systemFees = .ok l) :
    Collects payer a s ⟨l, s.log ++ [a.event]⟩ := by
  obtain ⟨b, hb, rfl⟩ := Ledger.transfer_eq_ok_iff.1 h
  -- One equation for every account: what it is charged with, and what is entered for it.
  have hmoved := Balances.amountOf_of_transfer hb
  have hothers : ∀ x, (x = payer ↔ x = Address.ofModule collector) →
      b.balance x = s.bank.balances.balance x := by
    intro x hx
    apply CoinSet.ext_amountOf
    intro denom
    have hsame := hmoved x denom
    -- The account is both, and the two entries cancel, or it is neither.
    by_cases hpayer : x = payer
    · rw [if_pos hpayer, if_pos (hx.1 hpayer)] at hsame
      omega
    · rw [if_neg hpayer, if_neg fun heq => hpayer (hx.2 heq)] at hsame
      omega
  constructor
  · intro hne denom
    have hpaid := hmoved payer denom
    rw [if_pos rfl, if_neg hne] at hpaid
    exact hpaid
  · intro hne denom
    have hgot := hmoved (Address.ofModule collector) denom
    rw [if_neg hne.symm, if_pos rfl] at hgot
    exact hgot
  · intro heq
    -- Payer and collector are the same account, whose entries cancel.
    have hsame : b = s.bank.balances := Balances.ext_balance fun x =>
      hothers x (by rw [heq])
    rw [hsame]
  · intro x hpayer hcollector
    exact hothers x (iff_of_false hpayer hcollector)
  all_goals rfl

/-- Admission on a ledger, for every store, which may change and fail at any message, and any names.
A refusal leaves ledger and log as they were. It says that there is no price, or that the payer does
not hold the total, and the latter exactly if there is a price and it does not. An admission happens
exactly if there is a price and the payer holds the total; it moves the surcharges to the collector,
makes one report, and changes nothing else. All this is said of `assess`, which comes to the same on
a store that does not change. -/
theorem admission_moves_surcharges (schedule : Schedule) (storeAt : Nat → Store)
    (names : NameRegistry) (tx : Transaction) (s : Logged Ledger) :
    (∀ store, storeAt = (fun _ => store) →
      (assessLogged schedule storeAt names tx).run s =
        match assess schedule store names s.bank tx with
        | .error e => (.error e, s)
        | .ok admission => (.ok admission.assessment,
          ⟨admission.bank, s.log ++ [admission.assessment.event]⟩)) ∧
    (∀ e s', (assessLogged schedule storeAt names tx).run s = (.error e, s') →
      s' = s ∧ (e.deniesPrice = true ∨ ∃ required, e = .insufficientFunds required)) ∧
    (∀ required, (∃ s', (assessLogged schedule storeAt names tx).run s =
        (.error (.insufficientFunds required), s')) ↔
      ∃ a, computeDuring schedule storeAt names tx = .ok a ∧
        (s.bank.balance tx.feePayer).covers a.total = false ∧ required = a.total) ∧
    (∀ a, (∃ s', (assessLogged schedule storeAt names tx).run s = (.ok a, s')) ↔
      computeDuring schedule storeAt names tx = .ok a ∧
        (s.bank.balance tx.feePayer).covers a.total = true) ∧
    ∀ a s', (assessLogged schedule storeAt names tx).run s = (.ok a, s') →
      a.total = a.txFees.add a.systemFees ∧ Collects tx.feePayer a s s' := by
  -- One run, and what it can end with; each part reads its own question off the cases.
  obtain ⟨r, after, hrun⟩ : ∃ r after,
      (assessLogged schedule storeAt names tx).run s = (r, after) := ⟨_, _, rfl⟩
  have hadmits := admits_of_run hrun
  refine ⟨?_, ?_⟩
  · rintro store rfl
    rw [run_assessLogged]
    cases assess schedule store names s.bank tx <;> rfl
  simp only [hrun, Prod.mk.injEq, exists_and_left, exists_eq', and_true]
  refine ⟨?_, ?_, ?_, ?_⟩
  · rintro e s' ⟨hrefused, rfl⟩
    exact hadmits.of_error hrefused
  · intro required
    exact hadmits.eq_insufficientFunds_iff
  · intro a
    exact hadmits.eq_ok_iff
  · rintro a s' ⟨rfl, rfl⟩
    cases hadmits with
    | admitted _ _ hmoved => exact ⟨rfl, collects_of_transfer hmoved⟩

namespace Sample

open Chain.Sample

/-- The ledger of the sample, with a report in the log. -/
def logged : Logged Ledger := ⟨chain.ledger, [.ofPairs "mint" [("minted_amount", "1")]]⟩

/-- The sample store, except that no type can be looked up for the second message. -/
def unsteady (index : Nat) : Store :=
  let removed : Bytes → Option String := fun _ => some "disk removed"
  if index = 1 then { chain.store with medium := ⟨removed, fun _ => none⟩ } else chain.store

/-- Two transfers from the funded account. -/
def twice : Transaction :=
  ⟨[.send (account 1) (account 2) (coins 100), .send (account 1) (account 2) (coins 100)],
    account 1, ""⟩

end Sample

open Chain.Sample (account coins payment)

/-- An account with 1000 coins can pay for the admission of a payment of 100, but not of one of all
its coins. Where the store fails at the second of two messages, nothing is left of the first. -/
theorem admission_moves_surcharges_sample :
    (∃ s', (assessLogged Chain.Sample.schedule Sample.unsteady Sample.logged.bank.registry
        (payment 1000)).run Sample.logged = (.error (.insufficientFunds (coins 1010)), s') ∧
      s' = Sample.logged) ∧
    (∃ e s', (assessLogged Chain.Sample.schedule Sample.unsteady Sample.logged.bank.registry
        Sample.twice).run Sample.logged = (.error (.storage e), s') ∧ s' = Sample.logged) ∧
    ∃ a s', (assessLogged Chain.Sample.schedule Sample.unsteady Sample.logged.bank.registry
        (payment 100)).run Sample.logged = (.ok a, s') ∧
      (s'.bank.balance (account 1)).amountOf "utoll" + 1 = 1000 ∧
      (s'.bank.moduleBalance collector).amountOf "utoll" = 1 ∧
      s'.log = Sample.logged.log ++
        [.ofPairs "fee_assessed" [("total_fee", "101utoll"), ("system_fee", "1utoll")]] := by
  have heffects := admission_moves_surcharges Chain.Sample.schedule Sample.unsteady
    Sample.logged.bank.registry
  refine ⟨?_, ?_, ?_⟩
  · obtain ⟨s', hrun⟩ := Attempt.exists_run_eq_error (x := assessLogged Chain.Sample.schedule
      Sample.unsteady Sample.logged.bank.registry (payment 1000)) (s := Sample.logged)
      (e := .insufficientFunds (coins 1010)) (by decide +kernel)
    exact ⟨s', hrun, ((heffects (payment 1000) Sample.logged).2.1 _ _ hrun).1⟩
  · obtain ⟨s', hrun⟩ := Attempt.exists_run_eq_error (x := assessLogged Chain.Sample.schedule
      Sample.unsteady Sample.logged.bank.registry Sample.twice) (s := Sample.logged)
      (e := .storage (.corrupt (Store.exclusionKey "bank/Send") (.medium "disk removed")))
      (by decide +kernel)
    exact ⟨_, s', hrun, ((heffects Sample.twice Sample.logged).2.1 _ _ hrun).1⟩
  · obtain ⟨a, s', hrun, rfl⟩ := Attempt.exists_run_eq_ok (x := assessLogged Chain.Sample.schedule
      Sample.unsteady Sample.logged.bank.registry (payment 100)) (s := Sample.logged) (f := id)
      (b := ⟨coins 100, coins 1⟩) (by decide +kernel)
    obtain ⟨-, hcollects⟩ := (heffects (payment 100) Sample.logged).2.2.2.2 _ _ hrun
    have hne : account 1 ≠ Address.ofModule collector := by decide +kernel
    have hcharged := hcollects.charged hne "utoll"
    have hcollected := hcollects.collected hne "utoll"
    refine ⟨_, s', hrun, ?_, ?_, ?_⟩
    · exact hcharged.trans (by decide +kernel)
    · exact hcollected.trans (by decide +kernel)
    · exact hcollects.reported.trans (by decide +kernel)

end ChainEconomy.Fee
