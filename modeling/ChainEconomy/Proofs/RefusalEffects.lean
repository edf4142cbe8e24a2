import ChainEconomy.Proofs.ModuleAccounts
import ChainEconomy.Proofs.TransferTotals

/-!
# What a refused message leaves behind

A message reads the ledger, moves coins, and edits names and credits, one thing after the other and
all of it on the ledger itself, where a refusal takes nothing back. To make this a statement about
the order of these steps, messages are carried out here in the smallest ones there are: each of them
either looks at the ledger and may be refused, or writes to it and may not. In all messages but one,
everything that can be refused comes in front of the first write. The exception is the transfer
between many accounts, whose inputs are looked at and taken in turn.

## Key results

- `applyInPlace`, `apply_eq_inPlace`: messages in single steps, which come to the same
- `applyInPlace_refusedKeeps`: messages that leave nothing behind when they are refused
- `debitAll_eq_error_iff`: the inputs that a refused transfer has taken
- `refusal_effects`: what is left behind, for each kind of message
-/

namespace ChainEconomy.Ledger

open Attempt
open Message (totalFor)

/-! ## Single steps -/

/-- A write to the ledger, which is not refused. -/
def write (f : Ledger → Ledger) : Attempt Ledger Error Unit := change fun l => .ok (f l)

/-- Takes coins from an account: looks whether it holds them, and then writes what is left. -/
def debitInPlace (address : Address) (coins : CoinSet) : Attempt Ledger Error Unit :=
  if coins.isEmpty then pure ()
  else do
    let left ← read fun l => ((l.balance address).sub? coins).mapError fun _ =>
      Error.bank (.insufficientFunds address coins)
    write fun l => { l with balances := l.balances.put address left }

/-- Adds coins to an account. -/
def creditInPlace (address : Address) (coins : CoinSet) : Attempt Ledger Error Unit :=
  if coins.isEmpty then pure ()
  else write fun l => { l with balances := l.balances.credit address coins }

/-- Moves coins between two accounts. -/
def payInPlace (source target : Address) (coins : CoinSet) : Attempt Ledger Error Unit := do
  debitInPlace source coins
  creditInPlace target coins

/-- Puts a name into new hands, if there is such a name. -/
def reassign (name : String) (owner : Address) (l : Ledger) : Ledger :=
  match l.names.find? name with
  | none => l
  | some r => l.putName name { r with owner := owner, price := none, addresses := [] }

/-- Adds an address to a name, if there is such a name. -/
def addAddress (name : String) (address : Address) (l : Ledger) : Ledger :=
  match l.names.find? name with
  | none => l
  | some r => l.putName name { r with addresses := r.addresses ++ [address] }

/-- The owner of a name, and what it costs. -/
def offerOf (name : String) (l : Ledger) : Except Error (Address × CoinSet) :=
  match l.names.find? name with
  | none => .error (.unknownName name)
  | some r =>
    match r.price with
    | none => .error (.notForSale name)
    | some price => .ok (r.owner, price)

/-- Writes what a name in new hands brings about. -/
def handOverInPlace (name : String) (seller buyer : Address) : Attempt Ledger Error Unit := do
  write (reassign name buyer)
  write fun l => l.revokeCredits seller
  write fun l => l.grantCredits buyer

/-! ## Messages in single steps -/

/-- Registers a free name: the fee, the record, and the credits of a first name. -/
def registerNameInPlace (name : String) (owner : Address) : Attempt Ledger Error Unit := do
  let l ← get
  if l.names.contains name then fail (.nameTaken name)
  else do
    payInPlace owner nameService l.pricing.registrationFee
    write fun l => l.putName name ⟨owner, none, []⟩
    write fun l => l.grantCredits owner

/-- Renews a name for its owner, who pays the fee. -/
def renewNameInPlace (name : String) (owner : Address) : Attempt Ledger Error Unit := do
  let _ ← read fun l => l.recordOwnedBy name owner
  let l ← get
  payInPlace owner nameService l.pricing.renewalFee

/-- Buys a name: the price goes to the owner, and the name to the buyer. -/
def buyNameInPlace (name : String) (buyer : Address) : Attempt Ledger Error Unit := do
  let (seller, price) ← read (offerOf name)
  payInPlace buyer seller price
  handOverInPlace name seller buyer

/-- Gives a name of the caller to another account. -/
def transferNameInPlace (name : String) (owner recipient : Address) :
    Attempt Ledger Error Unit := do
  let _ ← read fun l => l.recordOwnedBy name owner
  handOverInPlace name owner recipient

/-- Drops a name of its owner, and the credits with the last one. -/
def deleteNameInPlace (name : String) (owner : Address) : Attempt Ledger Error Unit := do
  let _ ← read fun l => l.recordOwnedBy name owner
  write fun l => { l with names := l.names.erase name }
  write fun l => l.revokeCredits owner

/-- Pays for an address, unless there are credits to be spent. -/
def payAddressInPlace (owner : Address) (credits : Int) : Attempt Ledger Error Unit :=
  if credits ≤ 0 then do
    let l ← get
    payInPlace owner nameService l.pricing.addressFee
  else pure ()

/-- Registers an address under a name of the caller: the fee or a credit, and the record. -/
def registerAddressInPlace (name : String) (owner address : Address) :
    Attempt Ledger Error Unit := do
  let _ ← read fun l => l.recordOwnedBy name owner
  let l ← get
  payAddressInPlace owner (l.creditsOf owner)
  write fun t => { t with credits := t.credits.insert owner (Fee.spendCredit (l.creditsOf owner)) }
  write (addAddress name address)

/-- Takes inputs, one after the other. -/
def debitAllInPlace (inputs : List Share) : Attempt Ledger Error Unit :=
  forEach (fun s => debitInPlace s.address s.coins) inputs

/-- Takes all inputs, and then hands out all outputs. -/
def multiSendInPlace (inputs outputs : List Share) : Attempt Ledger Error Unit := do
  debitAllInPlace inputs
  forEach (fun s => creditInPlace s.address s.coins) outputs

/-- Carries out a message step by step. -/
def applyInPlace : Message → Attempt Ledger Error Unit
  | .registerName name owner => registerNameInPlace name owner
  | .renewName name owner => renewNameInPlace name owner
  | .buyName name buyer => buyNameInPlace name buyer
  | .transferName name owner recipient => transferNameInPlace name owner recipient
  | .deleteName name owner => deleteNameInPlace name owner
  | .registerAddress name owner address => registerAddressInPlace name owner address
  | .send sender recipient amount => payInPlace sender recipient amount
  | .multiSend inputs outputs => multiSendInPlace inputs outputs
  | .createSellOrder seller amount => payInPlace seller market amount
  | .other _ => pure ()

/-! ## The steps come to the same -/

@[simp] theorem run_write (f : Ledger → Ledger) (l : Ledger) :
    run (write f) l = (.ok (), f l) := rfl

/-- Looking first and writing then comes to taking a share. -/
theorem debitInPlace_eq (address : Address) (coins : CoinSet) :
    debitInPlace address coins = change (debitShare ⟨address, coins⟩) := by
  refine Attempt.ext fun l => ?_
  rw [run_change]
  unfold debitInPlace debitShare
  split
  · next hempty =>
    -- Taking nothing is not looked at any further.
    rw [CoinSet.isEmpty_iff.1 hempty, Balances.debit_empty]
    rfl
  · rw [run_bind, run_read]
    unfold balance Balances.debit
    cases (l.balances.balance address).sub? coins <;> rfl

/-- Adding coins comes to crediting them, of which there may be none. -/
theorem creditInPlace_eq (address : Address) (coins : CoinSet) :
    creditInPlace address coins =
      write fun l => { l with balances := l.balances.credit address coins } := by
  unfold creditInPlace
  split
  · next hempty =>
    rw [CoinSet.isEmpty_iff.1 hempty]
    simp only [Balances.credit_empty]
    rfl
  · rfl

/-- A payment in single steps is a payment. -/
theorem payInPlace_eq (source target : Address) (coins : CoinSet) :
    payInPlace source target coins = change fun l => l.pay source target coins := by
  refine Attempt.ext fun l => ?_
  unfold payInPlace pay transfer Balances.transfer
  rw [debitInPlace_eq, creditInPlace_eq, run_bind, run_change, run_change]
  unfold debitShare
  cases l.balances.debit source coins <;> rfl

/-- Inputs in single steps are inputs. -/
theorem debitAllInPlace_eq (inputs : List Share) : debitAllInPlace inputs = debitAll inputs := by
  unfold debitAllInPlace debitAll
  simp only [debitInPlace_eq]

/-- Outputs that are handed out one after the other are all credited, and none of them is refused.
-/
theorem run_forEach_creditInPlace (outputs : List Share) (l : Ledger) :
    (forEach (fun s => creditInPlace s.address s.coins) outputs).run l =
      (.ok (), { l with balances := l.balances.creditAll outputs }) := by
  -- By induction on the outputs.
  induction outputs generalizing l with
  | nil => rfl
  | cons s rest ih =>
    -- The rest is handed out on the ledger behind the first credit, which is why `l` is general.
    have hcons : (forEach (fun s => creditInPlace s.address s.coins) (s :: rest)).run l =
        (creditInPlace s.address s.coins >>= fun _ =>
          forEach (fun s => creditInPlace s.address s.coins) rest).run l := rfl
    rw [hcons, run_bind, creditInPlace_eq, run_write]
    exact ih _

/-- A name that is there is handed over. -/
theorem run_handOverInPlace {name : String} {seller buyer : Address} {r : NameRecord} {l : Ledger}
    (h : l.names.find? name = some r) :
    (handOverInPlace name seller buyer).run l = (.ok (), l.handOver name seller buyer) := by
  have hreassign : reassign name buyer l = l.putName name ⟨buyer, none, []⟩ := by
    unfold reassign
    rw [h]
  unfold handOverInPlace handOver
  rw [run_bind, run_write, hreassign]
  rfl

/-- A registration in single steps is a registration. -/
theorem registerNameInPlace_eq (name : String) (owner : Address) :
    registerNameInPlace name owner = change (registerName name owner) := by
  refine Attempt.ext fun l => ?_
  unfold registerNameInPlace registerName
  rw [run_bind, run_get, run_change]
  dsimp only
  split
  · rfl
  · rw [payInPlace_eq, run_bind, run_change]
    cases l.pay owner nameService l.pricing.registrationFee <;> rfl

/-- A renewal in single steps is a renewal. -/
theorem renewNameInPlace_eq (name : String) (owner : Address) :
    renewNameInPlace name owner = change (renewName name owner) := by
  refine Attempt.ext fun l => ?_
  unfold renewNameInPlace renewName
  rw [run_bind, run_read, run_change]
  cases l.recordOwnedBy name owner with
  | error e => rfl
  | ok r =>
    show (payInPlace owner nameService l.pricing.renewalFee).run l = _
    rw [payInPlace_eq, run_change]
    rfl

/-- A purchase in single steps is a purchase. -/
theorem buyNameInPlace_eq (name : String) (buyer : Address) :
    buyNameInPlace name buyer = change (buyName name buyer) := by
  refine Attempt.ext fun l => ?_
  unfold buyNameInPlace buyName offerOf
  rw [run_bind, run_read, run_change]
  cases hr : l.names.find? name with
  | none => rfl
  | some r =>
    cases hprice : r.price with
    | none => simp only [hprice]
    | some price =>
      simp only [hprice]
      rw [payInPlace_eq, run_bind, run_change]
      cases hpay : l.pay buyer r.owner price with
      | error e => rfl
      | ok paid =>
        -- The payment leaves the name where it is.
        obtain ⟨b, -, rfl⟩ := pay_eq_ok_iff.1 hpay
        exact run_handOverInPlace hr

/-- A transfer of a name in single steps is a transfer of the name. -/
theorem transferNameInPlace_eq (name : String) (owner recipient : Address) :
    transferNameInPlace name owner recipient = change (transferName name owner recipient) := by
  refine Attempt.ext fun l => ?_
  unfold transferNameInPlace transferName
  rw [run_bind, run_read, run_change]
  cases hr : l.recordOwnedBy name owner with
  | error e => rfl
  | ok r => exact run_handOverInPlace (recordOwnedBy_eq_ok_iff.1 hr).1

/-- A deletion in single steps is a deletion. -/
theorem deleteNameInPlace_eq (name : String) (owner : Address) :
    deleteNameInPlace name owner = change (deleteName name owner) := by
  refine Attempt.ext fun l => ?_
  unfold deleteNameInPlace deleteName
  rw [run_bind, run_read, run_change]
  cases l.recordOwnedBy name owner <;> rfl

/-- Paying for an address in single steps is paying for it, if there is no credit. -/
theorem payAddressInPlace_eq (owner : Address) (credits : Int) :
    payAddressInPlace owner credits = change fun l =>
      if credits ≤ 0 then l.pay owner nameService l.pricing.addressFee else .ok l := by
  refine Attempt.ext fun l => ?_
  unfold payAddressInPlace
  rw [run_change]
  split
  · rw [run_bind, run_get]
    show (payInPlace owner nameService l.pricing.addressFee).run l = _
    rw [payInPlace_eq, run_change]
  · rfl

/-- The registration of an address in single steps is one. -/
theorem registerAddressInPlace_eq (name : String) (owner address : Address) :
    registerAddressInPlace name owner address = change (registerAddress name owner address) := by
  refine Attempt.ext fun l => ?_
  unfold registerAddressInPlace registerAddress
  rw [run_bind, run_read, run_change]
  cases hr : l.recordOwnedBy name owner with
  | error e => rfl
  | ok r =>
    obtain ⟨hfind, -⟩ := recordOwnedBy_eq_ok_iff.1 hr
    -- Neither the payment nor the credits touch the name.
    have hlast : ∀ t : Ledger, t.names = l.names → addAddress name address t =
        t.putName name { r with addresses := r.addresses ++ [address] } := by
      intro t ht
      unfold addAddress
      rw [ht, hfind]
    show (payAddressInPlace owner (l.creditsOf owner) >>= fun _ => _).run l = _
    rw [payAddressInPlace_eq, run_bind, run_change]
    by_cases hcredits : l.creditsOf owner ≤ 0
    · simp only [if_pos hcredits]
      cases hpay : l.pay owner nameService l.pricing.addressFee with
      | error e => rfl
      | ok paid =>
        obtain ⟨b, -, rfl⟩ := pay_eq_ok_iff.1 hpay
        exact congrArg (Prod.mk (Except.ok ())) (hlast _ rfl)
    · simp only [if_neg hcredits]
      exact congrArg (Prod.mk (Except.ok ())) (hlast _ rfl)

/-- A transfer between many accounts in single steps is one. -/
theorem multiSendInPlace_eq (inputs outputs : List Share) :
    multiSendInPlace inputs outputs = multiSend inputs outputs := by
  refine Attempt.ext fun l => ?_
  unfold multiSendInPlace multiSend
  rw [debitAllInPlace_eq, run_bind, run_bind]
  unfold debitAll
  cases (forEach (fun s => change (debitShare s)) inputs).run l with
  | mk r t =>
    cases r with
    | error e => rfl
    | ok u => exact run_forEach_creditInPlace outputs t

/-- Step by step, a message does what it does as a whole. -/
theorem apply_eq_inPlace (m : Message) : applyInPlace m = apply m := by
  cases m with
  | registerName name owner => exact registerNameInPlace_eq name owner
  | renewName name owner => exact renewNameInPlace_eq name owner
  | buyName name buyer => exact buyNameInPlace_eq name buyer
  | transferName name owner recipient => exact transferNameInPlace_eq name owner recipient
  | deleteName name owner => exact deleteNameInPlace_eq name owner
  | registerAddress name owner address => exact registerAddressInPlace_eq name owner address
  | send sender recipient amount => exact payInPlace_eq sender recipient amount
  | multiSend inputs outputs => exact multiSendInPlace_eq inputs outputs
  | createSellOrder seller amount => exact payInPlace_eq seller market amount
  | other typeUrl => rfl

/-! ## Refusals in front of the first write -/

section

variable {P : Ledger → Prop}

/-- A write is not refused. -/
theorem write_neverRefused (f : Ledger → Ledger) : NeverRefused (write f) :=
  RefusesOnly.change fun _ _ _ h => nomatch h

/-- A debit that is refused has only looked at the account. -/
theorem debitInPlace_refusedKeeps (address : Address) (coins : CoinSet) :
    RefusedKeeps P (debitInPlace address coins) := by
  unfold debitInPlace
  split
  · exact .of_keeps (.pure ())
  · exact .bind (.read _) fun _ => .of_neverRefused (write_neverRefused _)

/-- Adding coins is not refused. -/
theorem creditInPlace_neverRefused (address : Address) (coins : CoinSet) :
    NeverRefused (creditInPlace address coins) := by
  rw [creditInPlace_eq]
  exact write_neverRefused _

/-- A payment that is refused has only looked at the account that pays. -/
theorem payInPlace_refusedKeeps (source target : Address) (coins : CoinSet) :
    RefusedKeeps P (payInPlace source target coins) :=
  (debitInPlace_refusedKeeps source coins).bind_neverRefused fun _ =>
    creditInPlace_neverRefused target coins

/-- Handing a name over is not refused. -/
theorem handOverInPlace_neverRefused (name : String) (seller buyer : Address) :
    NeverRefused (handOverInPlace name seller buyer) :=
  (write_neverRefused _).bind fun _ => (write_neverRefused _).bind fun _ => write_neverRefused _

/-- Of all messages but transfers between many accounts, the steps that can be refused come in front
of the first write. -/
theorem applyInPlace_refusedKeeps {m : Message}
    (hm : ∀ inputs outputs, m ≠ .multiSend inputs outputs) : RefusedKeeps P (applyInPlace m) := by
  -- For every message: what may be refused, and then the writes behind it.
  cases m with
  | registerName name owner =>
    refine .bind .get fun l => ?_
    split
    · exact .of_keeps (.of_state_eq fun _ => rfl)
    · exact (payInPlace_refusedKeeps _ _ _).bind_neverRefused fun _ =>
        (write_neverRefused _).bind fun _ => write_neverRefused _
  | renewName name owner =>
    exact .bind (.read _) fun _ => .bind .get fun _ => payInPlace_refusedKeeps _ _ _
  | buyName name buyer =>
    exact .bind (.read _) fun _ => (payInPlace_refusedKeeps _ _ _).bind_neverRefused fun _ =>
      handOverInPlace_neverRefused _ _ _
  | transferName name owner recipient =>
    exact .bind (.read _) fun _ => .of_neverRefused (handOverInPlace_neverRefused _ _ _)
  | deleteName name owner =>
    exact .bind (.read _) fun _ => .of_neverRefused <|
      (write_neverRefused _).bind fun _ => write_neverRefused _
  | registerAddress name owner address =>
    refine .bind (.read _) fun _ => .bind .get fun l => ?_
    refine .bind_neverRefused ?_ fun _ => (write_neverRefused _).bind fun _ => write_neverRefused _
    unfold payAddressInPlace
    split
    · exact .bind .get fun _ => payInPlace_refusedKeeps _ _ _
    · exact .of_keeps (.pure ())
  | send sender recipient amount => exact payInPlace_refusedKeeps _ _ _
  | multiSend inputs outputs => exact absurd rfl (hm inputs outputs)
  | createSellOrder seller amount => exact payInPlace_refusedKeeps _ _ _
  | other typeUrl => exact .of_keeps (.pure ())

end

/-! ## Inputs that are taken in turn -/

/-- An input is refused if its account does not hold it. -/
theorem debitShare_eq_error_iff {s : Share} {l : Ledger} {e : Error} :
    debitShare s l = .error e ↔
      (l.balance s.address).covers s.coins = false ∧
        e = .bank (.insufficientFunds s.address s.coins) := by
  -- Taking coins fails exactly where the balance does not cover them.
  rw [← Bool.not_eq_true, ← CoinSet.exists_sub?_eq_ok_iff]
  unfold debitShare Balances.debit balance
  cases (l.balances.balance s.address).sub? s.coins with
  | error reason => simp [eq_comm]
  | ok left => simp

/-- Inputs that are refused have been taken up to the first one that could not be paid. -/
theorem debitAll_eq_error_iff {inputs : List Share} {l l' : Ledger} {e : Error} :
    (debitAll inputs).run l = (.error e, l') ↔
      ∃ paid s rest, inputs = paid ++ s :: rest ∧ (debitAll paid).run l = (.ok (), l') ∧
        (l'.balance s.address).covers s.coins = false ∧
        e = .bank (.insufficientFunds s.address s.coins) := by
  unfold debitAll
  rw [run_forEach_eq_error]
  constructor
  · rintro ⟨paid, s, rest, t, hinputs, hpaid, hlast⟩
    obtain ⟨hdebit, rfl⟩ := run_change_error hlast
    exact ⟨paid, s, rest, hinputs, hpaid, debitShare_eq_error_iff.1 hdebit⟩
  · rintro ⟨paid, s, rest, hinputs, hpaid, hlast⟩
    refine ⟨paid, s, rest, l', hinputs, hpaid, ?_⟩
    rw [run_change, debitShare_eq_error_iff.2 hlast]

/-- What is handed out is not refused. -/
theorem multiSend_eq_error_iff {inputs outputs : List Share} {l l' : Ledger} {e : Error} :
    (multiSend inputs outputs).run l = (.error e, l') ↔
      (debitAll inputs).run l = (.error e, l') := by
  unfold multiSend debitAll
  rw [run_bind_eq_error]
  refine or_iff_left ?_
  rintro ⟨_, t, -, houtputs⟩
  cases (run_change_error houtputs).1

/-- A transfer between many accounts has come to an input that could not be paid: the inputs in
front of it have been taken, and nothing else has changed. -/
structure StoppedShort (inputs : List Share) (l : Ledger) (e : Error) (l' : Ledger) : Prop where
  names : l'.names = l.names
  credits : l'.credits = l.credits
  supply : l'.supply = l.supply
  pricing : l'.pricing = l.pricing
  others : ∀ x ∉ inputs.map Share.address, l'.balance x = l.balance x
  taken : ∃ paid s rest, inputs = paid ++ s :: rest ∧ (debitAll paid).run l = (.ok (), l') ∧
    (∀ x, (l.balance x).sub? (totalFor x paid) = .ok (l'.balance x)) ∧
    (l'.balance s.address).covers s.coins = false ∧
    e = .bank (.insufficientFunds s.address s.coins)

/-- A transfer between many accounts that is refused has stopped short at one of its inputs. -/
theorem stoppedShort_of_multiSend {inputs outputs : List Share} {l l' : Ledger} {e : Error}
    (h : (multiSend inputs outputs).run l = (.error e, l')) : StoppedShort inputs l e l' := by
  -- A refused run has the inputs in front of the refused one as a successful run of its own, and
  -- that is a debit of their totals.
  obtain ⟨paid, s, rest, rfl, hpaid, hlast⟩ :=
    debitAll_eq_error_iff.1 (multiSend_eq_error_iff.1 h)
  have hothers : ∀ x ∉ (paid ++ s :: rest).map Share.address, l'.balance x = l.balance x :=
    fun x hx => balance_of_debitAll hpaid fun hmem =>
      hx (List.map_append ▸ List.mem_append_left _ hmem)
  obtain ⟨b, hb, rfl⟩ := debitAll_eq_ok_iff.1 hpaid
  refine ⟨rfl, rfl, rfl, rfl, hothers, paid, s, rest, rfl, hpaid, fun x => ?_, hlast⟩
  rw [CoinSet.sub?_eq_ok_iff_add, balance, balance, ← hb, Balances.balance_creditAll]

/-! ## What is left behind -/

/-- A message can be carried out on the ledger itself, in single steps. If it is refused there, it
has not changed anything, unless it is a transfer between many accounts, which has taken the inputs
in front of the first one that could not be paid. -/
theorem refusal_effects (m : Message) :
    applyInPlace m = apply m ∧
      ∀ l e l', (apply m).run l = (.error e, l') →
        ((∀ inputs outputs, m ≠ .multiSend inputs outputs) → l' = l) ∧
        ∀ inputs outputs, m = .multiSend inputs outputs → StoppedShort inputs l e l' := by
  refine ⟨apply_eq_inPlace m, fun l e l' h => ⟨fun hm => ?_, ?_⟩⟩
  · -- The message is carried out in single steps, to see what a refusal has left.
    rw [← apply_eq_inPlace] at h
    exact applyInPlace_refusedKeeps (P := fun t => t = l) hm l rfl e l' h
  · rintro inputs outputs rfl
    exact stoppedShort_of_multiSend h

open Chain.Sample (account coins genesis) in
/-- A name that is not there leaves the ledger as it was. The second input of a transfer is not
covered, but the first one is gone. -/
theorem refusal_effects_sample :
    let outputs : List Share := [⟨account 3, coins 15⟩]
    let inputs : List Share := [⟨account 1, coins 5⟩, ⟨account 2, coins 10⟩]
    let refused := (applyInPlace (.deleteName "nobody" (account 1))).run genesis.ledger
    let stopped := (applyInPlace (.multiSend inputs outputs)).run genesis.ledger
    refused = (.error (.unknownName "nobody"), genesis.ledger) ∧
      stopped.1 = .error (.bank (.insufficientFunds (account 2) (coins 10))) ∧
      stopped.2.balance (account 1) = coins 995 ∧
      StoppedShort inputs genesis.ledger
        (.bank (.insufficientFunds (account 2) (coins 10))) stopped.2 := by
  intro outputs inputs refused stopped
  have hunknown : refused.1 = .error (.unknownName "nobody") := by decide +kernel
  have hmissing : stopped.1 = .error (.bank (.insufficientFunds (account 2) (coins 10))) := by
    decide +kernel
  obtain ⟨hrefused, hunchanged⟩ := refusal_effects (.deleteName "nobody" (account 1))
  obtain ⟨hstopped, hshort⟩ := refusal_effects (.multiSend inputs outputs)
  rw [← hrefused] at hunchanged
  rw [← hstopped] at hshort
  refine ⟨Prod.ext hunknown ?_, hmissing, by decide +kernel, ?_⟩
  · exact (hunchanged genesis.ledger _ _ (Prod.ext hunknown rfl)).1 fun _ _ => Message.noConfusion
  · exact (hshort genesis.ledger _ _ (Prod.ext hmissing rfl)).2 inputs outputs rfl

end ChainEconomy.Ledger
