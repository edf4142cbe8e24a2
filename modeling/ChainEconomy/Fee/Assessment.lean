import ChainEconomy.Bank
import ChainEconomy.Event
import ChainEconomy.Fee.Exclusions
import ChainEconomy.Fee.NameRegistry
import ChainEconomy.Fee.Schedule
import ChainEconomy.Transaction

/-! # Assessment of transactions

What a transaction costs. Each message has a value, which its handler moves later on, and bears a
surcharge unless its type is excluded; the payer has to hold the sum of both. Admission moves
nothing but the surcharges, so that a transaction that is turned down leaves nothing behind. -/

namespace ChainEconomy.Fee

/-- Why a transaction is turned down. -/
inductive AdmissionError where
  | malformed (flaw : Transaction.Flaw)
  | priceLookup (name : String) (error : PriceError)
  | insufficientFunds (required : CoinSet)
  | feeTransfer (error : BankError)
  | coin (error : CoinError)
  | storage (error : StorageError)
  deriving DecidableEq

/-- The wording of a refusal. -/
def AdmissionError.message : AdmissionError → String
  | .malformed flaw => "malformed transaction: " ++ flaw.message
  | .priceLookup name error =>
    "price lookup failed for " ++ Text.quoted name ++ ": " ++ error.message
  | .insufficientFunds required => s!"insufficient funds to cover fees: required {required}"
  | .feeTransfer error => "system fee transfer failed: " ++ error.message
  | .coin error => "fee arithmetic failed: " ++ error.message
  | .storage error => "exclusion registry unavailable: " ++ error.message

/-- Whether the refusal is reported together with a place in a text. -/
def AdmissionError.located : AdmissionError → Bool
  | .storage error => error.located
  | _ => false

/-! ## Values of messages -/

/-- What pricing keeps track of: whether the payer owns names, as far as the messages so far tell,
and the credits that are left. -/
structure Payer where
  ownedNames : Nat
  credits : Int
  deriving DecidableEq, Repr

namespace Payer

/-- The payer of a transaction before its first message. -/
def ofRegistry (names : NameRegistry) (address : Address) : Payer :=
  ⟨names.ownedNames address, names.credits address⟩

/-- A payer who gets a name; the first one brings credits along. -/
def acquireName (names : NameRegistry) (p : Payer) : Payer :=
  if p.ownedNames = 0 then ⟨1, names.creditGrant⟩ else p

/-- A payer who gives a name away; the last one takes the credits along. -/
def releaseName (p : Payer) : Payer := if p.ownedNames = 1 then ⟨0, 0⟩ else p

/-- A payer who registers an address. -/
def registerAddress (p : Payer) : Payer := { p with credits := spendCredit p.credits }

end Payer

/-- The value of a message, and the payer after it. -/
def messageValue (names : NameRegistry) (p : Payer) :
    Message → Except AdmissionError (CoinSet × Payer)
  | .registerName _ _ => .ok (names.registrationFee, p.acquireName names)
  | .renewName _ _ => .ok (names.renewalFee, p)
  | .buyName name _ =>
    match names.price name with
    | .error e => .error (.priceLookup name e)
    | .ok price => .ok (price, p.acquireName names)
  | .registerAddress _ _ _ =>
    -- A credit pays for the address, and the fee does where there is none.
    .ok (if p.credits ≤ 0 then names.addressFee else CoinSet.empty, p.registerAddress)
  | .transferName _ _ _ => .ok (CoinSet.empty, p.releaseName)
  | .deleteName _ _ => .ok (CoinSet.empty, p.releaseName)
  | .send _ _ amount => .ok (amount, p)
  | .createSellOrder _ amount => .ok (amount, p)
  | .multiSend inputs _ => .ok (Message.total inputs, p)
  | .other _ => .ok (CoinSet.empty, p)

/-! ## Assessment -/

/-- What one message costs. -/
structure Charge where
  value : CoinSet
  surcharge : CoinSet
  deriving DecidableEq

/-- The surcharge on a message of a given type and value. -/
def messageSurcharge (schedule : Schedule) (store : Store) (typeUrl : String) (value : CoinSet) :
    Except AdmissionError CoinSet :=
  match Exclusions.contains store typeUrl with
  | .error e => .error (.storage e)
  | .ok true => .ok CoinSet.empty
  | .ok false => (schedule.surcharge value).mapError AdmissionError.coin

/-- What each of several messages costs. -/
def charges (schedule : Schedule) (store : Store) (names : NameRegistry) :
    Payer → List Message → Except AdmissionError (List Charge)
  | _, [] => .ok []
  | p, m :: rest =>
    match messageValue names p m with
    | .error e => .error e
    | .ok (value, p) =>
      match messageSurcharge schedule store m.typeUrl value with
      | .error e => .error e
      | .ok surcharge => (charges schedule store names p rest).map (⟨value, surcharge⟩ :: ·)

/-- What a transaction costs. -/
structure Assessment where
  /-- The values of the messages. -/
  txFees : CoinSet
  /-- The surcharges on the messages. -/
  systemFees : CoinSet
  deriving DecidableEq

/-- What the payer has to hold. -/
def Assessment.total (a : Assessment) : CoinSet := a.txFees.add a.systemFees

/-- The sums of what several messages cost. -/
def Assessment.ofCharges (charges : List Charge) : Assessment :=
  ⟨CoinSet.sum (charges.map Charge.value), CoinSet.sum (charges.map Charge.surcharge)⟩

/-- Prices a transaction. -/
def compute (schedule : Schedule) (store : Store) (names : NameRegistry) (tx : Transaction) :
    Except AdmissionError Assessment :=
  match tx.check with
  | .error flaw => .error (.malformed flaw)
  | .ok () =>
    (charges schedule store names (Payer.ofRegistry names tx.feePayer) tx.messages).map
      Assessment.ofCharges

/-- The name of the module that collects the surcharges. -/
def collector : String := "fee_collector"

/-- The report of an admitted transaction. -/
def Assessment.event (a : Assessment) : Event :=
  .ofPairs "fee_assessed"
    [("total_fee", a.total.render), ("system_fee", a.systemFees.render)]

/-- An admitted transaction: what it costs, and the bank after its surcharges have been moved. -/
structure Admission (β : Type) where
  assessment : Assessment
  bank : β

/-- Admits a transaction: prices it, makes sure that the payer can pay, and collects the surcharges.
-/
def assess {β : Type} [Bank β] (schedule : Schedule) (store : Store) (names : NameRegistry)
    (bank : β) (tx : Transaction) : Except AdmissionError (Admission β) :=
  match compute schedule store names tx with
  | .error e => .error e
  | .ok a =>
    -- The payer has to hold the values too, although only the surcharges move now.
    if !Bank.hasAtLeast bank tx.feePayer a.total then .error (.insufficientFunds a.total)
    else if a.systemFees.isEmpty then .ok ⟨a, bank⟩
    else
      match Bank.sendToModule bank tx.feePayer collector a.systemFees with
      | .error e => .error (.feeTransfer e)
      | .ok bank => .ok ⟨a, bank⟩

end ChainEconomy.Fee
