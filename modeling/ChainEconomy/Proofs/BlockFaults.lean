import ChainEconomy.Proofs.BlockSteps
import ChainEconomy.Proofs.ParamsRoundTrip

/-!
# Where faults come from

A block ends with a fault for its own time, for a bank that does not carry out what minting asks
for, or for the store: a record is missing, cannot be read or is not sound, or the medium fails.
With sound parameters and a sound state of the minter on a medium that does not fail, the faults of
the last kind are ruled out, step by step.

## Key results

- `ConsensusFault.blamesStore`, `ConsensusFault.blamesBank`: who is to blame for a fault
- `Mint.Faults`, `Mint.beginBlock_eq_error_iff`: the ways in which the start of a block faults
- `Mint.beginBlock_refusesOnly`: the start of a block on sound records
- `Fee.assess_storage_error`: assessing a transaction fails in the store at a type of message only
- `Chain.processFrom_refusesOnly`: the transactions of a block
-/

namespace ChainEconomy

/-- Whether a fault says that a record is missing, unreadable or unusable, or that the medium has
failed. -/
def ConsensusFault.blamesStore : ConsensusFault → Bool
  | .corruptState _ | .storage _ | .invalidParams _ => true
  | .nonMonotonicTime _ _ | .elapsedTimeOutOfBounds _ _ | .mintFailed _ _
  | .distributionFailed _ _ _ _ => false

/-- Whether a fault says that the bank has turned down what minting has asked for. -/
def ConsensusFault.blamesBank : ConsensusFault → Bool
  | .mintFailed _ _ | .distributionFailed _ _ _ _ => true
  | .nonMonotonicTime _ _ | .elapsedTimeOutOfBounds _ _ | .corruptState _ | .storage _
  | .invalidParams _ => false

/-- The bank has nothing to do with the store. -/
theorem ConsensusFault.blamesStore_of_blamesBank {fault : ConsensusFault}
    (h : fault.blamesBank = true) : fault.blamesStore = false := by
  cases fault with
  -- The two kinds that the bank gives, and the other ones, which it does not.
  | mintFailed | distributionFailed => rfl
  | _ => cases h

/-! ## Minting -/

namespace Mint

open Attempt

/-- Sensible parameters have a rate to work with. -/
theorem exists_usableRate_eq_ok {params : Params} (hcheck : params.check = .ok ()) :
    ∃ rate, usableRate params = .ok rate := by
  have hrate := (Params.check_eq_ok_iff.1 hcheck).2.1
  have hfixed := Fixed.ofRate_eq_ok (checkRate_eq_ok_iff.1 hrate).1
  unfold usableRate
  rw [hcheck]
  exact ⟨_, Except.mapError_eq_ok_iff.2
    -- The rate is in its bounds, and so has the places of an amount.
    (Except.check_eq_ok_iff.2 ⟨hrate, Except.mapError_eq_ok_iff.2 hfixed⟩)⟩

/-! The faults that the steps in front of the bank can end with. -/

/-- A rate that cannot be worked with is the fault of the parameters. -/
theorem usableRate_eq_error {params : Params} {fault : ConsensusFault}
    (h : usableRate params = .error fault) : ∃ e, fault = .invalidParams e := by
  unfold usableRate at h
  split at h
  · cases h
    exact ⟨_, rfl⟩
  · obtain ⟨e, -, rfl⟩ := Except.mapError_eq_error_iff.1 h
    exact ⟨_, rfl⟩

/-- A state that cannot be worked with is the fault of the medium or of what is on it. -/
theorem loadChecked_eq_error {s : Store} {fault : ConsensusFault}
    (h : State.loadChecked s = .error fault) :
    (∃ e, fault = .storage e) ∨ ∃ corruption, fault = .corruptState corruption := by
  unfold State.loadChecked at h
  split at h
  · -- The record cannot be read, is missing, or holds a leftover of one unit or more.
    cases h
    exact .inl ⟨_, rfl⟩
  · cases h
    exact .inr ⟨_, rfl⟩
  · split at h
    · cases h
      exact .inr ⟨_, rfl⟩
    · cases h

/-- The store is not to blame for a time that does not follow closely enough. -/
theorem elapsedWithin_eq_error {limit : UInt64} {previous current : BlockTime}
    {fault : ConsensusFault} (h : elapsedWithin limit previous current = .error fault) :
    fault.blamesStore = false := by
  unfold elapsedWithin at h
  split at h
  · cases h
    rfl
  · split at h
    · cases h
      rfl
    · cases h

variable {β : Type}

section

variable {denom : String} (hdenom : Denom.check denom = .ok ())
include hdenom

/-- A set of one coin of a proper denomination is never refused. -/
theorem single_refusesOnly {P : β → Prop} {Q : ConsensusFault → Prop} (amount : Nat)
    (f : CoinError → ConsensusFault) :
    RefusesOnly P Q (ofExcept ((CoinSet.single denom amount).mapError f)) := by
  refine RefusesOnly.ofExcept fun e he => ?_
  obtain ⟨coins, hcoins⟩ := CoinSet.exists_single_eq_ok hdenom amount
  rw [hcoins] at he
  cases he

variable [Bank β]

/-- Coins of a proper denomination are moved to a pool unless the bank refuses. -/
theorem moveToPool_refusesOnly (pool : String) (amount : Nat) :
    RefusesOnly (fun _ => True) (fun f => f.blamesBank = true)
      (moveToPool pool denom amount : Attempt β ConsensusFault Unit) := by
  unfold moveToPool
  split
  · exact RefusesOnly.pure ()
  · -- The coins can be made, so that what is left to fail is the transfer.
    refine (single_refusesOnly hdenom amount _).bind (Keeps.ofExcept _)
      fun _ coins _ _ _ => RefusesOnly.change fun bank _ fault hfault => ?_
    obtain ⟨e, -, rfl⟩ := Except.mapError_eq_error_iff.1 hfault
    rfl

/-- New supply of a proper denomination can only be turned down by the bank. -/
theorem issue_refusesOnly (minted : Nat) :
    RefusesOnly (fun _ => True) (fun f => f.blamesBank = true)
      (issue denom minted : Attempt β ConsensusFault Distribution) := by
  unfold issue
  split
  · exact RefusesOnly.pure _
  · refine (single_refusesOnly hdenom minted _).bind (Keeps.always _) fun _ coins _ _ _ => ?_
    refine (RefusesOnly.change fun bank _ fault hfault => ?_).bind (Keeps.always _)
      fun _ _ _ _ _ => ?_
    · obtain ⟨e, -, rfl⟩ := Except.mapError_eq_error_iff.1 hfault
      rfl
    · -- Two moves, one for each pool, and neither of them fails but for the bank.
      exact (moveToPool_refusesOnly hdenom _ _).bind (Keeps.always _) fun _ _ _ _ _ =>
        (moveToPool_refusesOnly hdenom _ _).bind (Keeps.always _) fun _ _ _ _ _ =>
          RefusesOnly.pure _

end

variable [Bank β]

/-- Parameters that have passed their check leave only the bank to turn down new supply. -/
theorem blamesBank_of_issue {params : Params} {rate : Fixed} (hrate : usableRate params = .ok rate)
    {minted : Nat} {bank bank' : β} {fault : ConsensusFault}
    (h : (issue params.denom minted).run bank = (.error fault, bank')) :
    fault.blamesBank = true :=
  issue_refusesOnly (Params.check_eq_ok_iff.1 (usableRate_eq_ok hrate).1).1 minted bank trivial
    _ _ h

/-- How the start of a block ends with a fault, in the order of its steps, and what it leaves
behind: `Faults height time params w fault w'`. -/
inductive Faults (height : UInt64) (time : BlockTime) (params : Params) (w : World β) :
    ConsensusFault → World β → Prop
  /-- The parameters are of no use. -/
  | params {fault : ConsensusFault} (hrate : usableRate params = .error fault) :
    Faults height time params w fault w
  /-- The state of the minter is missing, unreadable or not sound. -/
  | state {rate : Fixed} {fault : ConsensusFault} (hrate : usableRate params = .ok rate)
    (hstate : State.loadChecked w.store = .error fault) : Faults height time params w fault w
  /-- The first block cannot put its time into the store. -/
  | first {rate : Fixed} {state : State} {e : StorageError} (hrate : usableRate params = .ok rate)
    (hstate : State.loadChecked w.store = .ok state) (hheight : height = 1)
    (hsave : State.save { state with previousTime := time } w.store = .error e) :
    Faults height time params w (.storage e) w
  /-- A later block does not come in time. -/
  | time {rate : Fixed} {state : State} {fault : ConsensusFault}
    (hrate : usableRate params = .ok rate) (hstate : State.loadChecked w.store = .ok state)
    (hheight : height ≠ 1)
    (htime : elapsedWithin params.maxAccrualSeconds state.previousTime time = .error fault) :
    Faults height time params w fault w
  /-- A later block cannot put its state into the store. -/
  | later {rate : Fixed} {state : State} {elapsed : UInt64} {accrual : Accrual} {e : StorageError}
    (hrate : usableRate params = .ok rate) (hstate : State.loadChecked w.store = .ok state)
    (hheight : height ≠ 1)
    (htime : elapsedWithin params.maxAccrualSeconds state.previousTime time = .ok elapsed)
    (haccrual : accrue ((Bank.totalSupply w.bank).amountOf params.denom) rate state.leftover
      elapsed = accrual)
    (hsave : State.save ⟨time, accrual.leftover⟩ w.store = .error e) :
    Faults height time params w (.storage e) w
  /-- The bank does not issue the new supply. -/
  | bank {rate : Fixed} {state : State} {elapsed : UInt64} {accrual : Accrual} {store : Store}
    {fault : ConsensusFault} {bank : β} (hrate : usableRate params = .ok rate)
    (hstate : State.loadChecked w.store = .ok state) (hheight : height ≠ 1)
    (htime : elapsedWithin params.maxAccrualSeconds state.previousTime time = .ok elapsed)
    (haccrual : accrue ((Bank.totalSupply w.bank).amountOf params.denom) rate state.leftover
      elapsed = accrual)
    (hsave : State.save ⟨time, accrual.leftover⟩ w.store = .ok store)
    (hissue : (issue params.denom accrual.minted).run w.bank = (.error fault, bank)) :
    Faults height time params w fault ⟨store, bank⟩

/-- The start of a block ends with a fault in one of these ways. -/
theorem beginBlock_eq_error_iff {height : UInt64} {time : BlockTime} {params : Params}
    {w w' : World β} {fault : ConsensusFault} :
    (beginBlock height time params).run w = (.error fault, w') ↔
      Faults height time params w fault w' := by
  constructor
  · -- The run is followed step by step; a step fails, or gives what the next one works with.
    intro h
    obtain hend | ⟨rate, _, hrunRate, h⟩ := run_bind_eq_error.1 h
    · obtain ⟨hrate, rfl⟩ := run_ofExcept_eq_error.1 hend
      exact .params hrate
    obtain ⟨hrate, rfl⟩ := run_ofExcept_eq_ok.1 hrunRate
    obtain hend | ⟨state, _, hrunState, h⟩ := run_bind_eq_error.1 h
    · obtain ⟨hstate, rfl⟩ := run_read_eq_error.1 hend
      exact .state hrate hstate
    obtain ⟨hstate, rfl⟩ := run_read_eq_ok.1 hrunState
    split at h
    · next hheight =>
      rw [run_bind_pure_eq_error] at h
      obtain ⟨e, hsave, rfl, rfl⟩ := persist_eq_error_iff.1 h
      exact .first hrate hstate hheight hsave
    next hheight =>
    obtain hend | ⟨elapsed, _, hrunTime, h⟩ := run_bind_eq_error.1 h
    · obtain ⟨htime, rfl⟩ := run_ofExcept_eq_error.1 hend
      exact .time hrate hstate hheight htime
    obtain ⟨htime, rfl⟩ := run_ofExcept_eq_ok.1 hrunTime
    obtain hend | ⟨world, _, hget, h⟩ := run_bind_eq_error.1 h
    · cases hend
    cases hget
    obtain hend | ⟨_, saved, hpersist, h⟩ := run_bind_eq_error.1 h
    · obtain ⟨e, hsave, rfl, rfl⟩ := persist_eq_error_iff.1 hend
      exact .later hrate hstate hheight htime rfl hsave
    obtain ⟨hsave, hbank⟩ := persist_eq_ok_iff.1 hpersist
    rw [run_bind_pure_eq_error, run_within, hbank] at h
    obtain ⟨hissue, rfl⟩ := Prod.mk.inj h
    exact .bank hrate hstate hheight htime rfl hsave (Prod.ext hissue rfl)
  · intro h
    -- Each step gives what it is said to give, up to the one that fails.
    cases h with
    | params hrate => simp only [beginBlock, run_bind, run_ofExcept, hrate]
    | state hrate hstate => simp only [beginBlock, run_bind, run_ofExcept, run_read, hrate, hstate]
    | first hrate hstate hheight hsave =>
      simp only [beginBlock, run_bind, run_ofExcept, run_read, hrate, hstate, if_pos hheight,
        persist, run_change, hsave]
    | time hrate hstate hheight htime =>
      simp only [beginBlock, run_bind, run_ofExcept, run_read, hrate, hstate, if_neg hheight, htime]
    | later hrate hstate hheight htime haccrual hsave =>
      simp only [beginBlock, run_bind, run_ofExcept, run_read, run_get, hrate, hstate,
        if_neg hheight, htime, haccrual, persist, run_change, hsave]
    | bank hrate hstate hheight htime haccrual hsave hissue =>
      simp only [beginBlock, run_bind, run_ofExcept, run_read, run_get, hrate, hstate,
        if_neg hheight, htime, haccrual, persist, run_change, hsave, run_within, hissue]

/-- With sensible parameters and a sound state in the store, the start of a block can only end with
a fault of its time or of the bank. -/
theorem beginBlock_refusesOnly (height : UInt64) (time : BlockTime) {params : Params}
    (hcheck : params.check = .ok ()) :
    RefusesOnly
      (fun w : World β => w.store.medium = .sound ∧ ∃ state, State.loadChecked w.store = .ok state)
      (fun f => f.blamesStore = false) (beginBlock height time params) := by
  intro w hw fault w' hrun
  obtain ⟨hmedium, state, hstate⟩ := hw
  obtain ⟨rate, hrate⟩ := exists_usableRate_eq_ok hcheck
  -- A store that does not fail takes every state.
  have hsaves : ∀ (next : State) (e : StorageError), next.save w.store ≠ .error e := by
    intro next e herror
    obtain ⟨t, hsave, -⟩ :=
      Store.exists_set_eq_ok hmedium Store.minterKey (Store.recordBytes next.toJson)
    cases herror.symm.trans hsave
  cases beginBlock_eq_error_iff.1 hrun with
  | params herror => cases herror.symm.trans hrate
  | state _ herror => cases herror.symm.trans hstate
  | first _ _ _ herror => exact absurd herror (hsaves _ _)
  | time _ _ _ htime => exact elapsedWithin_eq_error htime
  | later _ _ _ _ _ herror => exact absurd herror (hsaves _ _)
  | bank hrate _ _ _ _ _ hissue =>
    exact ConsensusFault.blamesStore_of_blamesBank (blamesBank_of_issue hrate hissue)

end Mint

/-! ## Transactions -/

namespace Fee

variable {schedule : Schedule} {store : Store} {names : NameRegistry} {e : StorageError}

/-- The price of a message has nothing to do with the store. -/
theorem messageValue_ne_storage_error (p : Payer) (m : Message) :
    messageValue names p m ≠ .error (.storage e) := by
  cases m with
  | buyName name buyer =>
    -- The registry is asked for the price of a name, and has its own kind of refusal.
    unfold messageValue
    dsimp only
    split <;> exact (nomatch ·)
  | _ => exact (nomatch ·)

/-- A surcharge fails in the store at the lookup of the type, since making coins does not read it.
-/
theorem messageSurcharge_storage_error {typeUrl : String} {value : CoinSet}
    (h : messageSurcharge schedule store typeUrl value = .error (.storage e)) :
    Exclusions.contains store typeUrl = .error e := by
  unfold messageSurcharge at h
  split at h
  · next e' hcontains =>
    cases h
    exact hcontains
  · cases h
  · obtain ⟨_, -, hcoin⟩ := Except.mapError_eq_error_iff.1 h
    cases hcoin

/-- Charges fail in the store at the type of one of the messages. -/
theorem charges_storage_error {p : Payer} {messages : List Message}
    (h : charges schedule store names p messages = .error (.storage e)) :
    ∃ m ∈ messages, Exclusions.contains store m.typeUrl = .error e := by
  -- The payer changes from message to message, and does not matter to the store.
  induction messages generalizing p with
  | nil => cases h
  | cons m rest ih =>
    rw [charges] at h
    split at h
    · next hvalue =>
      cases h
      exact absurd hvalue (messageValue_ne_storage_error p m)
    · split at h
      · next hsurcharge =>
        cases h
        exact ⟨m, List.mem_cons_self, messageSurcharge_storage_error hsurcharge⟩
      · obtain ⟨m', hm', hcontains⟩ := ih (Except.map_eq_error_iff.1 h)
        exact ⟨m', List.mem_cons_of_mem _ hm', hcontains⟩

/-- A transaction whose assessment fails in the store has a message whose type cannot be looked up.
-/
theorem assess_storage_error {β : Type} [Bank β] {bank : β} {tx : Transaction}
    (h : assess schedule store names bank tx = .error (.storage e)) :
    ∃ m ∈ tx.messages, Exclusions.contains store m.typeUrl = .error e := by
  unfold assess at h
  split at h
  · next hcompute =>
    cases h
    unfold compute at hcompute
    split at hcompute
    · cases hcompute
    · exact charges_storage_error (Except.map_eq_error_iff.1 hcompute)
  · -- Behind the pricing there are the funds and the transfer, which do not read the store.
    split at h
    · cases h
    · split at h
      · cases h
      · split at h <;> cases h

end Fee

namespace Chain

open Attempt

/-- Messages are refused as messages. -/
theorem applyFrom_refusesOnly (index : Nat) (messages : List Message) :
    RefusesOnly (fun _ => True) (fun r => ∃ index e, r = .execution index e)
      (applyFrom index messages) := by
  induction messages generalizing index with
  | nil => exact RefusesOnly.pure ()
  | cons m rest ih =>
    -- A message is refused with the position that it is at.
    exact (RefusesOnly.mapError (fun e => ⟨index, e, rfl⟩) _).bind (Keeps.always _)
      fun _ _ _ _ _ => ih (index + 1)

/-- A transaction fails in the store when it is assessed, not later. -/
theorem execute_storage_error {schedule : Fee.Schedule} {store : Store} {tx : Transaction}
    {l : Ledger} {e : StorageError}
    (h : execute schedule store tx l = .error (.admission (.storage e))) :
    Fee.assess schedule store l.registry l tx = .error (.storage e) := by
  unfold execute at h
  split at h
  · next hassess =>
    cases h
    exact hassess
  · next admission hassess =>
    split at h
    · next r t hrun =>
      cases h
      -- Behind the assessment only messages fail, and they fail as messages.
      obtain ⟨_, _, hreason⟩ := applyFrom_refusesOnly 0 tx.messages _ trivial _ _ hrun
      cases hreason
    · cases h

/-- On a medium that does not fail, the transactions of a block never end it with a fault. -/
theorem processFrom_refusesOnly (schedule : Fee.Schedule) {store : Store}
    (hmedium : store.medium = .sound) (Q : ConsensusFault → Prop) (index : Nat)
    (txs : List Transaction) :
    RefusesOnly (fun _ => True) Q (processFrom schedule store index txs) := by
  induction txs generalizing index with
  | nil => exact RefusesOnly.pure _
  | cons tx rest ih =>
    rw [processFrom]
    refine RefusesOnly.get.bind Keeps.get fun _ ledger _ _ _ => ?_
    split
    · -- Admitted: the ledger is set, and the others follow.
      refine (RefusesOnly.set _).bind (Keeps.always _) fun _ _ _ _ _ => ?_
      exact (ih (index + 1)).bind (Keeps.always _) fun _ _ _ _ _ => RefusesOnly.pure _
    · next e hexecute =>
      -- Such a fault would need a type that cannot be looked up, and the medium gives every answer.
      obtain ⟨m, -, hcontains⟩ := Fee.assess_storage_error (execute_storage_error hexecute)
      have hget := Except.map_eq_error_iff.1 hcontains
      rw [Store.get_of_sound hmedium] at hget
      cases hget
    · exact (ih (index + 1)).bind (Keeps.always _) fun _ _ _ _ _ => RefusesOnly.pure _

end Chain

end ChainEconomy
