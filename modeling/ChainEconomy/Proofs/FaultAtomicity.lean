import ChainEconomy.Proofs.BlockStart
import ChainEconomy.Proofs.Reachable

/-!
# A fault shows no transaction halfway

A block that ends with a fault does not put its ledger back. What it leaves behind is nevertheless
never a transaction halfway: minting fails before any coin has moved, and a transaction fails in the
store while it is being priced, which is before its surcharges move. To make this a statement about
the order of these steps, transactions are carried out here on the ledger of the block itself, where
a refusal takes nothing back; the block puts the ledger back behind a transaction that is turned
down, and leaves it as it is at a fault. The medium may begin or cease to fail between any two
transactions.

## Key results

- `execute_eq_inPlace`, `processBlock_eq_inPlace`: nothing else comes out than on copies
- `executeInPlace_storage_error`: a transaction that fails in the store has not touched the ledger
- `processInPlace_eq_error_iff`: where the transactions of a block end
- `fault_shows_whole_transactions`: blocks of any chain
-/

namespace ChainEconomy.Chain

open Attempt

/-! ## Transactions in place -/

section

variable (schedule : Fee.Schedule) (store : Store) (tx : Transaction)

/-- Admits a transaction on the ledger itself. -/
def admitInPlace : Attempt Ledger Fee.AdmissionError Fee.Assessment := do
  let before ← get
  let a ← ofExcept (Fee.compute schedule store before.registry tx)
  if !Bank.hasAtLeast before tx.feePayer a.total then fail (.insufficientFunds a.total)
  else if a.systemFees.isEmpty then pure a
  else do
    change fun l => (Bank.sendToModule l tx.feePayer Fee.collector a.systemFees).mapError
      Fee.AdmissionError.feeTransfer
    return a

/-- Carries out a transaction on the ledger itself: whatever was done before a refusal stays done.
-/
def executeInPlace : Attempt Ledger Rejection Fee.Assessment := do
  let a ← mapError Rejection.admission (admitInPlace schedule store tx)
  applyFrom 0 tx.messages
  return a

end

section

variable {schedule : Fee.Schedule} {store : Store} {tx : Transaction} {l l' : Ledger}

/-- Admission in place does what admission on a copy does, and leaves a ledger alone that it
refuses. -/
theorem run_admitInPlace :
    (admitInPlace schedule store tx).run l =
      match Fee.assess schedule store l.registry l tx with
      | .error e => (.error e, l)
      | .ok admission => (.ok admission.assessment, admission.bank) := by
  unfold admitInPlace Fee.assess
  -- Both read the same price. Then they ask for the coins, and for surcharges to be moved, in turn.
  simp only [run_bind, run_get, run_ofExcept]
  cases Fee.compute schedule store l.registry tx with
  | error e => rfl
  | ok a =>
    dsimp only
    split
    · rfl
    split
    · rfl
    rw [run_bind, run_change]
    cases Bank.sendToModule l tx.feePayer Fee.collector a.systemFees <;> rfl

/-- A transaction has the same outcome on a copy of the ledger, and a success the same ledger. -/
theorem execute_eq_inPlace :
    execute schedule store tx l =
      match (executeInPlace schedule store tx).run l with
      | (.error reason, _) => .error reason
      | (.ok a, after) => .ok (a, after) := by
  unfold execute executeInPlace
  rw [run_bind, run_mapError, run_admitInPlace]
  cases Fee.assess schedule store l.registry l tx with
  | error e => rfl
  | ok admission =>
    dsimp only [Except.mapError]
    rw [run_bind]
    cases (applyFrom 0 tx.messages).run admission.bank with
    | mk r after => cases r <;> rfl

/-- A transaction that succeeds has moved its surcharges to the collector, and then carried out all
of its messages. -/
theorem executeInPlace_eq_ok {a : Fee.Assessment}
    (h : (executeInPlace schedule store tx).run l = (.ok a, l')) :
    ∃ bank, l.transfer tx.feePayer (Address.ofModule Fee.collector) a.systemFees = .ok bank ∧
      (applyFrom 0 tx.messages).run bank = (.ok (), l') := by
  have hexecute : execute schedule store tx l = .ok (a, l') := by rw [execute_eq_inPlace, h]
  obtain ⟨bank, hassess, hmessages⟩ := execute_eq_ok_iff.1 hexecute
  exact ⟨bank, Fee.transfer_of_assess hassess, hmessages⟩

/-- A transaction that fails in the store does so for the type of one of its messages, and before it
has touched the ledger. -/
theorem executeInPlace_storage_error {e : StorageError}
    (h : (executeInPlace schedule store tx).run l = (.error (.admission (.storage e)), l')) :
    l' = l ∧ ∃ m ∈ tx.messages, Fee.Exclusions.contains store m.typeUrl = .error e := by
  have hexecute : execute schedule store tx l = .error (.admission (.storage e)) := by
    rw [execute_eq_inPlace, h]
  have hassess := execute_storage_error hexecute
  refine ⟨?_, Fee.assess_storage_error hassess⟩
  -- The ledger is the one that the admission was refused on.
  unfold executeInPlace at h
  rw [run_bind, run_mapError, run_admitInPlace, hassess] at h
  exact (Prod.mk.inj h).2.symm

end

/-! ## The transactions of a block -/

section

variable (schedule : Fee.Schedule) (storeAt : Nat → Store)

/-- Processes transactions on the ledger itself, the first of which has the given position. A
transaction reads the store as it is at its position. -/
def processInPlace (index : Nat) : List Transaction → Attempt Ledger ConsensusFault Tally
  | [] => pure Tally.empty
  | tx :: rest => fun snapshot =>
    match (executeInPlace schedule (storeAt index) tx).run snapshot with
    | (.ok a, next) =>
      (processInPlace (index + 1) rest >>= fun t => pure (t.addAdmitted a)).run next
    -- The ledger is left as it is.
    | (.error (.admission (.storage e)), touched) => (.error (.storage e), touched)
    | (.error reason, _) =>
      (processInPlace (index + 1) rest >>= fun t => pure (t.addRejected index reason)).run snapshot

/-- Transactions are done with, one after the other: each of them has moved its surcharges and
carried out all of its messages, or it has been turned down and has no effect, however far it got.
-/
inductive Settled : Nat → List Transaction → Ledger → Ledger → Prop
  | none (index : Nat) (l : Ledger) : Settled index [] l l
  | carriedOut {index : Nat} {tx : Transaction} {rest : List Transaction}
    {l bank next l' : Ledger} {a : Fee.Assessment}
    (hrun : (executeInPlace schedule (storeAt index) tx).run l = (.ok a, next))
    (hpaid : l.transfer tx.feePayer (Address.ofModule Fee.collector) a.systemFees = .ok bank)
    (hmessages : (applyFrom 0 tx.messages).run bank = (.ok (), next))
    (hrest : Settled (index + 1) rest next l') : Settled index (tx :: rest) l l'
  | turnedDown {index : Nat} {tx : Transaction} {rest : List Transaction}
    {l touched l' : Ledger} {reason : Rejection}
    (hrun : (executeInPlace schedule (storeAt index) tx).run l = (.error reason, touched))
    (hreason : ∀ e, reason ≠ .admission (.storage e))
    (hrest : Settled (index + 1) rest l l') : Settled index (tx :: rest) l l'

/-- The transactions end early: those in front of one of them are done with, and this one fails in
the store, with the ledger that it leaves behind. -/
def EndsEarly (index : Nat) (txs : List Transaction) (l l' : Ledger) (e : StorageError) : Prop :=
  ∃ done tx rest before, txs = done ++ tx :: rest ∧
    Settled schedule storeAt index done l before ∧
    (executeInPlace schedule (storeAt (index + done.length)) tx).run before =
      (.error (.admission (.storage e)), l')

end

section

variable {schedule : Fee.Schedule} {storeAt : Nat → Store}

/-- The first transaction of several decides how the others are processed, and on which ledger. -/
theorem run_processInPlace_cons (index : Nat) (tx : Transaction) (rest : List Transaction)
    (l : Ledger) :
    (processInPlace schedule storeAt index (tx :: rest)).run l =
      match (executeInPlace schedule (storeAt index) tx).run l with
      | (.ok a, next) =>
        (processInPlace schedule storeAt (index + 1) rest >>= fun t =>
          pure (t.addAdmitted a)).run next
      | (.error (.admission (.storage e)), touched) => (.error (.storage e), touched)
      | (.error reason, _) =>
        (processInPlace schedule storeAt (index + 1) rest >>= fun t =>
          pure (t.addRejected index reason)).run l := rfl

/-- On a store that stays as it is, the transactions of a block may be carried out in place: at a
failure of the store, there is nothing to put back. -/
theorem processFrom_eq_inPlace (store : Store) (index : Nat) (txs : List Transaction) :
    processFrom schedule store index txs = processInPlace schedule (fun _ => store) index txs := by
  -- By induction on the transactions. Only a failure of the store tells the two apart.
  induction txs generalizing index with
  | nil => rfl
  | cons tx rest ih =>
    funext l
    show (processFrom schedule store index (tx :: rest)).run l =
      (processInPlace schedule (fun _ => store) index (tx :: rest)).run l
    rw [processFrom, run_processInPlace_cons, run_bind, run_get]
    dsimp only
    rw [execute_eq_inPlace, ih]
    cases hrun : (executeInPlace schedule store tx).run l with
    | mk r touched =>
      cases r with
      | ok a => rfl
      | error reason =>
        cases reason with
        | execution position e => rfl
        | admission e =>
          cases e with
          | storage e =>
            obtain ⟨huntouched, -⟩ := executeInPlace_storage_error hrun
            rw [huntouched]
            rfl
          | _ => rfl

/-- Several transactions end early if the first one fails in the store, or the ones behind it end
early: on the ledger that it leaves behind if it succeeds, and on the one in front of it if it is
turned down. -/
theorem endsEarly_cons_iff {index : Nat} {tx : Transaction} {rest : List Transaction}
    {l l' : Ledger} {e : StorageError} :
    EndsEarly schedule storeAt index (tx :: rest) l l' e ↔
      (executeInPlace schedule (storeAt index) tx).run l =
        (.error (.admission (.storage e)), l') ∨
      (∃ a next, (executeInPlace schedule (storeAt index) tx).run l = (.ok a, next) ∧
        EndsEarly schedule storeAt (index + 1) rest next l' e) ∨
      ∃ reason touched,
        (executeInPlace schedule (storeAt index) tx).run l = (.error reason, touched) ∧
        (∀ e, reason ≠ .admission (.storage e)) ∧
        EndsEarly schedule storeAt (index + 1) rest l l' e := by
  -- Positions behind the first transaction may be counted from either end of it.
  have hposition : ∀ done : List Transaction,
      index + (tx :: done).length = index + 1 + done.length := by
    intro done
    rw [List.length_cons]
    omega
  constructor
  · rintro ⟨done, last, others, before, htxs, hdone, hlast⟩
    cases hdone with
    | none => cases htxs; exact .inl hlast
    | @carriedOut _ _ done _ _ _ _ _ hrun hpaid hmessages hdone =>
      cases htxs
      rw [hposition] at hlast
      exact .inr (.inl ⟨_, _, hrun, done, last, others, before, rfl, hdone, hlast⟩)
    | @turnedDown _ _ done _ _ _ _ hrun hreason hdone =>
      cases htxs
      rw [hposition] at hlast
      exact .inr (.inr ⟨_, _, hrun, hreason, done, last, others, before, rfl, hdone, hlast⟩)
  · rintro (hlast | ⟨a, next, hrun, done, last, others, before, rfl, hdone, hlast⟩ |
      ⟨reason, touched, hrun, hreason, done, last, others, before, rfl, hdone, hlast⟩)
    · exact ⟨[], tx, rest, l, rfl, .none index l, hlast⟩
    · obtain ⟨bank, hpaid, hmessages⟩ := executeInPlace_eq_ok hrun
      rw [← hposition] at hlast
      exact ⟨tx :: done, last, others, before, rfl, .carriedOut hrun hpaid hmessages hdone, hlast⟩
    · rw [← hposition] at hlast
      exact ⟨tx :: done, last, others, before, rfl, .turnedDown hrun hreason hdone, hlast⟩

/-- The transactions of a block end it with a fault exactly if one of them fails in the store. -/
theorem processInPlace_eq_error_iff {index : Nat} {txs : List Transaction} {l l' : Ledger}
    {fault : ConsensusFault} :
    (processInPlace schedule storeAt index txs).run l = (.error fault, l') ↔
      ∃ e, fault = .storage e ∧ EndsEarly schedule storeAt index txs l l' e := by
  -- By induction on the transactions: the cases of the first one are those of an early end.
  induction txs generalizing index l with
  | nil =>
    constructor
    · intro h
      cases h
    · rintro ⟨e, -, done, tx, rest, before, htxs, -⟩
      exact absurd htxs.symm (List.append_ne_nil_of_right_ne_nil done (List.cons_ne_nil tx rest))
  | cons tx rest ih =>
    rw [run_processInPlace_cons]
    simp only [endsEarly_cons_iff]
    cases hrun : (executeInPlace schedule (storeAt index) tx).run l with
    | mk r touched =>
      cases r with
      | ok a =>
        dsimp only
        rw [run_bind_pure_eq_error, ih]
        simp
      | error reason =>
        cases reason with
        | execution position e =>
          dsimp only
          rw [run_bind_pure_eq_error, ih]
          simp
        | admission e =>
          cases e with
          | storage e =>
            -- This is the transaction that fails, and there is no other way for it to go.
            simp [eq_comm]
          | _ =>
            dsimp only
            rw [run_bind_pure_eq_error, ih]
            simp

/-- No transaction of a block that goes on to its end has been turned down for the store. -/
theorem reason_of_processInPlace {index : Nat} {txs : List Transaction} {l l' : Ledger}
    {tally : Tally} (h : (processInPlace schedule storeAt index txs).run l = (.ok tally, l')) :
    ∀ r ∈ tally.rejected, ∀ e, r.2 ≠ .admission (.storage e) := by
  -- By induction on the transactions. A rejection is recorded only for another reason.
  induction txs generalizing index l tally with
  | nil =>
    cases h
    intro r hr
    cases hr
  | cons tx rest ih =>
    rw [run_processInPlace_cons] at h
    split at h
    · next a next hrun =>
      obtain ⟨t, _, hrest, hpure⟩ := run_bind_eq_ok.1 h
      obtain ⟨rfl, rfl⟩ := run_pure_eq_ok.1 hpure
      intro r hr
      exact ih hrest r hr
    · cases h
    · next reason touched hreason hrun =>
      obtain ⟨t, _, hrest, hpure⟩ := run_bind_eq_ok.1 h
      obtain ⟨rfl, rfl⟩ := run_pure_eq_ok.1 hpure
      intro r hr e
      obtain rfl | hr := List.mem_cons.1 hr
      · exact hreason e
      · exact ih hrest r hr e

end

/-! ## Blocks -/

/-- The store at the position of a transaction: its medium is the one that the given changes have
made of it by then. -/
def storeDuring (media : Nat → Medium → Medium) (s : Store) (position : Nat) : Store :=
  { s with medium := media position s.medium }

/-- Processes a block in place, with the media that its transactions meet. -/
def processBlockInPlace (media : Nat → Medium → Medium) (height : UInt64) (time : BlockTime)
    (txs : List Transaction) : Attempt Chain ConsensusFault Outcome := do
  let (mint, schedule) ← openBlock height time
  let chain ← get
  let tally ← within Chain.ledger (fun l c => { c with ledger := l })
    (processInPlace schedule (storeDuring media chain.store) 0 txs)
  return ⟨height, time, mint, tally⟩

/-- A block is processed in place as it is on copies, with a medium that stays as it is. -/
theorem processBlock_eq_inPlace (height : UInt64) (time : BlockTime) (txs : List Transaction) :
    processBlock height time txs = processBlockInPlace (fun _ m => m) height time txs := by
  unfold processBlock processBlockInPlace
  simp only [processFrom_eq_inPlace]
  rfl

section

variable {media : Nat → Medium → Medium} {height : UInt64} {time : BlockTime}
  {txs : List Transaction} {c c' : Chain} {fault : ConsensusFault}

/-- A block that cannot be opened has the ledger from before it, or the one behind minting. -/
theorem openBlock_eq_error (h : (openBlock height time).run c = (.error fault, c')) :
    c'.ledger = c.ledger ∨
    ∃ params mint w, loadParams c = .ok params ∧
      (Mint.beginBlock height time params.mint).run (world c) = (.ok mint, w) ∧
      c'.ledger = w.bank := by
  obtain hend | ⟨params, _, hrunParams, h⟩ := run_bind_eq_error.1 h
  · obtain ⟨-, rfl⟩ := run_read_eq_error.1 hend
    exact .inl rfl
  obtain ⟨hparams, rfl⟩ := run_read_eq_ok.1 hrunParams
  obtain hend | ⟨mint, _, hrunMint, h⟩ := run_bind_eq_error.1 h
  · -- Minting has been refused, and has moved nothing.
    rw [run_within] at hend
    obtain ⟨hmint, rfl⟩ := Prod.mk.inj hend
    exact .inl (Mint.beginBlock_refused (Prod.ext hmint rfl))
  obtain ⟨w, hmint, rfl⟩ := run_within_eq_ok.1 hrunMint
  rw [run_bind_pure_eq_error] at h
  obtain ⟨-, rfl⟩ := run_ofExcept_eq_error.1 h
  exact .inr ⟨params, mint, w, hparams, hmint, rfl⟩

/-- A block that ends with a fault has met it before its transactions, with the ledger from before
the block or the one behind minting, or among them. -/
theorem processBlockInPlace_eq_error
    (h : (processBlockInPlace media height time txs).run c = (.error fault, c')) :
    c'.ledger = c.ledger ∨
    ∃ params mint w, loadParams c = .ok params ∧
      (Mint.beginBlock height time params.mint).run (world c) = (.ok mint, w) ∧
      (c'.ledger = w.bank ∨
      ∃ schedule, Fee.Schedule.ofParams params.fee = .ok schedule ∧
        (processInPlace schedule (storeDuring media w.store) 0 txs).run w.bank =
          (.error fault, c'.ledger)) := by
  -- The opening fails, or the transactions do; reading the chain in between does not.
  obtain hend | ⟨⟨mint, schedule⟩, opened, hopen, h⟩ := run_bind_eq_error.1 h
  · obtain hbefore | ⟨params, mint, w, hparams, hmint, hminted⟩ := openBlock_eq_error hend
    · exact .inl hbefore
    · exact .inr ⟨params, mint, w, hparams, hmint, .inl hminted⟩
  obtain ⟨params, hparams, hmint, hschedule⟩ := openBlock_eq_ok_iff.1 hopen
  obtain hend | ⟨_, _, hget, h⟩ := run_bind_eq_error.1 h
  · cases hend
  cases hget
  rw [run_bind_pure_eq_error, run_within] at h
  obtain ⟨htxs, rfl⟩ := Prod.mk.inj h
  exact .inr ⟨params, mint, world opened, hparams, hmint, .inr ⟨schedule, hschedule,
    Prod.ext htxs rfl⟩⟩

/-- A fault among the transactions of a block is the fault of the block. -/
theorem processBlockInPlace_of_error {params : Governance.Params} {mint : Mint.Outcome}
    {w : Mint.World Ledger} {schedule : Fee.Schedule} {l : Ledger}
    (hparams : loadParams c = .ok params)
    (hmint : (Mint.beginBlock height time params.mint).run (world c) = (.ok mint, w))
    (hschedule : Fee.Schedule.ofParams params.fee = .ok schedule)
    (htxs : (processInPlace schedule (storeDuring media w.store) 0 txs).run w.bank =
      (.error fault, l)) :
    (processBlockInPlace media height time txs).run c = (.error fault, ⟨w.store, l⟩) := by
  have hopen : (openBlock height time).run c = (.ok (mint, schedule), ⟨w.store, w.bank⟩) :=
    openBlock_eq_ok_iff.2 ⟨params, hparams, hmint, hschedule⟩
  refine run_bind_eq_error.2 (.inr ⟨_, _, hopen, ?_⟩)
  refine run_bind_eq_error.2 (.inr ⟨⟨w.store, w.bank⟩, ⟨w.store, w.bank⟩, rfl, ?_⟩)
  rw [run_bind_pure_eq_error, run_within]
  dsimp only
  rw [htxs]

/-- The tally of a successful block is the one of its transactions. -/
theorem tally_of_processBlockInPlace {o : Outcome}
    (h : (processBlockInPlace media height time txs).run c = (.ok o, c')) :
    ∃ schedule store l, (processInPlace schedule (storeDuring media store) 0 txs).run l =
      (.ok o.tally, c'.ledger) := by
  obtain ⟨⟨mint, schedule⟩, _, -, h⟩ := run_bind_eq_ok.1 h
  obtain ⟨chain, _, hget, h⟩ := run_bind_eq_ok.1 h
  cases hget
  obtain ⟨tally, _, hrunTxs, h⟩ := run_bind_eq_ok.1 h
  obtain ⟨l, htxs, rfl⟩ := run_within_eq_ok.1 hrunTxs
  obtain ⟨rfl, rfl⟩ := run_pure_eq_ok.1 h
  exact ⟨schedule, _, _, htxs⟩

end

/-- Blocks of any chain, processed in place, on a medium that may fail wherever and whenever it
likes. A block that ends with a fault leaves the ledger from before the block, or the one behind
minting, or the one behind minting and those transactions in front of the one that failed, each of
them carried out or without effect; the one that failed has not touched the ledger. A block that
goes on to its end has turned down no transaction for the store: one that fails in the store ends
its block with this fault. -/
theorem fault_shows_whole_transactions (media : Nat → Medium → Medium) (height : UInt64)
    (time : BlockTime) (txs : List Transaction) (c : Chain) :
    processBlock height time txs = processBlockInPlace (fun _ m => m) height time txs ∧
    (∀ fault c', (processBlockInPlace media height time txs).run c = (.error fault, c') →
      c'.ledger = c.ledger ∨
      ∃ params mint w, loadParams c = .ok params ∧
        (Mint.beginBlock height time params.mint).run (world c) = (.ok mint, w) ∧
        (c'.ledger = w.bank ∨
        ∃ schedule done tx rest e, Fee.Schedule.ofParams params.fee = .ok schedule ∧
          txs = done ++ tx :: rest ∧
          Settled schedule (storeDuring media w.store) 0 done w.bank c'.ledger ∧
          (executeInPlace schedule (storeDuring media w.store done.length) tx).run c'.ledger =
            (.error (.admission (.storage e)), c'.ledger) ∧ fault = .storage e)) ∧
    (∀ o c', (processBlockInPlace media height time txs).run c = (.ok o, c') →
      ∀ r ∈ o.tally.rejected, ∀ e, r.2 ≠ .admission (.storage e)) ∧
    ∀ params mint w schedule l e, loadParams c = .ok params →
      (Mint.beginBlock height time params.mint).run (world c) = (.ok mint, w) →
      Fee.Schedule.ofParams params.fee = .ok schedule →
      EndsEarly schedule (storeDuring media w.store) 0 txs w.bank l e →
      (processBlockInPlace media height time txs).run c = (.error (.storage e), ⟨w.store, l⟩) := by
  refine ⟨processBlock_eq_inPlace height time txs, fun fault c' h => ?_, fun o c' h => ?_, ?_⟩
  · obtain hbefore | ⟨params, mint, w, hparams, hmint, hend⟩ := processBlockInPlace_eq_error h
    · exact .inl hbefore
    refine .inr ⟨params, mint, w, hparams, hmint, ?_⟩
    obtain hminted | ⟨schedule, hschedule, htxs⟩ := hend
    · exact .inl hminted
    obtain ⟨e, hfault, done, tx, rest, before, hsplit, hdone, hlast⟩ :=
      processInPlace_eq_error_iff.1 htxs
    -- The ledger that the transaction in place has left behind is the one that it has found.
    rw [Nat.zero_add] at hlast
    obtain ⟨huntouched, -⟩ := executeInPlace_storage_error hlast
    rw [← huntouched] at hdone hlast
    exact .inr ⟨schedule, done, tx, rest, e, hschedule, hsplit, hdone, hlast, hfault⟩
  · obtain ⟨schedule, store, l, htxs⟩ := tally_of_processBlockInPlace h
    exact reason_of_processInPlace htxs
  · intro params mint w schedule l e hparams hmint hschedule hend
    exact processBlockInPlace_of_error hparams hmint hschedule
      (processInPlace_eq_error_iff.2 ⟨e, rfl, hend⟩)

/-- A medium that loses all that is on it before the transaction at position 2. -/
def Sample.mediaLost (position : Nat) (m : Medium) : Medium :=
  let lost : Bytes → Option String := fun _ => some "bad sector"
  if position = 2 then { m with readFailure := lost } else m

/-- Of three payments, the first one is made, the second one is taken back for the message behind
it, and the third one fails in the store, which ends the block. -/
theorem fault_shows_whole_transactions_sample :
    ∃ c', (processBlockInPlace Sample.mediaLost 1 ⟨0⟩
        [Sample.payment 100, Sample.halfway, Sample.payment 50]).run Sample.chain =
          (.error (.storage (.corrupt (Store.exclusionKey "bank/Send") (.medium "bad sector"))),
            c') ∧
      (c'.ledger.balance (Sample.account 2)).amountOf "utoll" = 100 ∧
      ∃ schedule store done tx rest, [Sample.payment 100, Sample.halfway, Sample.payment 50] =
          done ++ tx :: rest ∧
        Settled schedule (storeDuring Sample.mediaLost store) 0 done Sample.chain.ledger
          c'.ledger := by
  -- The transactions are given a name, so that they are evaluated where this is wanted only.
  generalize htxs : [Sample.payment 100, Sample.halfway, Sample.payment 50] = txs
  obtain ⟨c', hrun⟩ : ∃ c', (processBlockInPlace Sample.mediaLost 1 ⟨0⟩ txs).run Sample.chain =
      (.error (.storage (.corrupt (Store.exclusionKey "bank/Send") (.medium "bad sector"))), c') :=
    exists_run_eq_error (by rw [← htxs]; decide +kernel)
  have hpaid : (c'.ledger.balance (Sample.account 2)).amountOf "utoll" = 100 := by
    have h : (((processBlockInPlace Sample.mediaLost 1 ⟨0⟩ txs).run Sample.chain).2.ledger.balance
      (Sample.account 2)).amountOf "utoll" = 100 := by rw [← htxs]; decide +kernel
    rw [hrun] at h
    exact h
  refine ⟨c', hrun, hpaid, ?_⟩
  -- The payment is not in the ledger from before the block, which minting has not changed.
  have hnew : c'.ledger ≠ Sample.chain.ledger := by
    intro hsame
    have hunpaid : (Sample.chain.ledger.balance (Sample.account 2)).amountOf "utoll" = 0 := by
      decide +kernel
    rw [hsame, hunpaid] at hpaid
    cases hpaid
  obtain ⟨-, hledger, -⟩ :=
    fault_shows_whole_transactions Sample.mediaLost 1 ⟨0⟩ txs Sample.chain
  obtain hbefore | ⟨params, mint, w, -, hmint, hend⟩ := hledger _ _ hrun
  · exact absurd hbefore hnew
  obtain ⟨-, -, -, hbank, -⟩ := Mint.beginBlock_one_eq_ok hmint
  obtain hminted | ⟨schedule, done, tx, rest, e, -, hsplit, hdone, -, -⟩ := hend
  · exact absurd (hminted.trans hbank) hnew
  · rw [hbank] at hdone
    exact ⟨schedule, w.store, done, tx, rest, hsplit, hdone⟩

end ChainEconomy.Chain
