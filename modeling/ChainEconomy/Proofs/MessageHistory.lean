import ChainEconomy.Proofs.RejectionTraceless

/-!
# What has been done on a chain

The ledger of a chain shows what all messages together have come to. Their history is the list of
the messages that were carried out, each between the ledger in front of it and the one behind it.
Messages of a transaction that was turned down afterwards are part of it, marked as such: they did
what they did on a ledger that was then given up.

## Key results

- `Deed`, `history`, `lasting`: the messages that were carried out in a sequence of steps
- `lasting_of_processBlock`: the messages that last in a block are those of admitted transactions
- `history_done`: every deed is what its message does, and kept properties hold in front of it
- `UsesUp.history`: messages that use something up are no more than there was of it
-/

namespace ChainEconomy.Chain

/-- A message that was carried out, with the ledgers in front of it and behind it. It lasts unless
its transaction was turned down afterwards. -/
structure Deed where
  message : Message
  before : Ledger
  after : Ledger
  lasting : Bool

/-- The messages that are carried out one after the other, up to the first that is refused. -/
def deedsOf (lasting : Bool) : List Message → Ledger → List Deed
  | [], _ => []
  | m :: rest, l =>
    match (Ledger.apply m).run l with
    | (.error _, _) => []
    | (.ok (), after) => ⟨m, l, after, lasting⟩ :: deedsOf lasting rest after

/-- The messages of a transaction that are carried out, once its surcharges have been collected. -/
def transactionDeeds (schedule : Fee.Schedule) (store : Store) (lasting : Bool) (tx : Transaction)
    (l : Ledger) : List Deed :=
  match Fee.assess schedule store l.registry l tx with
  | .error _ => []
  | .ok admission => deedsOf lasting tx.messages admission.bank

/-- The messages that are carried out while transactions are processed. -/
def deedsFrom (schedule : Fee.Schedule) (store : Store) : List Transaction → Ledger → List Deed
  | [], _ => []
  | tx :: rest, l =>
    match execute schedule store tx l with
    | .ok (_, after) =>
      transactionDeeds schedule store true tx l ++ deedsFrom schedule store rest after
    -- The store cannot be read, which ends the block.
    | .error (.admission (.storage _)) => []
    | .error _ => transactionDeeds schedule store false tx l ++ deedsFrom schedule store rest l

/-! ## Blocks -/

/-- The messages that are carried out in a step. -/
def deedsIn (c : Chain) : Step → List Deed
  | .block height time txs =>
    match (openBlock height time).run c with
    | (.error _, _) => []
    | (.ok (_, schedule), opened) => deedsFrom schedule opened.store txs opened.ledger
  | .proposal _ | .medium _ => []

/-- The messages that are carried out in several steps. -/
def history (c : Chain) : List Step → List Deed
  | [] => []
  | step :: rest => c.deedsIn step ++ history (c.next step) rest

/-- The messages whose deeds last. -/
def lasting (deeds : List Deed) : List Message := (deeds.filter Deed.lasting).map Deed.message

/-! ## Messages that last -/

/-- What lasts of two lists of deeds is what lasts of each. -/
theorem lasting_append (deeds others : List Deed) :
    lasting (deeds ++ others) = lasting deeds ++ lasting others := by
  rw [lasting, List.filter_append, List.map_append]
  rfl

/-- Nothing lasts of a transaction that is turned down, however far it gets. -/
theorem lasting_deedsOf_false (messages : List Message) (l : Ledger) :
    lasting (deedsOf false messages l) = [] := by
  -- By induction on the messages.
  induction messages generalizing l with
  | nil => rfl
  | cons m rest ih =>
    rw [deedsOf]
    split
    · rfl
    · exact ih _

/-- All messages last if all of them succeed. -/
theorem lasting_deedsOf_true {index : Nat} {messages : List Message} {l l' : Ledger}
    (h : (applyFrom index messages).run l = (.ok (), l')) :
    lasting (deedsOf true messages l) = messages := by
  -- By induction on the messages: the run goes on behind each of them.
  induction messages generalizing index l with
  | nil => rfl
  | cons m rest ih =>
    obtain ⟨t, hm, hrest⟩ := applyFrom_cons_eq_ok.1 h
    rw [deedsOf, hm]
    exact congrArg (m :: ·) (ih hrest)

section

variable {schedule : Fee.Schedule} {store : Store} {tx : Transaction} {l l' : Ledger}

/-- Nothing lasts of a transaction that has not been admitted. -/
theorem lasting_transactionDeeds_false :
    lasting (transactionDeeds schedule store false tx l) = [] := by
  unfold transactionDeeds
  split
  · rfl
  · exact lasting_deedsOf_false _ _

/-- The messages of an admitted transaction last. -/
theorem lasting_transactionDeeds_true {a : Fee.Assessment}
    (h : execute schedule store tx l = .ok (a, l')) :
    lasting (transactionDeeds schedule store true tx l) = tx.messages := by
  obtain ⟨bank, hassess, hrun⟩ := execute_eq_ok_iff.1 h
  rw [transactionDeeds, hassess]
  exact lasting_deedsOf_true hrun

end

/-- The first of several transactions is admitted, and its messages last; or it ends the block; or
it is rejected, and nothing of it lasts. -/
inductive Handled (schedule : Fee.Schedule) (store : Store) (index : Nat) (tx : Transaction)
    (rest : List Transaction) (l : Ledger) : Prop
  | admitted (a : Fee.Assessment) (after : Ledger)
    (hexecute : execute schedule store tx l = .ok (a, after))
    (hlasting : lasting (deedsFrom schedule store (tx :: rest) l) =
      tx.messages ++ lasting (deedsFrom schedule store rest after))
    (hrun : (processFrom schedule store index (tx :: rest)).run l =
      (((processFrom schedule store (index + 1) rest).run after).1.map (Tally.addAdmitted a),
        ((processFrom schedule store (index + 1) rest).run after).2))
  | fault (e : StorageError) (hlasting : lasting (deedsFrom schedule store (tx :: rest) l) = [])
    (hrun : (processFrom schedule store index (tx :: rest)).run l = (.error (.storage e), l))
  | rejected (reason : Rejection)
    (hlasting : lasting (deedsFrom schedule store (tx :: rest) l) =
      lasting (deedsFrom schedule store rest l))
    (hrun : (processFrom schedule store index (tx :: rest)).run l =
      (((processFrom schedule store (index + 1) rest).run l).1.map (Tally.addRejected index reason),
        ((processFrom schedule store (index + 1) rest).run l).2))

/-- There are these three ways only in which the first of several transactions is handled. They say
the same about the deeds that last as they say about the run, so that both can be followed together.
-/
theorem handled (schedule : Fee.Schedule) (store : Store) (index : Nat) (tx : Transaction)
    (rest : List Transaction) (l : Ledger) : Handled schedule store index tx rest l := by
  -- Whatever becomes of the first transaction, its mark is put on the tally of the others.
  have hrun : ∀ (l : Ledger) (f : Tally → Tally),
      Attempt.run (do return f (← processFrom schedule store (index + 1) rest)) l =
        (((processFrom schedule store (index + 1) rest).run l).1.map f,
          ((processFrom schedule store (index + 1) rest).run l).2) := fun l f => by
    rw [Attempt.run_bind]
    cases (processFrom schedule store (index + 1) rest).run l with
    | mk tally l' => cases tally <;> rfl
  cases hexecute : execute schedule store tx l with
  | ok admitted =>
    obtain ⟨a, after⟩ := admitted
    refine .admitted a after hexecute ?_ ?_
    · rw [deedsFrom, hexecute]
      dsimp only
      rw [lasting_append, lasting_transactionDeeds_true hexecute]
    · rw [processFrom, Attempt.run_bind, Attempt.run_get]
      dsimp only
      rw [hexecute]
      exact hrun after _
  | error reason =>
    -- Of all refusals, only a store that cannot be read ends the loop.
    by_cases hstorage : ∃ e, reason = .admission (.storage e)
    · obtain ⟨e, rfl⟩ := hstorage
      refine .fault e ?_ ?_
      · rw [deedsFrom, hexecute]
        rfl
      · rw [processFrom, Attempt.run_bind, Attempt.run_get]
        dsimp only
        rw [hexecute]
        rfl
    · refine .rejected reason ?_ ?_
      · rw [deedsFrom, hexecute]
        split
        · next h => cases h
        · next e h => exact absurd ⟨e, Except.error.inj h⟩ hstorage
        · rw [lasting_append, lasting_transactionDeeds_false, List.nil_append]
      · rw [processFrom, Attempt.run_bind, Attempt.run_get]
        dsimp only
        rw [hexecute]
        split
        · next h => cases h
        · next e h => exact absurd ⟨e, Except.error.inj h⟩ hstorage
        · next h =>
          cases h
          exact hrun l _

/-- The messages that last while transactions are processed without a fault are those of the
transactions that have not been rejected. -/
theorem lasting_deedsFrom {schedule : Fee.Schedule} {store : Store} {index : Nat}
    {txs : List Transaction} {l l' : Ledger} {tally : Tally}
    (h : (processFrom schedule store index txs).run l = (.ok tally, l')) :
    lasting (deedsFrom schedule store txs l) =
      (keptFrom index tally.rejected txs).flatMap Transaction.messages := by
  -- By induction on the transactions, with the position of the first one.
  induction txs generalizing index l tally with
  | nil => rfl
  | cons tx rest ih =>
    cases handled schedule store index tx rest l with
    | admitted a after _ hlasting hrun =>
      obtain ⟨hok, hstate⟩ := Prod.mk.inj (hrun.symm.trans h)
      obtain ⟨t, hrest, rfl⟩ := Except.map_eq_ok_iff.1 hok
      have hthen : (processFrom schedule store (index + 1) rest).run after = (.ok t, l') :=
        Prod.ext hrest hstate
      -- All listed positions come later, so that the transaction is one of those kept.
      have hkept := keptFrom_cons_of_lt (fun r hr => le_of_mem_rejected hthen hr) tx rest
      rw [hlasting, ih hthen]
      exact (congrArg (List.flatMap Transaction.messages) hkept).symm
    | fault e _ hrun =>
      -- A fault leaves no tally behind.
      cases hrun.symm.trans h
    | rejected reason hlasting hrun =>
      -- The transaction is listed under its own position, and the others go on from `l`.
      obtain ⟨hok, hstate⟩ := Prod.mk.inj (hrun.symm.trans h)
      obtain ⟨t, hrest, rfl⟩ := Except.map_eq_ok_iff.1 hok
      have hdropped := keptFrom_cons_of_listed index reason t.rejected tx rest
      rw [hlasting, ih (Prod.ext hrest hstate)]
      exact (congrArg (List.flatMap Transaction.messages) hdropped).symm

/-- The messages that last in a block without a fault are those of the transactions that have not
been rejected. -/
theorem lasting_of_processBlock {height : UInt64} {time : BlockTime} {txs : List Transaction}
    {c c' : Chain} {o : Outcome} (h : (processBlock height time txs).run c = (.ok o, c')) :
    lasting (c.deedsIn (.block height time txs)) =
      (o.tally.kept txs).flatMap Transaction.messages := by
  -- The block is opened in the same way for both sides.
  rw [run_processBlock] at h
  rw [deedsIn]
  cases hopen : (openBlock height time).run c with
  | mk r opened =>
    rw [hopen] at h
    cases r with
    | error e => cases h
    | ok start =>
      obtain ⟨mint, schedule⟩ := start
      dsimp only at h ⊢
      cases hrun : (processFrom schedule opened.store 0 txs).run opened.ledger with
      | mk r l =>
        rw [hrun] at h
        cases r with
        | error e => cases h
        | ok tally =>
          cases h
          exact lasting_deedsFrom hrun

/-! ## What holds in front of every deed -/

/-- A deed is what its well-formed message does to the ledger in front of it, and the property holds
of that ledger. -/
structure Deed.Done (P : Ledger → Prop) (d : Deed) : Prop where
  checked : d.message.check = .ok ()
  run : (Ledger.apply d.message).run d.before = (.ok (), d.after)
  before : P d.before

section

variable {P : Ledger → Prop}

/-- Each message finds a ledger with the property, which those in front of it have kept. -/
theorem deedsOf_done (hP : TransactionKeeps P) {lasting : Bool} {messages : List Message}
    (hcheck : ∀ m ∈ messages, m.check = .ok ()) {l : Ledger} (hl : P l) :
    ∀ d ∈ deedsOf lasting messages l, d.Done P := by
  -- By induction on the messages. Behind the first one that is refused, nothing is done.
  induction messages generalizing l with
  | nil => exact fun d hd => nomatch hd
  | cons m rest ih =>
    obtain ⟨hm, hrest⟩ := List.forall_mem_cons.1 hcheck
    rw [deedsOf]
    split
    · exact fun d hd => nomatch hd
    · next after hrun =>
      exact List.forall_mem_cons.2 ⟨⟨hm, hrun, hl⟩, ih hrest (hP.message hm hrun hl)⟩

/-- Surcharges keep the property as well, in front of the first message. -/
theorem transactionDeeds_done (hP : TransactionKeeps P) {schedule : Fee.Schedule} {store : Store}
    {lasting : Bool} {tx : Transaction} {l : Ledger} (hl : P l) :
    ∀ d ∈ transactionDeeds schedule store lasting tx l, d.Done P := by
  unfold transactionDeeds
  split
  · exact fun d hd => nomatch hd
  · next admission hassess =>
    have hcheck : ∀ m ∈ tx.messages, m.check = .ok () := fun m hm =>
      Transaction.check_message (Fee.compute_eq_ok (Fee.assess_eq_ok hassess).1).1 hm
    exact deedsOf_done hP hcheck (hP.transfer (Fee.transfer_of_assess hassess) hl)

/-- Transactions one after the other keep the property, whatever becomes of them. -/
theorem deedsFrom_done (hP : TransactionKeeps P) {schedule : Fee.Schedule} {store : Store}
    {txs : List Transaction} {l : Ledger} (hl : P l) :
    ∀ d ∈ deedsFrom schedule store txs l, d.Done P := by
  -- By induction on the transactions.
  induction txs generalizing l with
  | nil => exact fun d hd => nomatch hd
  | cons tx rest ih =>
    -- A rejected transaction was tried on the ledger that the next one finds.
    rw [deedsFrom]
    split
    · next hexecute =>
      have hrest := ih (execute_keeps hP hexecute hl)
      exact List.forall_mem_append.2 ⟨transactionDeeds_done hP hl, hrest⟩
    · exact fun d hd => nomatch hd
    · exact List.forall_mem_append.2 ⟨transactionDeeds_done hP hl, ih hl⟩

/-- Opening a block keeps the property, and so do its transactions. Other steps do nothing. -/
theorem deedsIn_done (hP : LedgerKeeps P) {c : Chain} (hc : P c.ledger) (step : Step) :
    ∀ d ∈ c.deedsIn step, d.Done P := by
  cases step with
  | block height time txs =>
    rw [deedsIn]
    split
    · exact fun d hd => nomatch hd
    · next hopen =>
      exact deedsFrom_done hP.toTransactionKeeps
        ((openBlock_keeps ⟨hP.transfer, hP.mint⟩ height time).of_run hopen hc)
  | proposal p => exact fun d hd => nomatch hd
  | medium m => exact fun d hd => nomatch hd

/-- Every deed in the history of a chain is what its message does, and what all ledgers have in
common holds in front of it. -/
theorem history_done (hP : LedgerKeeps P) {c : Chain} (hc : P c.ledger) (steps : List Step) :
    ∀ d ∈ c.history steps, d.Done P := by
  -- By induction on the steps.
  induction steps generalizing c with
  | nil => exact fun d hd => nomatch hd
  | cons step rest ih =>
    rw [history]
    exact List.forall_mem_append.2 ⟨deedsIn_done hP hc step, ih (next_keeps hP c step hc)⟩

end

/-! ## What messages use up -/

/-- Messages of a kind use up some of what a ledger has, and nothing brings it back. -/
structure UsesUp (p : Message → Bool) (f : Ledger → Nat) : Prop where
  transfer : ∀ {l l' : Ledger} {source target : Address} {coins : CoinSet},
    l.transfer source target coins = .ok l' → f l' ≤ f l
  mint : ∀ {l : Ledger} (target : Address) (coins : CoinSet),
    f { l with balances := l.balances.credit target coins, supply := l.supply.add coins } ≤ f l
  message : ∀ {m : Message} {l l' : Ledger}, m.check = .ok () →
    (Ledger.apply m).run l = (.ok (), l') → (if p m then 1 else 0) + f l' ≤ f l

namespace UsesUp

variable {p : Message → Bool} {f : Ledger → Nat}

/-- What can only be used up never exceeds what it once was. -/
theorem keeps (h : UsesUp p f) (n : Nat) : LedgerKeeps fun l => f l ≤ n where
  transfer htransfer hl := Nat.le_trans (h.transfer htransfer) hl
  mint target coins hl := Nat.le_trans (h.mint target coins) hl
  message hm hrun hl := by
    have := h.message hm hrun
    omega

/-- Messages that succeed one after the other use up what each of them does. -/
theorem applyFrom (h : UsesUp p f) {index : Nat} {messages : List Message}
    (hcheck : ∀ m ∈ messages, m.check = .ok ()) {l l' : Ledger}
    (hrun : (applyFrom index messages).run l = (.ok (), l')) :
    messages.countP p + f l' ≤ f l := by
  -- By induction on the messages: what the first one uses up is not there for the others.
  induction messages generalizing index l with
  | nil => cases hrun; simp
  | cons m rest ih =>
    obtain ⟨hm, hothers⟩ := List.forall_mem_cons.1 hcheck
    obtain ⟨t, hfirst, hrest⟩ := applyFrom_cons_eq_ok.1 hrun
    have hone := h.message hm hfirst
    have hmore := ih hothers hrest
    rw [List.countP_cons]
    omega

/-- An admitted transaction uses up what its messages do. Surcharges bring nothing back. -/
theorem execute (h : UsesUp p f) {schedule : Fee.Schedule} {store : Store} {tx : Transaction}
    {a : Fee.Assessment} {l l' : Ledger} (hexecute : execute schedule store tx l = .ok (a, l')) :
    tx.messages.countP p + f l' ≤ f l := by
  obtain ⟨bank, hassess, hrun⟩ := execute_eq_ok_iff.1 hexecute
  have hcheck : ∀ m ∈ tx.messages, m.check = .ok () := fun m hm =>
    Transaction.check_message (Fee.compute_eq_ok (Fee.assess_eq_ok hassess).1).1 hm
  exact Nat.le_trans (h.applyFrom hcheck hrun) (h.transfer (Fee.transfer_of_assess hassess))

/-- Transactions of any outcome: what does not last uses nothing up. -/
theorem processFrom (h : UsesUp p f) (schedule : Fee.Schedule) (store : Store) (index : Nat)
    (txs : List Transaction) (l : Ledger) :
    (lasting (deedsFrom schedule store txs l)).countP p +
      f ((processFrom schedule store index txs).run l).2 ≤ f l := by
  -- By induction on the transactions, each of them handled in one of three ways.
  induction txs generalizing index l with
  | nil => exact Nat.le_of_eq (Nat.zero_add _)
  | cons tx rest ih =>
    cases handled schedule store index tx rest l with
    | admitted a after hexecute hlasting hrun =>
      have hone := h.execute hexecute
      have hmore := ih (index + 1) after
      rw [hlasting, hrun, List.countP_append]
      dsimp only
      omega
    | fault e hlasting hrun =>
      rw [hlasting, hrun]
      exact Nat.le_of_eq (Nat.zero_add _)
    | rejected reason hlasting hrun =>
      rw [hlasting, hrun]
      exact ih (index + 1) l

/-- A step of any kind and outcome uses up what the messages that last in it do. -/
theorem deedsIn (h : UsesUp p f) (c : Chain) (step : Step) :
    (lasting (c.deedsIn step)).countP p + f (c.next step).ledger ≤ f c.ledger := by
  cases step with
  | block height time txs =>
    rw [Chain.deedsIn, next, run_processBlock]
    cases hopen : (openBlock height time).run c with
    | mk r opened =>
      -- Opening a block may mint, also where a fault follows.
      have hopened : f opened.ledger ≤ f c.ledger :=
        (openBlock_keeps ⟨(h.keeps _).transfer, (h.keeps _).mint⟩ height time).of_run hopen
          (Nat.le_refl _)
      cases r with
      | error e => simpa [lasting] using hopened
      | ok start =>
        obtain ⟨mint, schedule⟩ := start
        have hmore := h.processFrom schedule opened.store 0 txs opened.ledger
        dsimp only
        cases hrun : (Chain.processFrom schedule opened.store 0 txs).run opened.ledger with
        | mk tally l =>
          rw [hrun] at hmore
          -- What was done in front of a fault stays on the ledger.
          cases tally <;> exact Nat.le_trans hmore hopened
  | proposal _ => exact Nat.le_of_eq (Nat.zero_add _)
  | medium _ => exact Nat.le_of_eq (Nat.zero_add _)

/-- Of what messages of a kind use up, they never use more than there was, however many steps are
taken. -/
theorem history (h : UsesUp p f) (c : Chain) (steps : List Step) :
    (lasting (c.history steps)).countP p + f (c.after steps).ledger ≤ f c.ledger := by
  -- By induction on the steps.
  induction steps generalizing c with
  | nil => exact Nat.le_of_eq (Nat.zero_add _)
  | cons step rest ih =>
    have hone := h.deedsIn c step
    have hmore := ih (c.next step)
    rw [Chain.history, lasting_append, List.countP_append]
    have hafter : c.after (step :: rest) = (c.next step).after rest := rfl
    rw [hafter]
    omega

end UsesUp

end ChainEconomy.Chain
