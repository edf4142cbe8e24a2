import ChainEconomy.Proofs.AccrualGrowth
import ChainEconomy.Proofs.BlockFaults
import ChainEconomy.Proofs.EconomyRecords
import ChainEconomy.Proofs.Reachable

/-!
# The economy stays sound

A store that a genesis has been written into holds a sound economy, and goes on doing so: proposals
write parameters that have been checked and types that are well formed, blocks write a state in
which less than a unit is left over, and what is refused either writes nothing or one sound record.
On a medium that does not fail, the store is therefore never to blame for a fault of a block.

## Key results

- `Genesis.IsSound`, `Store.IsSound`: economies whose parts pass their checks, and stores with one
- `handle_keeps_sound`, `processBlock_keeps_sound`: proposals and blocks, whatever their outcome
- `processBlock_refusesOnly`: the faults that are left
- `economy_sound`: every state that can be reached from a genesis
-/

namespace ChainEconomy

open Governance

namespace Governance

/-! ## Sound economies -/

/-- Every part of the genesis passes its check. A type may be excluded more than once. -/
structure Genesis.IsSound (g : Genesis) : Prop where
  fee : g.feeParams.check = .ok ()
  types : ∀ text ∈ g.excludedTypes, checkMessageType text = .ok ()
  mint : g.mintParams.check = .ok ()
  minter : g.minter.check = .ok ()

/-- The types pass their check if each of them does, none is repeated, and none has been seen
before. -/
theorem Genesis.checkTypes_eq_ok_iff {seen types : List String} :
    checkTypes seen types = .ok () ↔ (∀ text ∈ types, checkMessageType text = .ok ()) ∧
      types.Nodup ∧ ∀ text ∈ types, text ∉ seen := by
  -- By induction on the types. What has been checked joins what has been seen.
  induction types generalizing seen with
  | nil => simp [checkTypes]
  | cons text rest ih =>
    rw [checkTypes]
    split
    · next flaw hflaw => simp [hflaw]
    · next hcheck =>
      split
      · next hseen =>
        have hmem : text ∈ seen := by simpa using hseen
        simp [hmem]
      · next hseen =>
        have hmem : text ∉ seen := by simpa using hseen
        rw [ih, List.forall_mem_cons, List.nodup_cons, List.forall_mem_cons]
        constructor
        · rintro ⟨hrest, hnodup, hnew⟩
          refine ⟨⟨hcheck, hrest⟩, ⟨fun h => ?_, hnodup⟩, hmem, fun other hother => ?_⟩
          · exact hnew text h List.mem_cons_self
          · exact fun h => hnew other hother (List.mem_cons_of_mem _ h)
        · rintro ⟨⟨-, hrest⟩, ⟨hfirst, hnodup⟩, -, hnew⟩
          refine ⟨hrest, hnodup, fun other hother h => ?_⟩
          rcases List.mem_cons.1 h with rfl | h
          · exact hfirst hother
          · exact hnew other hother h

/-- A genesis passes its check if its parts do and no type is named twice. -/
theorem Genesis.check_eq_ok_iff {g : Genesis} :
    g.check = .ok () ↔ g.IsSound ∧ g.excludedTypes.Nodup := by
  simp only [check, Except.check_eq_ok_iff, Except.mapError_eq_ok_iff, checkTypes_eq_ok_iff]
  -- Nothing has been seen in front of the first type, which leaves that none is repeated.
  constructor
  · rintro ⟨hfee, ⟨htypes, hnodup, -⟩, hmint, hminter⟩
    exact ⟨⟨hfee, htypes, hmint, hminter⟩, hnodup⟩
  · rintro ⟨h, hnodup⟩
    exact ⟨h.fee, ⟨h.types, hnodup, fun _ _ => List.not_mem_nil⟩, h.mint, h.minter⟩

end Governance

/-- The store holds a sound economy on a medium that does not fail. -/
structure Store.IsSound (s : Store) : Prop where
  holds : ∃ g : Genesis, g.IsSound ∧ s.Holds g
  medium : s.medium = .sound

namespace Store.IsSound

variable {s t : Store}

/-- Parameters of the fees are saved only if they pass their check. -/
theorem saveFee (h : s.IsSound) {p : Fee.Params} (hsave : Governance.saveFee p s = .ok t) :
    -- The store before holds some genesis. What it holds now differs in the part that is saved.
    t.IsSound := by
  obtain ⟨g, hg, hholds⟩ := h.holds
  obtain ⟨hcheck, hsave⟩ := saveFee_eq_ok_iff.1 hsave
  exact ⟨⟨{ g with feeParams := p }, ⟨hcheck, hg.types, hg.mint, hg.minter⟩,
    hholds.saveFee hsave⟩, (medium_of_set hsave).trans h.medium⟩

/-- Parameters of the minter are saved only if they pass their check. -/
theorem saveMint (h : s.IsSound) {p : Mint.Params} (hsave : Governance.saveMint p s = .ok t) :
    t.IsSound := by
  obtain ⟨g, hg, hholds⟩ := h.holds
  obtain ⟨hcheck, hsave⟩ := saveMint_eq_ok_iff.1 hsave
  exact ⟨⟨{ g with mintParams := p }, ⟨hg.fee, hg.types, hcheck, hg.minter⟩,
    hholds.saveMint hsave⟩, (medium_of_set hsave).trans h.medium⟩

/-- A state of the minter that passes its check may be saved. -/
theorem saveMinter (h : s.IsSound) {state : Mint.State} (hcheck : state.check = .ok ())
    (hsave : state.save s = .ok t) : t.IsSound := by
  obtain ⟨g, hg, hholds⟩ := h.holds
  exact ⟨⟨{ g with minter := state }, ⟨hg.fee, hg.types, hg.mint, hcheck⟩,
    hholds.saveMinter hsave⟩, (medium_of_set hsave).trans h.medium⟩

/-- A well-formed type may be excluded. -/
theorem exempt (h : s.IsSound) {text : String} (hcheck : checkMessageType text = .ok ())
    (hadd : Fee.Exclusions.add s text = .ok t) : t.IsSound := by
  obtain ⟨g, hg, hholds⟩ := h.holds
  have htypes : ∀ other ∈ text :: g.excludedTypes, checkMessageType other = .ok () :=
    List.forall_mem_cons.2 ⟨hcheck, hg.types⟩
  exact ⟨⟨{ g with excludedTypes := text :: g.excludedTypes },
    ⟨hg.fee, htypes, hg.mint, hg.minter⟩, hholds.exempt hadd⟩, (medium_of_set hadd).trans h.medium⟩

/-- Any type may be charged for again. -/
theorem charge (h : s.IsSound) {text : String} (hremove : Fee.Exclusions.remove s text = .ok t) :
    t.IsSound := by
  obtain ⟨g, hg, hholds⟩ := h.holds
  have htypes : ∀ other ∈ g.excludedTypes.filter (· ≠ text), checkMessageType other = .ok () :=
    fun other hother => hg.types other (List.mem_of_mem_filter hother)
  exact ⟨⟨{ g with excludedTypes := g.excludedTypes.filter (· ≠ text) },
    ⟨hg.fee, htypes, hg.mint, hg.minter⟩, hholds.charge hremove⟩,
    (medium_of_delete hremove).trans h.medium⟩

/-! ## What is read -/

/-- A sound store has parameters of the fees, and they pass their check. -/
theorem exists_loadFee (h : s.IsSound) : ∃ p, loadFee s = .ok p ∧ p.check = .ok () := by
  obtain ⟨g, hg, hholds⟩ := h.holds
  exact ⟨_, hholds.loadFee h.medium, Fee.Params.check_unsigned.2 hg.fee⟩

/-- A sound store has parameters of the minter, and they pass their check. -/
theorem exists_loadMint (h : s.IsSound) : ∃ p, loadMint s = .ok p ∧ p.check = .ok () := by
  obtain ⟨g, hg, hholds⟩ := h.holds
  exact ⟨_, hholds.loadMint h.medium, Mint.Params.check_unsigned.2 hg.mint⟩

/-- A sound store has a state of the minter, and it passes its check. -/
theorem exists_loadMinter (h : s.IsSound) :
    ∃ state, Mint.State.load s = .ok (some state) ∧ state.check = .ok () := by
  obtain ⟨g, hg, hholds⟩ := h.holds
  exact ⟨_, hholds.loadMinter h.medium, hg.minter⟩

end Store.IsSound

/-! ## Proposals -/

namespace Governance

open Attempt

/-- Changing parameters keeps what saving parameters keeps. -/
theorem ParamChange.applyAll_keeps_store {P : Store → Prop}
    (hfee : ∀ {p : Fee.Params} {s t : Store}, saveFee p s = .ok t → P s → P t)
    (hmint : ∀ {p : Mint.Params} {s t : Store}, saveMint p s = .ok t → P s → P t)
    (changes : List ParamChange) : Keeps P (applyAll changes) :=
  Keeps.bind (Keeps.read _) fun _ => Keeps.bind (Keeps.read _) fun _ =>
    Keeps.bind (Keeps.ofExcept _) fun _ =>
      Keeps.bind (Keeps.change fun _ _ hsave h => hfee hsave h) fun _ =>
        Keeps.bind (Keeps.change fun _ _ hsave h => hmint hsave h) fun _ => Keeps.pure _

/-- A proposal of any outcome leaves a sound store behind. -/
theorem Proposal.handle_keeps_sound (p : Proposal) : Keeps Store.IsSound p.handle := by
  -- What a proposal asks for has been checked before anything is written.
  refine Keeps.bind_of_ok (Keeps.ofExcept _) fun _ _ _ _ hrun => ?_
  have hcheck : p.measure.check = .ok () := by
    have h := (run_ofExcept_eq_ok.1 hrun).1
    simp only [check, Except.check_eq_ok_iff, Except.mapError_eq_ok_iff] at h
    exact h.2
  unfold apply
  split
  · next text hmeasure =>
    rw [hmeasure] at hcheck
    exact Keeps.bind (Keeps.change fun _ _ hadd h =>
      h.exempt hcheck (Except.mapError_eq_ok_iff.1 hadd)) fun _ => Keeps.pure _
  · exact Keeps.bind (Keeps.change fun _ _ hremove h =>
      h.charge (Except.mapError_eq_ok_iff.1 hremove)) fun _ => Keeps.pure _
  · exact ParamChange.applyAll_keeps_store (fun hsave h => h.saveFee hsave)
      (fun hsave h => h.saveMint hsave) _

end Governance

/-! ## Blocks -/

namespace Mint

open Attempt

variable {β : Type}

/-- The start of a block saves sound states only, and writes nothing else. -/
theorem beginBlock_keeps_store [Bank β] {P : Store → Prop}
    (hP : ∀ {state : State} {s t : Store}, state.check = .ok () → state.save s = .ok t → P s → P t)
    (height : UInt64) (time : BlockTime) (params : Params) :
    Keeps (fun w : World β => P w.store) (beginBlock height time params) := by
  refine Keeps.bind (Keeps.ofExcept _) fun rate => Keeps.bind_of_ok (Keeps.read _)
    fun w state _ _ hrun => ?_
  have hcheck := (loadChecked_eq_ok_iff.1 (run_read_eq_ok.1 hrun).1).2
  split
  · -- The first block changes the time of the state, which no check looks at.
    have hlater : State.check { state with previousTime := time } = .ok () :=
      State.check_eq_ok_iff.2 (State.check_eq_ok_iff.1 hcheck)
    exact Keeps.bind (persist_keeps_store (hP hlater)) fun _ => Keeps.pure _
  · refine Keeps.bind (Keeps.ofExcept _) fun elapsed => Keeps.bind Keeps.get fun world => ?_
    dsimp only
    -- What accrual leaves over is always below one, whatever it starts from.
    refine Keeps.bind (persist_keeps_store (hP (State.check_eq_ok_iff.2 ?_))) fun _ =>
      Keeps.bind ?_ fun _ => Keeps.pure _
    · exact accrue_leftover_isBelowOne _ _ _ _
    · exact Keeps.within (Keeps.always _) (fun _ _ => trivial) fun _ _ hw _ => hw

end Mint

namespace Chain

open Attempt

/-- The opening of a block writes a sound state of the minter, if anything. -/
theorem openBlock_keeps_store {P : Store → Prop}
    (hP : ∀ {state : Mint.State} {s t : Store}, state.check = .ok () → state.save s = .ok t →
      P s → P t) (height : UInt64) (time : BlockTime) :
    Keeps (fun c => P c.store) (openBlock height time) :=
  .bind (.read _) fun params =>
    .bind (.within (Mint.beginBlock_keeps_store hP height time params.mint) (fun _ h => h)
      fun _ _ _ h => h) fun _ => .bind (.ofExcept _) fun _ => .pure _

/-- A block of any outcome writes no more than its opening, since transactions do not touch the
store. -/
theorem processBlock_keeps_store {P : Store → Prop}
    (hP : ∀ {state : Mint.State} {s t : Store}, state.check = .ok () → state.save s = .ok t →
      P s → P t) (height : UInt64) (time : BlockTime) (txs : List Transaction) :
    Keeps (fun c => P c.store) (processBlock height time txs) :=
  .bind (openBlock_keeps_store hP height time) fun _ => .bind .get fun _ =>
    .bind (.within (.always _) (fun _ _ => trivial) fun _ _ h _ => h) fun _ => .pure _

/-- A block of any outcome leaves a sound store behind. -/
theorem processBlock_keeps_sound (height : UInt64) (time : BlockTime) (txs : List Transaction) :
    Keeps (fun c => c.store.IsSound) (processBlock height time txs) :=
  processBlock_keeps_store (fun hcheck hsave h => h.saveMinter hcheck hsave) height time txs

/-- Every read that a block depends on succeeds. -/
theorem exists_loadParams {c : Chain} (h : c.store.IsSound) :
    ∃ params, loadParams c = .ok params ∧ params.fee.check = .ok () ∧
      params.mint.check = .ok () := by
  obtain ⟨fee, hfee, hfeeCheck⟩ := h.exists_loadFee
  obtain ⟨mint, hmint, hmintCheck⟩ := h.exists_loadMint
  refine ⟨⟨fee, mint⟩, ?_, hfeeCheck, hmintCheck⟩
  unfold loadParams
  rw [hfee, hmint]
  rfl

/-- The state of the minter that a sound store has passes the check in front of every block. -/
theorem exists_loadChecked {s : Store} (h : s.IsSound) :
    ∃ state, Mint.State.loadChecked s = .ok state := by
  obtain ⟨state, hload, hcheck⟩ := h.exists_loadMinter
  exact ⟨state, Mint.loadChecked_eq_ok_iff.2 ⟨hload, hcheck⟩⟩

/-- A sound store is never to blame for a block that cannot be opened. -/
theorem openBlock_refusesOnly (height : UInt64) (time : BlockTime) :
    RefusesOnly (fun c => c.store.IsSound) (fun f => f.blamesStore = false)
      (openBlock height time) := by
  unfold openBlock
  refine (RefusesOnly.read fun c hc fault hfault => ?_).bind (Keeps.read _)
    fun c params _ hc hrun => ?_
  · obtain ⟨params, hparams, -⟩ := exists_loadParams hc
    cases hfault.symm.trans hparams
  -- The parameters are those of the store, and have been checked.
  obtain ⟨_, hparams, hfeeCheck, hmintCheck⟩ := exists_loadParams hc
  cases (run_read_eq_ok.1 hrun).1.symm.trans hparams
  have hmint : Keeps (fun c => c.store.IsSound) (Attempt.within world
      (fun w _ => ⟨w.store, w.bank⟩) (Mint.beginBlock height time params.mint)) :=
    .within (Mint.beginBlock_keeps_store (fun hcheck hsave h => h.saveMinter hcheck hsave) height
      time params.mint) (fun _ h => h) fun _ _ _ h => h
  refine RefusesOnly.bind ?_ hmint fun _ mint _ _ _ => ?_
  · exact RefusesOnly.within (Mint.beginBlock_refusesOnly height time hmintCheck)
      fun c hc => ⟨hc.medium, exists_loadChecked hc⟩
  refine (RefusesOnly.ofExcept fun fault hfault => ?_).bind (Keeps.ofExcept _)
    fun _ schedule _ _ _ => RefusesOnly.pure _
  obtain ⟨e, he, -⟩ := Except.mapError_eq_error_iff.1 hfault
  unfold Fee.Schedule.ofParams at he
  split at he
  · next hcheck => cases hcheck.symm.trans hfeeCheck
  · cases he

/-- A sound store is never to blame for a fault of a block. -/
theorem processBlock_refusesOnly (height : UInt64) (time : BlockTime) (txs : List Transaction) :
    RefusesOnly (fun c => c.store.IsSound) (fun f => f.blamesStore = false)
      (processBlock height time txs) := by
  -- The opening reads and writes the store. The transactions behind it run on the ledger alone.
  refine (openBlock_refusesOnly height time).bind (openBlock_keeps_store
    (fun hcheck hsave h => h.saveMinter hcheck hsave) height time) fun _ start _ _ _ => ?_
  refine RefusesOnly.get.bind Keeps.get fun _ chain _ hchain hget => ?_
  cases hget
  refine RefusesOnly.bind ?_ ?_ fun _ _ _ _ _ => RefusesOnly.pure _
  · exact RefusesOnly.within (processFrom_refusesOnly start.2 hchain.medium _ 0 txs)
      fun _ _ => trivial
  · exact Keeps.within (Keeps.always _) (fun _ _ => trivial) fun _ _ h _ => h

/-! ## Everything that can happen -/

/-- Steps that do not change the medium take no soundness from the store. -/
theorem after_keeps_sound {c : Chain} {steps : List Step} (hmedium : ∀ m, Step.medium m ∉ steps)
    (h : c.store.IsSound) : (c.after steps).store.IsSound := by
  -- By induction on the steps.
  induction steps generalizing c with
  | nil => exact h
  | cons step rest ih =>
    refine ih (fun m hm => hmedium m (List.mem_cons_of_mem _ hm)) ?_
    cases step with
    | block height time txs => exact processBlock_keeps_sound height time txs c h
    | proposal p => exact p.handle_keeps_sound c.store h
    | medium m => exact absurd List.mem_cons_self (hmedium m)

/-- A genesis that has been written into an empty store makes it sound. -/
theorem isSound_of_init {g : Governance.Genesis} {s : Store}
    (h : g.init.run (Store.empty .sound) = (.ok (), s)) : s.IsSound := by
  obtain ⟨hcheck, hmedium, -⟩ := Genesis.find?_of_init h
  exact ⟨⟨g, (Genesis.check_eq_ok_iff.1 hcheck).1, Genesis.holds_of_init h⟩, hmedium⟩

end Chain

/-- The keys of a store and the records under them are those of a sound economy. -/
structure Store.SoundRecords (s : Store) : Prop where
  keys : ∃ types : List String, (∀ text ∈ types, checkMessageType text = .ok ()) ∧
    ∀ key, key ∈ s.entries.keys ↔
      key ∈ [Fee.Params.key, Mint.Params.key, minterKey] ++ types.map exclusionKey
  fee : ∃ p, Fee.Params.load s = .ok (some p) ∧ p.check = .ok ()
  mint : ∃ p, Mint.Params.load s = .ok (some p) ∧ p.check = .ok ()
  minter : ∃ state, Mint.State.load s = .ok (some state) ∧ state.leftover.isBelowOne = true

/-- A store with a sound economy has its keys, and its records can be read and pass their checks. -/
theorem Store.IsSound.soundRecords {s : Store} (h : s.IsSound) : s.SoundRecords where
  keys := by
    obtain ⟨g, hg, hholds⟩ := h.holds
    refine ⟨g.excludedTypes, hg.types, fun key => ?_⟩
    rw [OrderedMap.mem_keys_iff, hholds key]
    exact g.valueAt_isSome key
  fee := by
    obtain ⟨p, hload, hcheck⟩ := h.exists_loadFee
    exact ⟨p, loadFee_eq_ok_iff.1 hload, hcheck⟩
  mint := by
    obtain ⟨p, hload, hcheck⟩ := h.exists_loadMint
    exact ⟨p, loadMint_eq_ok_iff.1 hload, hcheck⟩
  minter := by
    obtain ⟨state, hload, hcheck⟩ := h.exists_loadMinter
    exact ⟨state, hload, Mint.State.check_eq_ok_iff.1 hcheck⟩

namespace Chain

/-- Whatever proposals and blocks a chain lives through behind its genesis, and whatever becomes of
them, its store holds the records of a sound economy and nothing else, and is not to blame for any
fault. -/
theorem economy_sound {g : Governance.Genesis} {c : Chain} {steps : List Step}
    (hinit : g.init.run (Store.empty .sound) = (.ok (), c.store))
    (hmedium : ∀ m, Step.medium m ∉ steps) :
    (c.after steps).store.SoundRecords ∧
      ∀ height time txs fault c', (processBlock height time txs).run (c.after steps) =
        (.error fault, c') → fault.blamesStore = false := by
  have hsound := after_keeps_sound hmedium (isSound_of_init hinit)
  exact ⟨hsound.soundRecords, fun height time txs fault c' h =>
    processBlock_refusesOnly height time txs _ hsound fault c' h⟩

/-- A block, a proposal that is accepted, one that is refused, and a block that comes too early. -/
def sampleSteps : List Step :=
  [.block 1 ⟨0⟩ [Sample.payment 100],
    .proposal ⟨"Free", "Transfers are free.", .exempt "bank/Send"⟩,
    .proposal ⟨"Free", "What is free?", .exempt "bank"⟩, .block 2 ⟨0⟩ []]

/-- Another block that comes too early is refused for its time. -/
theorem economy_sound_sample :
    let c := Sample.chain.after sampleSteps
    c.store.SoundRecords ∧
      ∃ fault c', (processBlock 2 ⟨0⟩ []).run c = (.error fault, c') ∧
        fault = .nonMonotonicTime ⟨0⟩ ⟨0⟩ ∧ fault.blamesStore = false := by
  have hinit : Sample.genesis.economy.init.run (Store.empty .sound) =
      (.ok (), Sample.chain.store) :=
    Prod.ext (Except.eq_ok_of_isOk (by decide +kernel)) rfl
  have hmedium : ∀ m, Step.medium m ∉ sampleSteps := by simp [sampleSteps]
  obtain ⟨hrecords, hfaults⟩ := economy_sound hinit hmedium
  obtain ⟨c', hrun⟩ : ∃ c', (processBlock 2 ⟨0⟩ []).run (Sample.chain.after sampleSteps) =
      (.error (.nonMonotonicTime ⟨0⟩ ⟨0⟩), c') :=
    Attempt.exists_run_eq_error (by decide +kernel)
  -- Both parts are read off the theorem. The fault itself is evaluated.
  exact ⟨hrecords, _, c', hrun, rfl, hfaults _ _ _ _ _ hrun⟩

end Chain

end ChainEconomy
