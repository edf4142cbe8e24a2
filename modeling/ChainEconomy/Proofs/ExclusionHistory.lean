import ChainEconomy.Proofs.GenesisExport

/-!
# The history of exclusions

Which types of messages are excluded is decided by the genesis and by the proposals that have passed
since then: of those that name a type, the last one counts. The marks in the store are all there is
to remember this. A proposal about a type changes the mark of this type and no other; parameters and
the state of the minter have keys of their own, and what is refused leaves all marks alone.

## Key results

- `Store.isMarked`, `contains_eq_isMarked`: the marks that are in a store
- `Chain.decisions`, `lastDecision?`: the decisions of a history, and the one that counts for a type
- `Governance.Proposal.isMarked_of_handle`, `Chain.isMarked_of_next`: one proposal, and one step
- `Chain.isMarked_of_after`: any history
- `Chain.exclusions_follow_decisions`: what is excluded, and what is listed
-/

namespace ChainEconomy

open Attempt

/-! ## Marks -/

/-- Whether a type has a mark in a store. -/
def Store.isMarked (s : Store) (text : String) : Bool :=
  (s.entries.find? (exclusionKey text)).isSome

namespace Fee.Exclusions

open Store

variable {s t : Store}

/-- Every mark can be read from a medium that does not fail. -/
theorem contains_eq_isMarked (hmedium : s.medium = .sound) (text : String) :
    contains s text = .ok (s.isMarked text) := by
  unfold contains has
  rw [get_of_sound hmedium]
  rfl

/-- A change under the key of one mark leaves the other marks alone. -/
private theorem isMarked_of_find? {text : String} (record : Option Bytes)
    (h : ∀ key, t.entries.find? key =
      if key = exclusionKey text then record else s.entries.find? key) (other : String) :
    t.isMarked other = if text = other then record.isSome else s.isMarked other := by
  unfold isMarked
  rw [h]
  by_cases heq : text = other
  · rw [if_pos heq, heq, if_pos rfl]
  · rw [if_neg heq, if_neg fun hkey => heq (exclusionKey_inj.1 hkey).symm]

/-- The exclusion of a type sets its mark, and no other. -/
theorem isMarked_of_add {text : String} (h : add s text = .ok t) (other : String) :
    t.isMarked other = if text = other then true else s.isMarked other := by
  obtain ⟨-, rfl⟩ := set_eq_ok_iff.1 h
  refine isMarked_of_find? (some mark) (fun key => ?_) other
  exact OrderedMap.find?_insert s.entries (exclusionKey text) key mark

/-- The end of an exclusion takes the mark of the type away, and no other. -/
theorem isMarked_of_remove {text : String} (h : remove s text = .ok t) (other : String) :
    t.isMarked other = if text = other then false else s.isMarked other := by
  obtain ⟨-, rfl⟩ := delete_eq_ok_iff.1 h
  refine isMarked_of_find? none (fun key => ?_) other
  exact OrderedMap.find?_erase s.entries (exclusionKey text) key

/-- A record under a key that no mark has leaves the marks alone. -/
theorem isMarked_of_set {key value : Bytes} (hkey : ∀ text, exclusionKey text ≠ key)
    (h : s.set key value = .ok t) (text : String) : t.isMarked text = s.isMarked text := by
  obtain ⟨-, rfl⟩ := set_eq_ok_iff.1 h
  unfold isMarked
  rw [OrderedMap.find?_insert, if_neg (hkey text)]

/-- The marks of a genesis are those of its excluded types. -/
theorem isMarked_of_holds {g : Governance.Genesis} (h : s.Holds g) (text : String) :
    s.isMarked text = decide (text ∈ g.excludedTypes) := by
  unfold isMarked
  rw [h, g.valueAt_exclusionKey]
  split
  · next hmem => exact (decide_eq_true hmem).symm
  · next hmem => exact (decide_eq_false hmem).symm

/-- The marks in a sound store can be listed, in the order of the bytes of their types. -/
theorem exists_toList_eq_ok (h : s.IsSound) :
    ∃ types, toList s = .ok types ∧ InByteOrder types ∧
      ∀ text, text ∈ types ↔ s.isMarked text = true := by
  obtain ⟨g, -, hholds⟩ := h.holds
  obtain ⟨types, htypes, horder, hmem⟩ := hholds.toList h.medium
  refine ⟨types, htypes, horder, fun text => ?_⟩
  rw [hmem, isMarked_of_holds hholds, decide_eq_true_iff]

/-- Two stores say the same about every type, and list the same types. -/
structure Agree (s t : Store) : Prop where
  contains : ∀ text, Exclusions.contains t text = Exclusions.contains s text
  toList : Exclusions.toList t = Exclusions.toList s

/-- Sound stores with the same marks agree: there is one way only to put the types in order. -/
theorem Agree.of_isMarked (hs : s.IsSound) (ht : t.IsSound)
    (h : ∀ text, t.isMarked text = s.isMarked text) : Agree s t where
  contains text := by
    rw [contains_eq_isMarked ht.medium, contains_eq_isMarked hs.medium, h]
  toList := by
    obtain ⟨types, htypes, horder, hmem⟩ := exists_toList_eq_ok hs
    obtain ⟨types', htypes', horder', hmem'⟩ := exists_toList_eq_ok ht
    -- Both lists have the same members, none of them twice.
    have hperm : types'.Perm types :=
      (List.perm_ext_iff_of_nodup horder'.nodup horder.nodup).2 fun text => by
        rw [hmem, hmem', h]
    have hsame : types' = types := hperm.eq_of_pairwise
      (fun x y _ _ hxy hyx => absurd (hxy.trans hyx) (KeyOrder.not_before_self _)) horder' horder
    rw [htypes, htypes', hsame]

end Fee.Exclusions

/-! ## Decisions -/

/-- What a measure has to say about a type: whether it is excluded from then on. -/
def Governance.Measure.verdict? : Governance.Measure → Option (String × Bool)
  | .exempt text => some (text, true)
  | .charge text => some (text, false)
  | .change _ => none

namespace Chain

/-- The decision of a step: the verdict of a proposal, unless it is refused. -/
def decision? (c : Chain) : Step → Option (String × Bool)
  | .proposal p =>
    match (p.handle.run c.store).1 with
    | .ok _ => p.measure.verdict?
    | .error _ => none
  | .block _ _ _ => none
  | .medium _ => none

/-- The decisions of several steps, in order. -/
def decisions (c : Chain) : List Step → List (String × Bool)
  | [] => []
  | step :: rest => (c.decision? step).toList ++ decisions (c.next step) rest

/-- The last one of several decisions about a type. -/
def lastDecision? (text : String) (decisions : List (String × Bool)) : Option Bool :=
  ((decisions.filter fun d => d.1 = text).getLast?).map Prod.snd

/-- Later decisions count before earlier ones. -/
theorem lastDecision?_append (text : String) (earlier later : List (String × Bool)) :
    lastDecision? text (earlier ++ later) =
      (lastDecision? text later).or (lastDecision? text earlier) := by
  unfold lastDecision?
  rw [List.filter_append, List.getLast?_append, Option.map_or]

/-- A single decision counts for its own type only. -/
theorem lastDecision?_singleton (text other : String) (excluded : Bool) :
    lastDecision? other [(text, excluded)] = if text = other then some excluded else none := by
  unfold lastDecision?
  by_cases h : text = other <;> simp [h]

end Chain

/-! ## One step -/

namespace Governance

open Chain Fee.Exclusions

/-- Changing parameters leaves all marks alone, whatever becomes of it. -/
theorem ParamChange.isMarked_of_applyAll (changes : List ParamChange) (s : Store) (text : String) :
    ((applyAll changes).run s).2.isMarked text = s.isMarked text := by
  refine applyAll_keeps_store (P := fun t => t.isMarked text = s.isMarked text) ?_ ?_ changes s rfl
  · -- Neither of the two records is where a mark could be.
    intro p t u hsave ht
    rw [isMarked_of_set Store.exclusionKey_ne_fee (saveFee_eq_ok_iff.1 hsave).2, ht]
  · intro p t u hsave ht
    rw [isMarked_of_set Store.exclusionKey_ne_mint (saveMint_eq_ok_iff.1 hsave).2, ht]

namespace Proposal

variable {p : Proposal} {s t : Store}

/-- A proposal that succeeds changes the mark that its verdict is about. -/
theorem isMarked_of_handle {events : List Event} (h : p.handle.run s = (.ok events, t))
    (text : String) :
    t.isMarked text = (lastDecision? text p.measure.verdict?.toList).getD (s.isMarked text) := by
  obtain ⟨_, _, hcheck, h⟩ := run_bind_eq_ok.1 h
  obtain ⟨-, rfl⟩ := run_ofExcept_eq_ok.1 hcheck
  -- An exclusion, its end, and a change of parameters one after the other.
  unfold apply at h
  split at h
  · next named hmeasure =>
    obtain ⟨_, _, hwrite, hpure⟩ := run_bind_eq_ok.1 h
    obtain ⟨-, rfl⟩ := run_pure_eq_ok.1 hpure
    have hadd := Except.mapError_eq_ok_iff.1 (run_change_eq_ok.1 hwrite)
    rw [hmeasure, isMarked_of_add hadd]
    show _ = (lastDecision? text [(named, true)]).getD (s.isMarked text)
    rw [lastDecision?_singleton]
    split <;> rfl
  · next named hmeasure =>
    obtain ⟨_, _, hwrite, hpure⟩ := run_bind_eq_ok.1 h
    obtain ⟨-, rfl⟩ := run_pure_eq_ok.1 hpure
    have hremove := Except.mapError_eq_ok_iff.1 (run_change_eq_ok.1 hwrite)
    rw [hmeasure, isMarked_of_remove hremove]
    show _ = (lastDecision? text [(named, false)]).getD (s.isMarked text)
    rw [lastDecision?_singleton]
    split <;> rfl
  · next changes hmeasure =>
    have hsame := ParamChange.isMarked_of_applyAll changes s text
    rw [h] at hsame
    rw [hmeasure]
    exact hsame

/-- A proposal that is refused leaves all marks alone, even if parameters have been written. -/
theorem isMarked_of_handle_error {e : Error} (h : p.handle.run s = (.error e, t)) (text : String) :
    t.isMarked text = s.isMarked text := by
  obtain hcheck | ⟨_, _, hcheck, h⟩ := run_bind_eq_error.1 h
  · -- What the check has refused has written nothing. Then it is the write that has failed.
    rw [(run_ofExcept_eq_error.1 hcheck).2]
  obtain ⟨-, rfl⟩ := run_ofExcept_eq_ok.1 hcheck
  unfold apply at h
  split at h
  · rw [(run_change_error (run_bind_pure_eq_error.1 h)).2]
  · rw [(run_change_error (run_bind_pure_eq_error.1 h)).2]
  · next changes hmeasure =>
    have hsame := ParamChange.isMarked_of_applyAll changes s text
    rw [h] at hsame
    exact hsame

end Proposal

end Governance

namespace Chain

open Fee.Exclusions

/-- No block changes a mark. -/
theorem isMarked_of_block (height : UInt64) (time : BlockTime) (txs : List Transaction) (c : Chain)
    (text : String) : (c.next (.block height time txs)).store.isMarked text =
      c.store.isMarked text := by
  refine processBlock_keeps_store (P := fun s => s.isMarked text = c.store.isMarked text) ?_
    height time txs c rfl
  intro state s t _ hsave hs
  rw [isMarked_of_set Store.exclusionKey_ne_minter hsave, hs]

/-- A step changes the mark that its decision is about, if there is one. -/
theorem isMarked_of_next (c : Chain) (step : Step) (text : String) :
    (c.next step).store.isMarked text =
      (lastDecision? text (c.decision? step).toList).getD (c.store.isMarked text) := by
  cases step with
  | block height time txs => exact isMarked_of_block height time txs c text
  | medium m => rfl
  | proposal p =>
    unfold next decision?
    dsimp only
    cases hrun : p.handle.run c.store with
    | mk r t =>
      cases r with
      | ok events => exact p.isMarked_of_handle hrun text
      | error e => exact p.isMarked_of_handle_error hrun text

/-! ## Histories -/

/-- After any history, the last decision about a type is the one that counts; without a decision,
its mark is what it was. -/
theorem isMarked_of_after (c : Chain) (steps : List Step) (text : String) :
    (c.after steps).store.isMarked text =
      (lastDecision? text (c.decisions steps)).getD (c.store.isMarked text) := by
  -- By induction on the steps, from any chain.
  induction steps generalizing c with
  | nil => rfl
  | cons step rest ih =>
    have hafter : c.after (step :: rest) = (c.next step).after rest := rfl
    rw [hafter, ih, isMarked_of_next, decisions, lastDecision?_append]
    -- A later decision about the type comes before the one of this step.
    cases lastDecision? text (decisions (c.next step) rest) <;> rfl

/-- A chain lives through proposals and blocks behind its genesis, on a medium that does not fail.
Whether a type is excluded is said by the last proposal about it that has succeeded, and by the
genesis if there is none. The excluded types can be listed: all of them, each of them once, in the
order of their bytes. Neither a block nor a proposal that changes parameters or is refused makes a
difference to this. -/
theorem exclusions_follow_decisions {g : Governance.Genesis} {c : Chain} {steps : List Step}
    (hinit : g.init.run (Store.empty .sound) = (.ok (), c.store))
    (hmedium : ∀ m, Step.medium m ∉ steps) :
    (∀ text, contains (c.after steps).store text =
      .ok ((lastDecision? text (c.decisions steps)).getD (decide (text ∈ g.excludedTypes)))) ∧
    (∃ types, toList (c.after steps).store = .ok types ∧ InByteOrder types ∧ types.Nodup ∧
      ∀ text, text ∈ types ↔ contains (c.after steps).store text = .ok true) ∧
    (∀ height time txs,
      Agree (c.after steps).store ((c.after steps).next (.block height time txs)).store) ∧
    ∀ p : Governance.Proposal,
      ((∃ changes, p.measure = .change changes) ∨
        ∃ e t, p.handle.run (c.after steps).store = (.error e, t)) →
      Agree (c.after steps).store ((c.after steps).next (.proposal p)).store := by
  -- All parts speak of the marks of a sound store.
  have hsound := after_keeps_sound hmedium (isSound_of_init hinit)
  have hstart := isMarked_of_holds (Governance.Genesis.holds_of_init hinit)
  refine ⟨fun text => ?_, ?_, fun height time txs => ?_, fun p hp => ?_⟩
  · rw [contains_eq_isMarked hsound.medium, isMarked_of_after, hstart]
  · obtain ⟨types, htypes, horder, hmem⟩ := exists_toList_eq_ok hsound
    refine ⟨types, htypes, horder, horder.nodup, fun text => ?_⟩
    rw [hmem, contains_eq_isMarked hsound.medium, Except.ok.injEq]
  · exact .of_isMarked hsound (processBlock_keeps_sound height time txs _ hsound)
      (isMarked_of_block height time txs _)
  · refine .of_isMarked hsound (p.handle_keeps_sound _ hsound) fun text => ?_
    show (p.handle.run (c.after steps).store).2.isMarked text = _
    cases hrun : p.handle.run (c.after steps).store with
    | mk r t =>
      cases r with
      | error e => exact p.isMarked_of_handle_error hrun text
      | ok events =>
        -- A proposal that succeeds is one that changes parameters.
        obtain ⟨changes, hchanges⟩ | ⟨e, t', herror⟩ := hp
        · rw [p.isMarked_of_handle hrun text, hchanges]
          rfl
        · cases hrun.symm.trans herror

/-- A genesis with two excluded types. -/
def Sample.exemptEconomy : Governance.Genesis :=
  { Sample.genesis.economy with excludedTypes := ["bank/Send", "market/CreateSellOrder"] }

/-- The chain that starts from it, on a store that has been empty. -/
def Sample.exemptChain : Chain :=
  ⟨(Sample.exemptEconomy.init.run (Store.empty .sound)).2, Sample.genesis.ledger⟩

/-- One of the types is charged again, and another one is exempted twice. In between there are a
proposal without a title and a block that comes too early. -/
def Sample.exemptions : List Step :=
  [.block 1 ⟨0⟩ [Sample.payment 100],
    .proposal ⟨"Charge", "Transfers are not free any more.", .charge "bank/Send"⟩,
    .proposal ⟨"Free", "Names are free.", .exempt "names/RegisterName"⟩,
    .proposal ⟨"", "Transfers are free again.", .exempt "bank/Send"⟩, .block 2 ⟨0⟩ [],
    .proposal ⟨"Free", "Names are free, as they were.", .exempt "names/RegisterName"⟩]

/-- The type that is charged again is not listed any more, and the one of the genesis still is. What
was refused in between has left no trace. -/
theorem exclusions_follow_decisions_sample :
    let s := (Sample.exemptChain.after Sample.exemptions).store
    contains s "bank/Send" = .ok false ∧ contains s "names/RegisterName" = .ok true ∧
      contains s "market/CreateSellOrder" = .ok true ∧
      ∃ types, toList s = .ok types ∧ InByteOrder types ∧ "market/CreateSellOrder" ∈ types ∧
        "bank/Send" ∉ types := by
  intro s
  have hinit : Sample.exemptEconomy.init.run (Store.empty .sound) =
      (.ok (), Sample.exemptChain.store) :=
    Prod.ext (Except.eq_ok_of_isOk (by decide +kernel)) rfl
  have hmedium : ∀ m, Step.medium m ∉ Sample.exemptions := by simp [Sample.exemptions]
  obtain ⟨hcontains, ⟨types, htypes, horder, -, hmem⟩, -⟩ :=
    exclusions_follow_decisions hinit hmedium
  have hdecisions : Sample.exemptChain.decisions Sample.exemptions =
      [("bank/Send", false), ("names/RegisterName", true), ("names/RegisterName", true)] := by
    decide +kernel
  rw [hdecisions] at hcontains
  have hcharged : contains s "bank/Send" = .ok false := hcontains "bank/Send"
  have hexempt : contains s "names/RegisterName" = .ok true := hcontains "names/RegisterName"
  -- There is no decision about this type but the one of the genesis.
  have hfirst : contains s "market/CreateSellOrder" = .ok true :=
    hcontains "market/CreateSellOrder"
  refine ⟨hcharged, hexempt, hfirst, types, htypes, horder, (hmem _).2 hfirst, fun h => ?_⟩
  cases hcharged.symm.trans ((hmem _).1 h)

end Chain

end ChainEconomy
