import ChainEconomy.Proofs.ParamsRoundTrip
import ChainEconomy.Proofs.Reachable

/-!
# Changes of parameters, all or none

The changes of a proposal are made on a working copy of the parameters, in their order, so that of
several changes of one parameter the last one counts. Nothing is written unless all of them can be
made. The two records are then written one after the other: when the second one cannot be written,
the first one stays behind.

## Key results

- `Reflects`: what the parameters have to be after changes, parameter by parameter
- `allOn_reflects`: changes that are made leave such parameters behind
- `applyAll_outcome`: what becomes of the two records, whatever the store and its medium are
- `applyAll_may_write_half`: a refusal with one of the records written
-/

namespace ChainEconomy.Governance

namespace ParamChange

/-! ## What changes ask for -/

/-- Whether a change is one of the given parameter. -/
def names (c : ParamChange) (subspace key : String) : Bool :=
  c.subspace == subspace && c.key == key

/-- The last change of a parameter. -/
def last? (changes : List ParamChange) (subspace key : String) : Option ParamChange :=
  changes.reverse.find? fun c => c.names subspace key

/-- The value that changes ask for: that of the last change of the parameter, or the one from before
if there is no such change. -/
def valueAfter {α : Type} (decode : Json → Except Json.Fault α) (changes : List ParamChange)
    (subspace key : String) (old : α) : Except Json.Fault α :=
  match last? changes subspace key with
  | none => .ok old
  | some c => Json.decodeText decode c.value

/-- Every parameter has the value that the changes ask for. The base denomination cannot be changed.
-/
structure Reflects (changes : List ParamChange) (before after : Params) : Prop where
  percentage : valueAfter Rate.ofJson changes feeSubspace "fee_percentage"
    before.fee.percentage = .ok after.fee.percentage
  minimum : valueAfter CoinSet.ofJson changes feeSubspace "minimum_fee"
    before.fee.minimum = .ok after.fee.minimum
  maximum : valueAfter CoinSet.ofJson changes feeSubspace "maximum_fee"
    before.fee.maximum = .ok after.fee.maximum
  baseDenom : after.fee.baseDenom = before.fee.baseDenom
  denom : valueAfter Json.toText changes mintSubspace "mint_denom"
    before.mint.denom = .ok after.mint.denom
  ratePerSecond : valueAfter Rate.ofJson changes mintSubspace "per_second_inflation_rate"
    before.mint.ratePerSecond = .ok after.mint.ratePerSecond
  maxAccrualSeconds : valueAfter Json.toUInt64 changes mintSubspace "max_accrual_seconds"
    before.mint.maxAccrualSeconds = .ok after.mint.maxAccrualSeconds

section

variable {α : Type} {decode : Json → Except Json.Fault α} {c : ParamChange} {subspace key : String}

/-- The last change of a parameter is among the later ones, if any of them names it. -/
theorem last?_cons (c : ParamChange) (rest : List ParamChange) (subspace key : String) :
    last? (c :: rest) subspace key =
      (last? rest subspace key).or (if c.names subspace key = true then some c else none) := by
  rw [last?, List.reverse_cons, List.find?_append, List.find?_singleton]
  rfl

/-- A single change asks for its own value, or for nothing if it names another parameter. -/
theorem valueAfter_singleton (old : α) :
    valueAfter decode [c] subspace key old =
      if c.names subspace key = true then Json.decodeText decode c.value else .ok old := by
  rw [valueAfter, last?_cons]
  cases c.names subspace key <;> rfl

/-- Later changes start from the value that the first one leaves behind. -/
theorem valueAfter_cons {rest : List ParamChange} {old value : α}
    (hfirst : valueAfter decode [c] subspace key old = .ok value) :
    valueAfter decode (c :: rest) subspace key old = valueAfter decode rest subspace key value := by
  rw [valueAfter_singleton] at hfirst
  rw [valueAfter, valueAfter, last?_cons]
  cases last? rest subspace key with
  | some later => rfl
  | none =>
    -- Nothing after the first change names the parameter.
    rw [← hfirst]
    cases c.names subspace key <;> rfl

end

/-- No changes ask for the parameters as they are. -/
theorem Reflects.nil (p : Params) : Reflects [] p p := ⟨rfl, rfl, rfl, rfl, rfl, rfl, rfl⟩

/-- What one change leaves behind is what the others start from. -/
theorem Reflects.cons {c : ParamChange} {rest : List ParamChange} {p q r : Params}
    (hfirst : Reflects [c] p q) (hrest : Reflects rest q r) : Reflects (c :: rest) p r where
  percentage := (valueAfter_cons hfirst.percentage).trans hrest.percentage
  minimum := (valueAfter_cons hfirst.minimum).trans hrest.minimum
  maximum := (valueAfter_cons hfirst.maximum).trans hrest.maximum
  baseDenom := hrest.baseDenom.trans hfirst.baseDenom
  denom := (valueAfter_cons hfirst.denom).trans hrest.denom
  ratePerSecond := (valueAfter_cons hfirst.ratePerSecond).trans hrest.ratePerSecond
  maxAccrualSeconds := (valueAfter_cons hfirst.maxAccrualSeconds).trans hrest.maxAccrualSeconds

/-! ## What changes do -/

/-- A new value is put in place if it can be read and passes its check. -/
theorem put_eq_ok_iff {α β : Type} {decode : Json → Except Json.Fault α} {c : ParamChange}
    {check : α → Except Error Unit} {put : α → β} {b : β} :
    (do let value ← c.decode decode; check value; return put value) = Except.ok b ↔
      ∃ value, Json.decodeText decode c.value = .ok value ∧ check value = .ok () ∧
        put value = b := by
  rw [Except.bind_eq_ok_iff]
  -- The value that is read first is the one that is checked and put.
  refine exists_congr fun value => ?_
  rw [Except.check_eq_ok_iff]
  refine and_congr Except.mapError_eq_ok_iff (and_congr_right fun _ => ?_)
  exact ⟨Except.ok.inj, fun h => h ▸ rfl⟩

/-- A change of a fee parameter gives it the new value and leaves the others alone. -/
theorem onFee_reflects {c : ParamChange} {p : Params} {fee : Fee.Params}
    (hsubspace : c.subspace = feeSubspace) (h : c.onFee p.fee = .ok fee) :
    Reflects [c] p { p with fee := fee } := by
  unfold onFee at h
  dsimp only at h
  split at h
  case h_4 => cases h
  -- One field gets the value, and no other field belongs to a parameter of that name.
  all_goals
    rename_i hkey
    obtain ⟨value, hdecode, -, rfl⟩ := put_eq_ok_iff.1 h
    constructor <;>
      simp [valueAfter_singleton, names, hsubspace, hkey, hdecode, feeSubspace, mintSubspace]

/-- A change of a mint parameter gives it the new value and leaves the others alone. -/
theorem onMint_reflects {c : ParamChange} {p : Params} {mint : Mint.Params}
    (hsubspace : c.subspace = mintSubspace) (h : c.onMint p.mint = .ok mint) :
    Reflects [c] p { p with mint := mint } := by
  unfold onMint at h
  dsimp only at h
  split at h
  case h_4 => cases h
  -- The same for the parameters of the minter.
  all_goals
    rename_i hkey
    obtain ⟨value, hdecode, -, rfl⟩ := put_eq_ok_iff.1 h
    constructor <;>
      simp [valueAfter_singleton, names, hsubspace, hkey, hdecode, feeSubspace, mintSubspace]

/-- A change that is made changes the part of the parameters that its subspace stands for. -/
theorem on_eq_ok {c : ParamChange} {p q : Params} (h : c.on p = .ok q) :
    (∃ fee, c.subspace = feeSubspace ∧ c.onFee p.fee = .ok fee ∧ { p with fee := fee } = q) ∨
      ∃ mint, c.subspace = mintSubspace ∧ c.onMint p.mint = .ok mint ∧
        { p with mint := mint } = q := by
  unfold on at h
  split at h
  · next hsubspace =>
    obtain ⟨fee, hfee, heq⟩ := Except.map_eq_ok_iff.1 h
    exact .inl ⟨fee, hsubspace, hfee, heq⟩
  · split at h
    · next hsubspace =>
      obtain ⟨mint, hmint, heq⟩ := Except.map_eq_ok_iff.1 h
      exact .inr ⟨mint, hsubspace, hmint, heq⟩
    · cases h

/-- A change that is made gives its parameter the new value, whichever part it belongs to. -/
theorem on_reflects {c : ParamChange} {p q : Params} (h : c.on p = .ok q) : Reflects [c] p q := by
  obtain ⟨fee, hsubspace, hfee, rfl⟩ | ⟨mint, hsubspace, hmint, rfl⟩ := on_eq_ok h
  · exact onFee_reflects hsubspace hfee
  · exact onMint_reflects hsubspace hmint

/-- Changes that are made leave every parameter with the value that they ask for. -/
theorem allOn_reflects {changes : List ParamChange} {p q : Params} (h : allOn changes p = .ok q) :
    Reflects changes p q := by
  -- By induction on the changes: each of them starts from what the one before has left.
  induction changes generalizing p with
  | nil =>
    cases h
    exact Reflects.nil q
  | cons c rest ih =>
    rw [allOn] at h
    split at h
    · cases h
    · next middle hfirst => exact (on_reflects hfirst).cons (ih h)

/-! ## What becomes of the records -/

/-- The parameters that are read from a store. -/
structure Stored (s : Store) (p : Params) : Prop where
  fee : loadFee s = .ok p.fee
  mint : loadMint s = .ok p.mint

/-- Parameters that have been written are read from the store, if there could be read any before. -/
theorem stored_of_saved {s half t : Store} {before p : Params} (hbefore : Stored s before)
    (hfee : saveFee p.fee s = .ok half) (hmint : saveMint p.mint half = .ok t) :
    Stored t p.unsigned := by
  -- What could be read before can be read now: the medium has stayed the same.
  have hfeeMedium := Store.readFailure_eq_none (loadFee_eq_ok_iff.1 hbefore.fee)
  have hmintMedium := Store.readFailure_eq_none (loadMint_eq_ok_iff.1 hbefore.mint)
  obtain ⟨-, hfee⟩ := saveFee_eq_ok_iff.1 hfee
  obtain ⟨-, hmint⟩ := saveMint_eq_ok_iff.1 hmint
  obtain ⟨-, rfl⟩ := Store.set_eq_ok_iff.1 hfee
  obtain ⟨-, rfl⟩ := Store.set_eq_ok_iff.1 hmint
  -- The second record does not overwrite the first one.
  have hne : Fee.Params.key ≠ Mint.Params.key := by decide +kernel
  refine ⟨loadFee_of_find? ?_ hfeeMedium, loadMint_of_find? ?_ hmintMedium⟩
  · dsimp only
    rw [OrderedMap.find?_insert_of_ne _ _ hne, OrderedMap.find?_insert_self]
  · exact OrderedMap.find?_insert_self _ _ _

/-- Changes that have been made are reported one by one, and both records reflect all of them. A
refusal leaves the store as it was, unless the fee parameters could be written and the mint
parameters could not: then the new fee parameters stay behind. -/
theorem applyAll_outcome (changes : List ParamChange) (s : Store) :
    match (applyAll changes).run s with
    | (.ok events, t) =>
      events = changes.map event ∧
        ∃ before after, Stored s before ∧ Reflects changes before after ∧ Stored t after.unsigned
    | (.error e, t) =>
      t = s ∨
        ∃ before after, Stored s before ∧ Reflects changes before after ∧
          saveFee after.fee s = .ok t ∧ saveMint after.mint t = .error e := by
  -- The run is followed through its steps, once for each outcome.
  cases hrun : (applyAll changes).run s with
  | mk r t =>
    cases r with
    | ok events =>
      obtain ⟨fee, _, hrunFee, h⟩ := Attempt.run_bind_eq_ok.1 hrun
      obtain ⟨hfee, rfl⟩ := Attempt.run_read_eq_ok.1 hrunFee
      obtain ⟨mint, _, hrunMint, h⟩ := Attempt.run_bind_eq_ok.1 h
      obtain ⟨hmint, rfl⟩ := Attempt.run_read_eq_ok.1 hrunMint
      obtain ⟨after, _, hrunAfter, h⟩ := Attempt.run_bind_eq_ok.1 h
      obtain ⟨hafter, rfl⟩ := Attempt.run_ofExcept_eq_ok.1 hrunAfter
      obtain ⟨_, half, hsaveFee, h⟩ := Attempt.run_bind_eq_ok.1 h
      obtain ⟨_, done, hsaveMint, h⟩ := Attempt.run_bind_eq_ok.1 h
      obtain ⟨rfl, rfl⟩ := Attempt.run_pure_eq_ok.1 h
      have hbefore : Stored s ⟨fee, mint⟩ := ⟨hfee, hmint⟩
      exact ⟨rfl, ⟨fee, mint⟩, after, hbefore, allOn_reflects hafter,
        stored_of_saved hbefore (Attempt.run_change_eq_ok.1 hsaveFee)
          (Attempt.run_change_eq_ok.1 hsaveMint)⟩
    | error e =>
      -- The places where the run can end, in their order.
      obtain hend | ⟨fee, _, hrunFee, h⟩ := Attempt.run_bind_eq_error.1 hrun
      · exact .inl (Attempt.run_read_eq_error.1 hend).2.symm
      obtain ⟨hfee, rfl⟩ := Attempt.run_read_eq_ok.1 hrunFee
      obtain hend | ⟨mint, _, hrunMint, h⟩ := Attempt.run_bind_eq_error.1 h
      · exact .inl (Attempt.run_read_eq_error.1 hend).2.symm
      obtain ⟨hmint, rfl⟩ := Attempt.run_read_eq_ok.1 hrunMint
      obtain hend | ⟨after, _, hrunAfter, h⟩ := Attempt.run_bind_eq_error.1 h
      · exact .inl (Attempt.run_ofExcept_eq_error.1 hend).2.symm
      obtain ⟨hafter, rfl⟩ := Attempt.run_ofExcept_eq_ok.1 hrunAfter
      obtain hend | ⟨_, half, hsaveFee, h⟩ := Attempt.run_bind_eq_error.1 h
      · exact .inl (Attempt.run_change_error hend).2.symm
      obtain hend | ⟨_, done, -, h⟩ := Attempt.run_bind_eq_error.1 h
      · obtain ⟨hsaveMint, rfl⟩ := Attempt.run_change_error hend
        exact .inr ⟨⟨fee, mint⟩, after, ⟨hfee, hmint⟩, allOn_reflects hafter,
          Attempt.run_change_eq_ok.1 hsaveFee, hsaveMint⟩
      · cases h

/-! A medium may fail at the second record when the first one has been written. -/

namespace Sample

/-- A store that starts from the genesis to look at, on a medium that does not take the record of
the mint parameters. -/
def halfFailing : Store where
  entries := Chain.Sample.chain.store.entries
  medium :=
    let full : Bytes → Option String := fun key =>
      if key = Mint.Params.key then some "out of space" else none
    ⟨fun _ => none, full⟩

/-- A change of the surcharge to two fifths. -/
def raise : ParamChange := ⟨"fee", "fee_percentage", "\"0.4\""⟩

end Sample

/-- A refusal with the new fee parameters in the store. -/
theorem applyAll_may_write_half :
    ((applyAll [Sample.raise]).run Sample.halfFailing).1.refusal? =
        some (.storage (.corrupt Mint.Params.key (.medium "out of space"))) ∧
      ((applyAll [Sample.raise]).run Sample.halfFailing).2.entries ≠
        Sample.halfFailing.entries := by
  decide +kernel

end ParamChange

end ChainEconomy.Governance
