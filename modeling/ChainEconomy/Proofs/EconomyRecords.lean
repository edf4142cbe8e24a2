import ChainEconomy.Governance.Genesis
import ChainEconomy.Proofs.ParamsRoundTrip

/-!
# The records of an economy

A store that a genesis has been written into has a record for the parameters of the fees, one for
those of the minter, one for the state of the minter, and a mark for each excluded type of message.
The keys of these records are told apart by their first bytes, so that whatever is written later on
replaces one record and leaves the others alone: the store then holds another genesis, which differs
from the first one in one part.

## Key results

- `Genesis.valueAt`, `Store.Holds`: what a genesis puts under a key, and stores with just that
- `Holds.of_set`, `Holds.charge`: one write
- `Genesis.find?_of_init`, `Genesis.exists_init_eq_ok`: writing a whole genesis
- `Holds.loadFee`, `Holds.loadMint`, `Holds.loadMinter`: what is read
-/

namespace ChainEconomy

open Governance

/-! ## Keys -/

namespace OrderedMap

/-- The keys of a map are those under which something is found. -/
theorem mem_keys_iff {m : OrderedMap Bytes Bytes} {key : Bytes} :
    key ∈ m.keys ↔ (m.find? key).isSome = true := by
  rw [keys, List.mem_map, Option.isSome_iff_exists]
  simp only [find?_eq_some_iff]
  exact ⟨fun ⟨e, he, heq⟩ => ⟨e.2, heq ▸ he⟩, fun ⟨value, he⟩ => ⟨(key, value), he, rfl⟩⟩

/-- Maps that have values under the same keys list the same keys. -/
theorem keys_ext {a b : OrderedMap Bytes Bytes}
    (h : ∀ key, (a.find? key).isSome = (b.find? key).isSome) : a.keys = b.keys := by
  have hasc : ∀ m : OrderedMap Bytes Bytes, m.keys.Pairwise KeyOrder.Before := fun m =>
    List.pairwise_map.2 m.ascending
  have hnodup : ∀ m : OrderedMap Bytes Bytes, m.keys.Nodup := fun m =>
    (hasc m).imp KeyOrder.Before.ne
  -- Both lists ascend, so that they are equal as soon as they have the same members.
  have hperm : a.keys.Perm b.keys := (List.perm_ext_iff_of_nodup (hnodup a) (hnodup b)).2
    fun key => by rw [mem_keys_iff, mem_keys_iff, h]
  exact hperm.eq_of_pairwise
    (fun x y _ _ hxy hyx => absurd (hxy.trans hyx) (KeyOrder.not_before_self x)) (hasc a) (hasc b)

end OrderedMap

namespace Store

/-- Different types have different marks. -/
theorem exclusionKey_inj {a b : String} : exclusionKey a = exclusionKey b ↔ a = b := by
  refine ⟨fun h => ?_, fun h => by rw [h]⟩
  -- Both keys have the same first byte, and texts are told apart by their UTF-8.
  have hbytes : Text.Utf8.encode a.toList = Text.Utf8.encode b.toList := List.append_cancel_left h
  have hchars := Text.Utf8.decode_encode a.toList
  rw [hbytes, Text.Utf8.decode_encode] at hchars
  exact String.toList_injective (Except.ok.inj hchars).symm

/-! No mark stands where there is another record, and the other records have keys of their own. -/

/-- No mark stands where the parameters of the fees do. -/
theorem exclusionKey_ne_fee (text : String) : exclusionKey text ≠ Fee.Params.key :=
  fun h => absurd (List.cons.inj h).1 (by decide)

/-- No mark stands where the parameters of the minter do. -/
theorem exclusionKey_ne_mint (text : String) : exclusionKey text ≠ Mint.Params.key :=
  fun h => absurd (List.cons.inj h).1 (by decide)

/-- No mark stands where the state of the minter does. -/
theorem exclusionKey_ne_minter (text : String) : exclusionKey text ≠ minterKey :=
  fun h => absurd (List.cons.inj h).1 (by decide)

/-- The parameters of the minter and those of the fees have keys of their own. -/
theorem mint_key_ne_fee : Mint.Params.key ≠ Fee.Params.key := by decide +kernel

/-- The state of the minter is not where the parameters of the fees are. -/
theorem minterKey_ne_fee : minterKey ≠ Fee.Params.key :=
  fun h => absurd (List.cons.inj h).1 (by decide)

/-- The state of the minter is not where the parameters of the minter are. -/
theorem minterKey_ne_mint : minterKey ≠ Mint.Params.key :=
  fun h => absurd (List.cons.inj h).1 (by decide)

end Store

/-! ## What a store holds -/

/-- What a genesis puts under a key. -/
def Governance.Genesis.valueAt (g : Genesis) (key : Bytes) : Option Bytes :=
  if key = Fee.Params.key then some (Store.recordBytes g.feeParams.toJson)
  else if key = Mint.Params.key then some (Store.recordBytes g.mintParams.toJson)
  else if key = Store.minterKey then some (Store.recordBytes g.minter.toJson)
  else if key ∈ g.excludedTypes.map Store.exclusionKey then some Fee.Exclusions.mark
  else none

namespace Governance.Genesis

variable (g : Genesis)

/-- Under the key of the fees there are the parameters of the fees. -/
theorem valueAt_fee : g.valueAt Fee.Params.key = some (Store.recordBytes g.feeParams.toJson) :=
  if_pos rfl

/-- Under the key of the minting there are the parameters of the minter. -/
theorem valueAt_mint :
    g.valueAt Mint.Params.key = some (Store.recordBytes g.mintParams.toJson) := by
  rw [valueAt, if_neg Store.mint_key_ne_fee, if_pos rfl]

/-- Under the key of the minter there is its state. -/
theorem valueAt_minter : g.valueAt Store.minterKey = some (Store.recordBytes g.minter.toJson) := by
  rw [valueAt, if_neg Store.minterKey_ne_fee, if_neg Store.minterKey_ne_mint, if_pos rfl]

/-- The mark of a type is there exactly if the type is excluded. -/
theorem valueAt_exclusionKey (text : String) :
    g.valueAt (Store.exclusionKey text) =
      if text ∈ g.excludedTypes then some Fee.Exclusions.mark else none := by
  rw [valueAt, if_neg (Store.exclusionKey_ne_fee text), if_neg (Store.exclusionKey_ne_mint text),
    if_neg (Store.exclusionKey_ne_minter text)]
  simp only [List.mem_map, Store.exclusionKey_inj, exists_eq_right]

/-- The keys of a genesis are those of its records and of its marks. -/
theorem valueAt_isSome (key : Bytes) :
    (g.valueAt key).isSome = true ↔
      key ∈ [Fee.Params.key, Mint.Params.key, Store.minterKey] ++
        g.excludedTypes.map Store.exclusionKey := by
  unfold valueAt
  simp only [List.cons_append, List.nil_append, List.mem_cons]
  -- The keys are tried in the order of the definition.
  split
  · next h => simp [h]
  split
  · next h => simp [h]
  split
  · next h => simp [h]
  split
  · next h => simp [h]
  · next hfee hmint hminter hmark => simp [hfee, hmint, hminter, hmark]

end Governance.Genesis

/-- The entries of the store are those of the genesis. -/
def Store.Holds (s : Store) (g : Genesis) : Prop := ∀ key, s.entries.find? key = g.valueAt key

namespace Store.Holds

variable {s t : Store} {g : Genesis}

/-- A store that has taken a value under a key holds any genesis that puts this value under the key
and agrees with the one from before everywhere else. -/
theorem of_set (h : s.Holds g) {g' : Genesis} {key value : Bytes} (hset : s.set key value = .ok t)
    (hself : g'.valueAt key = some value)
    (hother : ∀ other, other ≠ key → g'.valueAt other = g.valueAt other) : t.Holds g' := by
  -- A store that has taken a value differs from the one before under that key only.
  obtain ⟨-, rfl⟩ := set_eq_ok_iff.1 hset
  intro other
  dsimp only
  rw [OrderedMap.find?_insert]
  split
  · next hkey => rw [hkey, hself]
  · next hkey => rw [h other, hother other hkey]

/-- Saving parameters of the fees replaces those of the genesis. -/
theorem saveFee (h : s.Holds g) {p : Fee.Params} (hsave : p.save s = .ok t) :
    t.Holds { g with feeParams := p } :=
  h.of_set hsave (Genesis.valueAt_fee _) fun other hother => by
    simp only [Genesis.valueAt, hother, if_false]

/-- Saving parameters of the minter replaces those of the genesis. -/
theorem saveMint (h : s.Holds g) {p : Mint.Params} (hsave : p.save s = .ok t) :
    t.Holds { g with mintParams := p } :=
  h.of_set hsave (Genesis.valueAt_mint _) fun other hother => by
    simp only [Genesis.valueAt, hother, if_false]

/-- Saving a state of the minter replaces that of the genesis. -/
theorem saveMinter (h : s.Holds g) {state : Mint.State} (hsave : state.save s = .ok t) :
    t.Holds { g with minter := state } :=
  h.of_set hsave (Genesis.valueAt_minter _) fun other hother => by
    simp only [Genesis.valueAt, hother, if_false]

/-- Excluding a type adds it to those of the genesis. -/
theorem exempt (h : s.Holds g) {text : String} (hadd : Fee.Exclusions.add s text = .ok t) :
    t.Holds { g with excludedTypes := text :: g.excludedTypes } := by
  refine h.of_set hadd ?_ fun other hother => ?_
  · rw [Genesis.valueAt_exclusionKey, if_pos List.mem_cons_self]
  · simp only [Genesis.valueAt, List.map_cons, List.mem_cons, hother, false_or]

/-- Charging for a type again takes it out of those of the genesis, however often it is there. -/
theorem charge (h : s.Holds g) {text : String} (hremove : Fee.Exclusions.remove s text = .ok t) :
    t.Holds { g with excludedTypes := g.excludedTypes.filter (· ≠ text) } := by
  obtain ⟨-, rfl⟩ := delete_eq_ok_iff.1 hremove
  intro key
  dsimp only
  rw [OrderedMap.find?_erase, h key]
  split
  · next hkey => rw [hkey, Genesis.valueAt_exclusionKey, if_neg (by simp)]
  · next hkey =>
    -- A type other than the one that goes stays where it is.
    have hmem : key ∈ (g.excludedTypes.filter (· ≠ text)).map exclusionKey ↔
        key ∈ g.excludedTypes.map exclusionKey := by
      simp only [List.mem_map, List.mem_filter, decide_eq_true_eq]
      refine ⟨fun ⟨other, hother, heq⟩ => ⟨other, hother.1, heq⟩, fun ⟨other, hother, heq⟩ => ?_⟩
      exact ⟨other, ⟨hother, fun h => hkey (h ▸ heq.symm)⟩, heq⟩
    simp only [Genesis.valueAt, hmem]

/-! ## Reading -/

/-- The parameters of the fees are read as they are, but for the sign of a zero. -/
theorem loadFee (h : s.Holds g) (hmedium : s.medium = .sound) :
    Governance.loadFee s = .ok g.feeParams.unsigned :=
  loadFee_of_find? ((h _).trans g.valueAt_fee) (by rw [hmedium]; rfl)

/-- The parameters of the minter are read as they are, but for the sign of a zero. -/
theorem loadMint (h : s.Holds g) (hmedium : s.medium = .sound) :
    Governance.loadMint s = .ok g.mintParams.unsigned :=
  loadMint_of_find? ((h _).trans g.valueAt_mint) (by rw [hmedium]; rfl)

/-- The state of the minter is read as it is. -/
theorem loadMinter (h : s.Holds g) (hmedium : s.medium = .sound) :
    Mint.State.load s = .ok (some g.minter) :=
  getRecord_of_find? ((h _).trans g.valueAt_minter) (g.minter.isPlain_toJson _)
    g.minter.ofJson_toJson (by rw [hmedium]; rfl)

end Store.Holds

/-! ## Writing a whole genesis -/

namespace Governance.Genesis

/-- The marks of excluded types are written one after the other. -/
theorem find?_of_marks {types : List String} {s t : Store}
    (h : (Attempt.forEach (fun text => Proposal.write fun s => Fee.Exclusions.add s text)
      types).run s = (.ok (), t)) :
    t.medium = s.medium ∧ ∀ key, t.entries.find? key =
      if key ∈ types.map Store.exclusionKey then some Fee.Exclusions.mark
      else s.entries.find? key := by
  -- By induction on the types. The first mark is under the others only if a later one repeats it.
  induction types generalizing s with
  | nil =>
    obtain ⟨-, rfl⟩ := Attempt.run_pure_eq_ok.1 h
    exact ⟨rfl, fun key => by simp⟩
  | cons text rest ih =>
    obtain ⟨u, hwrite, h⟩ := Attempt.run_forEach_cons_eq_ok.1 h
    obtain ⟨-, rfl⟩ := Store.set_eq_ok_iff.1
      (Except.mapError_eq_ok_iff.1 (Attempt.run_change_eq_ok.1 hwrite))
    obtain ⟨hmedium, hfind⟩ := ih h
    refine ⟨hmedium, fun key => ?_⟩
    rw [hfind key, OrderedMap.find?_insert]
    simp only [List.map_cons, List.mem_cons]
    by_cases hrest : key ∈ rest.map Store.exclusionKey <;> simp [hrest]

/-- A genesis that has been written has passed its check, and stands in front of what was there. -/
theorem find?_of_init {g : Genesis} {s t : Store} (h : g.init.run s = (.ok (), t)) :
    g.check = .ok () ∧ t.medium = s.medium ∧
      ∀ key, t.entries.find? key = (g.valueAt key).or (s.entries.find? key) := by
  -- The steps of the genesis one after the other: check, fees, minting, marks, minter.
  obtain ⟨_, _, hrunCheck, h⟩ := Attempt.run_bind_eq_ok.1 h
  obtain ⟨hcheck, rfl⟩ := Attempt.run_ofExcept_eq_ok.1 hrunCheck
  obtain ⟨_, first, hrunFee, h⟩ := Attempt.run_bind_eq_ok.1 h
  obtain ⟨-, hfee⟩ := saveFee_eq_ok_iff.1 (Attempt.run_change_eq_ok.1 hrunFee)
  obtain ⟨-, rfl⟩ := Store.set_eq_ok_iff.1 hfee
  obtain ⟨_, second, hrunMint, h⟩ := Attempt.run_bind_eq_ok.1 h
  obtain ⟨-, hmint⟩ := saveMint_eq_ok_iff.1 (Attempt.run_change_eq_ok.1 hrunMint)
  obtain ⟨-, rfl⟩ := Store.set_eq_ok_iff.1 hmint
  obtain ⟨_, third, hmarks, h⟩ := Attempt.run_bind_eq_ok.1 h
  obtain ⟨hmedium, hfind⟩ := find?_of_marks hmarks
  obtain ⟨-, rfl⟩ := Store.set_eq_ok_iff.1
    (Except.mapError_eq_ok_iff.1 (Attempt.run_change_eq_ok.1 h))
  refine ⟨hcheck, hmedium, fun key => ?_⟩
  dsimp only
  rw [OrderedMap.find?_insert, hfind key, OrderedMap.find?_insert, OrderedMap.find?_insert]
  -- Each of the keys is written once, so that the order of the writes does not matter.
  have hother : ∀ {other : Bytes}, (∀ text, Store.exclusionKey text ≠ other) →
      other ∉ g.excludedTypes.map Store.exclusionKey := fun hne hmem => by
    obtain ⟨text, -, heq⟩ := List.mem_map.1 hmem
    exact hne text heq
  rcases eq_or_ne key Fee.Params.key with rfl | hfee
  · rw [if_neg Store.minterKey_ne_fee.symm, if_neg (hother Store.exclusionKey_ne_fee),
      if_neg Store.mint_key_ne_fee.symm, if_pos rfl, valueAt_fee, Option.some_or]
  rcases eq_or_ne key Mint.Params.key with rfl | hmint
  · rw [if_neg Store.minterKey_ne_mint.symm, if_neg (hother Store.exclusionKey_ne_mint),
      if_pos rfl, valueAt_mint, Option.some_or]
  rcases eq_or_ne key Store.minterKey with rfl | hminter
  · rw [if_pos rfl, valueAt_minter, Option.some_or]
  rw [if_neg hminter, if_neg hmint, if_neg hfee, valueAt, if_neg hfee, if_neg hmint, if_neg hminter]
  split <;> rfl

/-- A store that has been empty holds the genesis that has been written into it. -/
theorem holds_of_init {g : Genesis} {medium : Medium} {t : Store}
    (h : g.init.run (Store.empty medium) = (.ok (), t)) : t.Holds g := fun key => by
  rw [(find?_of_init h).2.2 key]
  exact Option.or_none

/-- A medium that does not fail takes all marks. -/
private theorem exists_marks (types : List String) {s : Store} (hmedium : s.medium = .sound) :
    ∃ t, (Attempt.forEach (fun text => Proposal.write fun s => Fee.Exclusions.add s text)
      types).run s = (.ok (), t) ∧ t.medium = .sound := by
  -- By induction on the types: a sound medium is sound after every write.
  induction types generalizing s with
  | nil => exact ⟨s, rfl, hmedium⟩
  | cons text rest ih =>
    obtain ⟨u, hset, hmedium⟩ :=
      Store.exists_set_eq_ok hmedium (Store.exclusionKey text) Fee.Exclusions.mark
    obtain ⟨t, hrest, hmedium⟩ := ih hmedium
    exact ⟨t, Attempt.run_forEach_cons_eq_ok.2
      ⟨u, Attempt.run_change_eq_ok.2 (Except.mapError_eq_ok_iff.2 hset), hrest⟩, hmedium⟩

/-- A genesis that passes its check can be written. -/
theorem exists_init_eq_ok {g : Genesis} (hcheck : g.check = .ok ()) {s : Store}
    (hmedium : s.medium = .sound) : ∃ t, g.init.run s = (.ok (), t) := by
  have hparts := hcheck
  simp only [check, Except.check_eq_ok_iff, Except.mapError_eq_ok_iff] at hparts
  obtain ⟨hfeeCheck, -, hmintCheck, -⟩ := hparts
  -- Every write that the genesis makes succeeds on what the one before has left.
  obtain ⟨first, hfee, hmedium⟩ := Store.exists_set_eq_ok hmedium Fee.Params.key
    (Store.recordBytes g.feeParams.toJson)
  obtain ⟨second, hmint, hmedium⟩ := Store.exists_set_eq_ok hmedium Mint.Params.key
    (Store.recordBytes g.mintParams.toJson)
  obtain ⟨third, hmarks, hmedium⟩ := exists_marks g.excludedTypes hmedium
  obtain ⟨t, hminter, -⟩ := Store.exists_set_eq_ok hmedium Store.minterKey
    (Store.recordBytes g.minter.toJson)
  refine ⟨t, ?_⟩
  refine Attempt.run_bind_eq_ok.2 ⟨(), s, Attempt.run_ofExcept_eq_ok.2 ⟨hcheck, rfl⟩, ?_⟩
  refine Attempt.run_bind_eq_ok.2 ⟨(), first, Attempt.run_change_eq_ok.2
    (saveFee_eq_ok_iff.2 ⟨hfeeCheck, hfee⟩), ?_⟩
  refine Attempt.run_bind_eq_ok.2 ⟨(), second, Attempt.run_change_eq_ok.2
    (saveMint_eq_ok_iff.2 ⟨hmintCheck, hmint⟩), ?_⟩
  refine Attempt.run_bind_eq_ok.2 ⟨(), third, hmarks, ?_⟩
  exact Attempt.run_change_eq_ok.2 (Except.mapError_eq_ok_iff.2 hminter)

end Governance.Genesis

end ChainEconomy
