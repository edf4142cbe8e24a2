import ChainEconomy.Proofs.EconomySoundness
import ChainEconomy.Proofs.PrefixScan

/-!
# Genesis out of a store and back

The economy in a store can be read out of it as a genesis, written as a document, read back and
written into another store. Two things change on the way: the excluded types come in the order of
their bytes, and a rate of zero comes without its minus sign.

## Key results

- `Genesis.parse_renderPretty`: documents
- `Store.Holds.ofStore`: the genesis in a store
- `Genesis.export_import`: from a store to a store, and from a genesis to a genesis
- `Genesis.export_import_loses_sign`: a minus sign that gets lost
-/

namespace ChainEconomy

open Governance KeyOrder

/-! ## Documents -/

namespace Governance.Genesis

/-- The genesis as it is read back. -/
def unsigned (g : Genesis) : Genesis :=
  { g with feeParams := g.feeParams.unsigned, mintParams := g.mintParams.unsigned }

/-- What has been read back once has no signs of zero left to lose. -/
theorem unsigned_unsigned (g : Genesis) : g.unsigned.unsigned = g.unsigned := by
  simp only [unsigned, Fee.Params.unsigned, Mint.Params.unsigned, Rate.unsigned_unsigned]

/-- The sections of a genesis nest four levels deep. -/
theorem fieldsPlain_sections (room : Nat) (g : Genesis) :
    Json.fieldsPlain (room + 4) g.sections = true := by
  have hfee : Json.isPlain (room + 3) g.feeParams.toJson = true := g.feeParams.isPlain_toJson room
  have hmint : Json.isPlain (room + 3) g.mintParams.toJson = true :=
    g.mintParams.isPlain_toJson (room + 2)
  have hminter : Json.isPlain (room + 3) g.minter.toJson = true :=
    g.minter.isPlain_toJson (room + 2)
  have htypes : Json.isPlain (room + 3) (.ofList Json.string g.excludedTypes) = true :=
    Json.isPlain_ofList (fun _ => rfl) g.excludedTypes
  simp [sections, Json.isPlain, Json.fieldsPlain, hfee, hmint, hminter, htypes]

/-- A genesis is not nested more deeply than the reader goes. -/
theorem isPlain_toJson (g : Genesis) : Json.isPlain Json.maxDepth g.toJson = true :=
  g.fieldsPlain_sections 122

/-- The section of the fees is decoded as its parameters and excluded types. -/
theorem feeOfJson_toJson (p : Fee.Params) (types : List String) :
    feeOfJson (.object [("params", p.toJson),
      ("excluded_message_types", .ofList Json.string types)]) = .ok (p.unsigned, types) := by
  have htext : ∀ text, Json.toText (.string text) = .ok text := fun _ => rfl
  have htypes : Json.toList Json.toText (.ofList Json.string types) = .ok types :=
    Json.toList_ofList htext types
  -- The fields stand where they are looked for, each of them once.
  rw [feeOfJson, Json.record, Json.Record.required_eq_ok 0 rfl p.ofJson_toJson,
    Json.Record.optional_eq_ok _ 1 rfl htypes]
  rfl

/-- The section of the minting is decoded as its parameters and the state of the minter. -/
theorem mintOfJson_toJson (p : Mint.Params) (minter : Mint.State) :
    mintOfJson (.object [("params", p.toJson), ("minter", minter.toJson)]) =
      .ok (p.unsigned, minter) := by
  rw [mintOfJson, Json.record, Json.Record.required_eq_ok 0 rfl p.ofJson_toJson,
    Json.Record.optional_eq_ok _ 1 rfl minter.ofJson_toJson]
  rfl

/-- The JSON of a genesis is decoded as the genesis, without signs of zero. -/
theorem ofJson_toJson (g : Genesis) : ofJson g.toJson = .ok g.unsigned := by
  rw [ofJson, toJson, sections, Json.record, ofRecord,
    Json.Record.required_eq_ok 0 rfl (feeOfJson_toJson g.feeParams g.excludedTypes),
    Json.Record.required_eq_ok 1 rfl (mintOfJson_toJson g.mintParams g.minter)]
  rfl

/-- A document with one item a line is read as the genesis it was written from. -/
theorem parse_renderPretty (g : Genesis) : parse g.toJson.renderPretty = .ok g.unsigned := by
  rw [parse, Json.decodeText_renderPretty ofJson g.isPlain_toJson, ofJson_toJson]
  rfl

end Governance.Genesis

/-! ## Excluded types -/

/-- The types stand in strictly ascending order of their bytes. -/
def Fee.Exclusions.InByteOrder (types : List String) : Prop :=
  types.Pairwise fun a b => Before (Text.Utf8.ofString a) (Text.Utf8.ofString b)

namespace Fee.Exclusions

/-- Marks are in the order of the types that they are for. -/
theorem before_exclusionKey {a b : String} :
    Before (Store.exclusionKey a) (Store.exclusionKey b) ↔
      Before (Text.Utf8.ofString a) (Text.Utf8.ofString b) := by
  have hcmp : KeyOrder.cmp (Store.exclusionKey a) (Store.exclusionKey b) =
      (KeyOrder.cmp (0x01 : UInt8) 0x01).then
        (KeyOrder.cmp (Text.Utf8.ofString a) (Text.Utf8.ofString b)) := rfl
  rw [Before, hcmp, cmp_self]
  rfl

/-- No type stands twice in a list in order. -/
theorem InByteOrder.nodup {types : List String} (h : InByteOrder types) : types.Nodup :=
  List.Pairwise.imp (fun {a b} hbefore (heq : a = b) => not_before_self _ (heq ▸ hbefore)) h

/-- Every type is read off its key. -/
theorem typesOfKeys_map (types : List String) :
    typesOfKeys (types.map Store.exclusionKey) = .ok types := by
  -- By induction on the types.
  induction types with
  | nil => rfl
  | cons text rest ih =>
    have hdecode : Text.Utf8.decode
        ((Store.exclusionKey text).drop Store.exclusionStart.length) = .ok text.toList :=
      Text.Utf8.decode_encode text.toList
    rw [List.map_cons, typesOfKeys]
    simp only [hdecode, ih, Except.map, String.ofList_toList]

end Fee.Exclusions

namespace Store.Holds

open Fee.Exclusions

variable {s : Store} {g : Genesis}

/-- Of the keys of an economy, those of its marks start with the byte of marks. -/
theorem exists_type_of_key (h : s.Holds g) {key value : Bytes}
    (hentry : (key, value) ∈ s.entries.entries) (hstart : startsWith exclusionStart key = true) :
    ∃ text ∈ g.excludedTypes, exclusionKey text = key := by
  -- What is found in the store is there for the genesis, and its keys are known.
  have hsome : (g.valueAt key).isSome = true := by
    rw [← h key, OrderedMap.find?_eq_some_iff.2 hentry]
    rfl
  rcases List.mem_append.1 ((g.valueAt_isSome key).1 hsome) with hrecord | hmark
  · -- The other records have keys with other first bytes.
    have hother : ∀ other ∈ [Fee.Params.key, Mint.Params.key, minterKey],
        startsWith exclusionStart other = false := by decide +kernel
    cases (hother key hrecord).symm.trans hstart
  · exact List.mem_map.1 hmark

/-- The types are listed in the order of their bytes, each of them once. -/
theorem toList (h : s.Holds g) (hmedium : s.medium = .sound) :
    ∃ types, Fee.Exclusions.toList s = .ok types ∧ InByteOrder types ∧
      ∀ text, text ∈ types ↔ text ∈ g.excludedTypes := by
  have hscan : s.scan exclusionStart =
      .ok (s.entries.entries.filter fun e => startsWith exclusionStart e.1) := by
    rw [← entriesUnder_eq_filter]
    unfold scan
    rw [hmedium]
    rfl
  generalize hfound : (s.entries.entries.filter fun e => startsWith exclusionStart e.1) = found
    at hscan
  -- Each key that is found is the key of one of the types.
  have hkeys : found.map Prod.fst ∈ Set.range (List.map exclusionKey) := by
    rw [Set.range_list_map]
    intro key hkey
    obtain ⟨e, he, rfl⟩ := List.mem_map.1 hkey
    rw [← hfound, List.mem_filter] at he
    obtain ⟨text, -, heq⟩ := h.exists_type_of_key he.1 he.2
    exact ⟨text, heq⟩
  obtain ⟨types, htypes⟩ := hkeys
  have hasc : (types.map exclusionKey).Pairwise Before := by
    rw [htypes, ← hfound, List.pairwise_map]
    exact s.entries.ascending.filter _
  refine ⟨types, ?_, ?_, fun text => ?_⟩
  · rw [Fee.Exclusions.toList, hscan, ← typesOfKeys_map, htypes]
  · exact (List.pairwise_map.1 hasc).imp before_exclusionKey.1
  · have hmem : text ∈ types ↔ exclusionKey text ∈ found.map Prod.fst := by
      rw [← htypes, List.mem_map_of_injective fun _ _ => exclusionKey_inj.1]
    have hstart : startsWith exclusionStart (exclusionKey text) = true :=
      List.isPrefixOf_iff_prefix.2 (List.prefix_append _ _)
    have hvalue := h (exclusionKey text)
    rw [g.valueAt_exclusionKey] at hvalue
    rw [hmem]
    constructor
    · intro hkey
      obtain ⟨⟨key, value⟩, he, rfl⟩ := List.mem_map.1 hkey
      rw [← hfound, List.mem_filter] at he
      rw [OrderedMap.find?_eq_some_iff.2 he.1] at hvalue
      by_contra hnot
      rw [if_neg hnot] at hvalue
      cases hvalue
    · intro htext
      rw [if_pos htext, OrderedMap.find?_eq_some_iff] at hvalue
      rw [← hfound]
      exact List.mem_map.2 ⟨_, List.mem_filter.2 ⟨hvalue, hstart⟩, rfl⟩

/-- The genesis that is read out of a store is the one it holds, with the types in order and without
signs of zero. -/
theorem ofStore (h : s.Holds g) (hmedium : s.medium = .sound) :
    ∃ types, Genesis.ofStore s = .ok { g.unsigned with excludedTypes := types } ∧
      InByteOrder types ∧ ∀ text, text ∈ types ↔ text ∈ g.excludedTypes := by
  obtain ⟨types, htypes, horder, hmem⟩ := h.toList hmedium
  refine ⟨types, ?_, horder, hmem⟩
  unfold Genesis.ofStore
  rw [h.loadMinter hmedium, h.loadFee hmedium, h.loadMint hmedium, htypes]
  rfl

end Store.Holds

/-! ## From a store to a store -/

/-- What becomes of the value under a key on the way out of a store and into another one: it stays
what it is, unless it is the record of parameters whose rate is a zero with a minus sign. Then the
sign is left out, and nothing else. -/
inductive Store.Reimported (key : Bytes) (before after : Option Bytes) : Prop
  | same (hsame : after = before)
  | fee (p : Fee.Params) (hkey : key = Fee.Params.key) (hsign : p.percentage.isMinusZero = true)
    (hbefore : before = some (recordBytes p.toJson))
    (hafter : after = some (recordBytes p.unsigned.toJson))
  | mint (p : Mint.Params) (hkey : key = Mint.Params.key)
    (hsign : p.ratePerSecond.isMinusZero = true)
    (hbefore : before = some (recordBytes p.toJson))
    (hafter : after = some (recordBytes p.unsigned.toJson))

/-- No key comes or goes on the way. -/
theorem Store.Reimported.isSome_eq {key : Bytes} {before after : Option Bytes}
    (h : Reimported key before after) : after.isSome = before.isSome := by
  cases h with
  | same hsame => rw [hsame]
  | fee p _ _ hbefore hafter => rw [hbefore, hafter]; rfl
  | mint p _ _ hbefore hafter => rw [hbefore, hafter]; rfl

namespace Governance.Genesis

open Fee.Exclusions Chain

/-- The records of a genesis without signs of zero, and with the types in another order. -/
theorem reimported_valueAt (g : Genesis) {types : List String}
    (hmem : ∀ text, text ∈ types ↔ text ∈ g.excludedTypes) (key : Bytes) :
    Store.Reimported key (g.valueAt key)
      (valueAt { g.unsigned with excludedTypes := types } key) := by
  -- The two records of parameters may lose a sign, and no other value can.
  rcases eq_or_ne key Fee.Params.key with rfl | hfee
  · rw [valueAt_fee, valueAt_fee]
    cases hsign : g.feeParams.percentage.isMinusZero with
    | true => exact .fee g.feeParams rfl hsign rfl rfl
    | false =>
      refine .same ?_
      simp only [unsigned, Fee.Params.unsigned, Rate.unsigned_eq_self_iff.2 hsign]
  rcases eq_or_ne key Mint.Params.key with rfl | hmint
  · rw [valueAt_mint, valueAt_mint]
    cases hsign : g.mintParams.ratePerSecond.isMinusZero with
    | true => exact .mint g.mintParams rfl hsign rfl rfl
    | false =>
      refine .same ?_
      simp only [unsigned, Mint.Params.unsigned, Rate.unsigned_eq_self_iff.2 hsign]
  refine .same ?_
  have hmarks : key ∈ types.map Store.exclusionKey ↔
      key ∈ g.excludedTypes.map Store.exclusionKey := by
    simp only [List.mem_map, hmem]
  simp only [valueAt, hfee, hmint, hmarks, if_false, unsigned]

/-- A sound genesis that has been read out of a store passes its check. -/
theorem check_of_isSound {g : Genesis} (hg : g.IsSound) {types : List String}
    (horder : InByteOrder types) (hmem : ∀ text, text ∈ types ↔ text ∈ g.excludedTypes) :
    check { g.unsigned with excludedTypes := types } = .ok () :=
  check_eq_ok_iff.2 ⟨⟨Fee.Params.check_unsigned.2 hg.fee,
    fun text htext => hg.types text ((hmem text).1 htext), Mint.Params.check_unsigned.2 hg.mint,
    hg.minter⟩, horder.nodup⟩

/-- What is read out of the store of a chain passes its check, is read back from its document, and
gives a new store the same keys with the same bytes under them, but for signs of zero. What is
written from a genesis is read out as the genesis, with the types in the order of their bytes, and
again but for signs of zero. -/
theorem export_import :
    (∀ (g : Genesis) (c : Chain) (steps : List Step),
      g.init.run (Store.empty .sound) = (.ok (), c.store) → (∀ m, Step.medium m ∉ steps) →
        ∃ out t, ofStore (c.after steps).store = .ok out ∧ out.check = .ok () ∧
          parse out.toJson.renderPretty = .ok out ∧
          out.init.run (Store.empty .sound) = (.ok (), t) ∧
          t.entries.keys = (c.after steps).store.entries.keys ∧
          ∀ key, Store.Reimported key ((c.after steps).store.entries.find? key)
            (t.entries.find? key)) ∧
      ∀ g : Genesis, g.check = .ok () →
        ∃ s types, g.init.run (Store.empty .sound) = (.ok (), s) ∧
          ofStore s = .ok { g.unsigned with excludedTypes := types } ∧ InByteOrder types ∧
          types.Perm g.excludedTypes := by
  constructor
  · intro g c steps hinit hmedium
    -- What the store holds after any steps is a sound genesis, though not the first one any more.
    have hsound := after_keeps_sound hmedium (isSound_of_init hinit)
    obtain ⟨held, hheld, hholds⟩ := hsound.holds
    obtain ⟨types, hout, horder, hmem⟩ := hholds.ofStore hsound.medium
    have hcheck := check_of_isSound hheld horder hmem
    obtain ⟨t, ht⟩ := exists_init_eq_ok hcheck (s := Store.empty .sound) rfl
    have hreimported : ∀ key, Store.Reimported key ((c.after steps).store.entries.find? key)
        (t.entries.find? key) := fun key => by
      rw [hholds key, holds_of_init ht key]
      exact held.reimported_valueAt hmem key
    refine ⟨_, t, hout, hcheck, ?_, ht, ?_, hreimported⟩
    · -- Signs of zero have already been left out.
      rw [parse_renderPretty]
      exact congrArg _ (congrArg (fun u : Genesis => { u with excludedTypes := types })
        held.unsigned_unsigned)
    · exact OrderedMap.keys_ext fun key => (hreimported key).isSome_eq
  · intro g hcheck
    -- What has just been written is held as it is.
    obtain ⟨s, hinit⟩ := exists_init_eq_ok hcheck (s := Store.empty .sound) rfl
    obtain ⟨types, hout, horder, hmem⟩ :=
      (holds_of_init hinit).ofStore (find?_of_init hinit).2.1
    exact ⟨s, types, hinit, hout, horder, (List.perm_ext_iff_of_nodup horder.nodup
      (check_eq_ok_iff.1 hcheck).2).2 hmem⟩

/-- A genesis with two excluded types that are out of order. -/
def sampleUnordered : Genesis :=
  { Sample.genesis.economy with excludedTypes := ["names/RegisterName", "bank/Send"] }

/-- The economy of a chain after its first block can be read out and written again, and the types of
a genesis are put in order. -/
theorem export_import_sample :
    (∃ out t, ofStore (Sample.chain.after Sample.steps).store = .ok out ∧
      parse out.toJson.renderPretty = .ok out ∧
      out.init.run (Store.empty .sound) = (.ok (), t) ∧
      t.entries.keys = (Sample.chain.after Sample.steps).store.entries.keys) ∧
    ∃ s, sampleUnordered.init.run (Store.empty .sound) = (.ok (), s) ∧
      ofStore s = .ok { sampleUnordered with
        excludedTypes := ["bank/Send", "names/RegisterName"] } := by
  have hinit : Sample.genesis.economy.init.run (Store.empty .sound) =
      (.ok (), Sample.chain.store) :=
    Prod.ext (Except.eq_ok_of_isOk (by decide +kernel)) rfl
  have hmedium : ∀ m, Step.medium m ∉ Sample.steps := by simp [Sample.steps]
  obtain ⟨out, t, hout, -, hparse, ht, hkeys, -⟩ := export_import.1 _ _ _ hinit hmedium
  have hcheck : sampleUnordered.check = .ok () := Except.eq_ok_of_isOk (by decide +kernel)
  obtain ⟨s, types, hs, hread, horder, hperm⟩ := export_import.2 _ hcheck
  have hsorted : InByteOrder ["bank/Send", "names/RegisterName"] := by
    unfold InByteOrder
    decide +kernel
  -- There is one way only to put the types in order.
  have htypes : types = ["bank/Send", "names/RegisterName"] :=
    (hperm.trans (List.Perm.swap _ _ _)).eq_of_pairwise
      (fun x y _ _ hxy hyx => absurd (hxy.trans hyx) (not_before_self _)) horder hsorted
  rw [htypes] at hread
  exact ⟨⟨out, t, hout, hparse, ht, hkeys⟩, s, hs, hread⟩

/-- A genesis with a rate that is so small that rounding has left nothing but its sign. -/
def sampleMinusZero : Genesis :=
  let rate : Rate := { Rate.zero with negative := true, scale := 28, scale_le := Nat.le_refl 28 }
  { Sample.genesis.economy with mintParams := ⟨"utoll", rate, 604800⟩ }

/-- The record of the mint parameters comes back with other bytes. -/
theorem export_import_loses_sign :
    Rate.ofJson (.string "-0.3e-28") = .ok sampleMinusZero.mintParams.ratePerSecond ∧
      ∃ s out t, sampleMinusZero.init.run (Store.empty .sound) = (.ok (), s) ∧
        ofStore s = .ok out ∧ out.init.run (Store.empty .sound) = (.ok (), t) ∧
        t.entries.find? Mint.Params.key ≠ s.entries.find? Mint.Params.key := by
  -- The fraction is rounded away, and the sign stays with the zero.
  have hrate : (Rate.ofJson (.string "-0.3e-28")).toOption.map id =
      some sampleMinusZero.mintParams.ratePerSecond := by decide +kernel
  obtain ⟨rate, hrate, rfl⟩ := Except.exists_of_toOption_map hrate
  refine ⟨hrate, ?_⟩
  have hcheck : sampleMinusZero.check = .ok () := Except.eq_ok_of_isOk (by decide +kernel)
  obtain ⟨s, hs⟩ := exists_init_eq_ok hcheck (s := Store.empty .sound) rfl
  have hholds := holds_of_init hs
  obtain ⟨types, hout, horder, hmem⟩ := hholds.ofStore (find?_of_init hs).2.1
  have hagain := check_of_isSound (check_eq_ok_iff.1 hcheck).1 horder hmem
  obtain ⟨t, ht⟩ := exists_init_eq_ok hagain (s := Store.empty .sound) rfl
  refine ⟨s, _, t, hs, hout, ht, ?_⟩
  rw [holds_of_init ht, hholds, valueAt_mint, valueAt_mint]
  have hbytes : Store.recordBytes sampleMinusZero.mintParams.unsigned.toJson ≠
      Store.recordBytes sampleMinusZero.mintParams.toJson := by decide +kernel
  exact fun h => hbytes (Option.some.inj h)

end Governance.Genesis

end ChainEconomy
