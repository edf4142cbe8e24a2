import ChainEconomy.Proofs.EconomyRecords
import ChainEconomy.Proofs.PayerCharge
import ChainEconomy.Proofs.PriceItems

/-!
# What exclusions take off a price

Every message of a type that is not excluded bears a surcharge, and none is too small to do so: each
surcharge holds at least the lower one of the two bounds in the base denomination, also if the
bounds cross. Whoever sends many messages pays for many, whatever their values are.

The exclusion of a type takes off the surcharges on messages of this type. The values of messages,
and the surcharges on other types, stay as they are.

## Key results

- `Schedule.min_le_charged`: the least that a message is charged with
- `charged_messages_pay`: the least that a transaction is charged with, and when it is charged with
  nothing
- `Exclusions.contains_of_add`, `Exclusions.contains_of_remove`: what the store says behind the
  exclusion of a type, and behind its end
- `ofItems_systemFees_of_add`: the surcharges on a list of items, in front of it and behind it
- `exclusion_removes_surcharges`: the price of a transaction, in front of it and behind it
-/

namespace ChainEconomy.Fee

/-! ## The least surcharge -/

namespace Schedule

/-- Which bound is the lower one makes no difference: a percentage is raised to the minimum, and
lowered to the maximum only. -/
theorem min_le_bounded (s : Schedule) (x : Nat) :
    min (s.params.minimum.amountOf s.params.baseDenom)
      (s.params.maximum.amountOf s.params.baseDenom) ≤ s.bounded x := by
  unfold bounded
  split
  · exact Nat.min_le_left _ _
  · next hleast =>
    split
    · exact Nat.min_le_right _ _
    · exact Nat.le_trans (Nat.min_le_left _ _) (Nat.le_of_not_lt hleast)

/-- Each surcharge holds at least the lower bound in the base denomination. -/
theorem min_le_charged (s : Schedule) (value : CoinSet) :
    min (s.params.minimum.amountOf s.params.baseDenom)
        (s.params.maximum.amountOf s.params.baseDenom) ≤
      (s.charged value).amountOf s.params.baseDenom := by
  rw [amountOf_charged]
  exact s.min_le_bounded _

end Schedule

variable {schedule : Schedule} {store : Store} {names : NameRegistry} {tx : Transaction}
  {items : List Item}

/-- Every item of a type that is not excluded adds at least the lower bound. -/
theorem le_ofItems_systemFees (schedule : Schedule) (store : Store) (items : List Item) :
    (items.countP fun i => isCharged store i.typeUrl) *
        min (schedule.params.minimum.amountOf schedule.params.baseDenom)
          (schedule.params.maximum.amountOf schedule.params.baseDenom) ≤
      (Assessment.ofItems schedule store items).systemFees.amountOf schedule.params.baseDenom := by
  -- The surcharges are those of the items that are charged, and each of them is large enough.
  have hleast : ∀ fee ∈ (items.filter fun i => isCharged store i.typeUrl).map fun i =>
      schedule.charged i.value,
      min (schedule.params.minimum.amountOf schedule.params.baseDenom)
        (schedule.params.maximum.amountOf schedule.params.baseDenom) ≤
      fee.amountOf schedule.params.baseDenom := by
    intro fee hfee
    obtain ⟨i, -, rfl⟩ := List.mem_map.1 hfee
    exact schedule.min_le_charged i.value
  have hsum := CoinSet.length_mul_le_amountOf_sum hleast
  rwa [List.length_map, ← List.countP_eq_length_filter] at hsum

/-- Surcharges add up to nothing only if there are none. -/
theorem ofItems_systemFees_eq_empty_iff :
    -- Both bounds hold coins of the base denomination, so that the lower one is more than nothing.
    (Assessment.ofItems schedule store items).systemFees = CoinSet.empty ↔
      ∀ i ∈ items, isCharged store i.typeUrl = false := by
  constructor
  · intro hempty i hi
    by_contra hcharged
    rw [Bool.not_eq_false] at hcharged
    -- The surcharge on the item alone is more than nothing.
    have hcount : 0 < items.countP fun i => isCharged store i.typeUrl :=
      List.countP_pos_iff.2 ⟨i, hi, hcharged⟩
    have hleast := le_ofItems_systemFees schedule store items
    have hminimum := schedule.minimum_pos
    have hmaximum := schedule.maximum_pos
    rw [hempty, CoinSet.amountOf_empty, Nat.le_zero, Nat.mul_eq_zero] at hleast
    omega
  · intro hfree
    have hnone : (items.filter fun i => isCharged store i.typeUrl) = [] := by
      rw [List.filter_eq_nil_iff]
      intro i hi
      rw [hfree i hi]
      exact Bool.false_ne_true
    show CoinSet.sum ((items.filter fun i => isCharged store i.typeUrl).map _) = _
    rw [hnone]
    rfl

/-- Among messages whose types can be looked up, those that bear no surcharge are the excluded ones.
-/
theorem isCharged_eq_false_iff {messages : List Message} (h : TypesReadable store messages)
    {m : Message} (hm : m ∈ messages) :
    isCharged store m.typeUrl = false ↔ Exclusions.contains store m.typeUrl = .ok true := by
  obtain ⟨excluded, hexcluded⟩ := h m hm
  unfold isCharged
  rw [hexcluded]
  cases excluded <;> simp

/-- A price holds surcharges unless the types of all messages are excluded. -/
theorem systemFees_eq_empty_iff {a : Assessment} (h : compute schedule store names tx = .ok a) :
    a.systemFees = CoinSet.empty ↔
      ∀ m ∈ tx.messages, Exclusions.contains store m.typeUrl = .ok true := by
  -- Messages and items have the same types, so that it does not matter which of them is asked.
  obtain ⟨-, hreadable, items, hitems, rfl⟩ := compute_eq_ok_iff.1 h
  rw [ofItems_systemFees_eq_empty_iff,
    forall_items_iff (P := fun typeUrl => isCharged store typeUrl = false) hitems]
  exact forall₂_congr fun m hm => isCharged_eq_false_iff hreadable hm

/-- Every message of a priced transaction whose type is not excluded pays, whatever its value is:
the surcharges hold at least the lower one of the two bounds for each of them. Nothing is charged
only if the types of all messages are excluded. -/
theorem charged_messages_pay {a : Assessment} (h : compute schedule store names tx = .ok a) :
    (tx.messages.countP fun m => isCharged store m.typeUrl) *
        min (schedule.params.minimum.amountOf schedule.params.baseDenom)
          (schedule.params.maximum.amountOf schedule.params.baseDenom) ≤
      a.systemFees.amountOf schedule.params.baseDenom ∧
    (a.systemFees.isEmpty = true ↔
      ∀ m ∈ tx.messages, Exclusions.contains store m.typeUrl = .ok true) := by
  refine ⟨?_, CoinSet.isEmpty_iff.trans (systemFees_eq_empty_iff h)⟩
  obtain ⟨-, -, items, hitems, rfl⟩ := compute_eq_ok_iff.1 h
  -- Messages and items are counted by their types.
  have hcount : (tx.messages.countP fun m => isCharged store m.typeUrl) =
      items.countP fun i => isCharged store i.typeUrl := by
    show tx.messages.countP (isCharged store ∘ Message.typeUrl) =
      items.countP (isCharged store ∘ Item.typeUrl)
    rw [← List.countP_map, ← List.countP_map, map_typeUrl_itemsOf hitems]
  rw [hcount]
  exact le_ofItems_systemFees schedule store items

open Chain.Sample (chain marketGenesis spree)

/-- The store of the sample with an exclusion, that of addresses. -/
def Sample.freeAddresses : Store :=
  { chain.store with entries :=
      chain.store.entries.insert (Store.exclusionKey "names/RegisterAddress") Exclusions.mark }

/-- Three of the five messages of the sample are charged, under a minimum of ten that is above the
maximum of one. -/
theorem charged_messages_pay_sample :
    ∃ a, compute Schedule.Sample.crossed Sample.freeAddresses marketGenesis.ledger.registry spree =
        .ok a ∧
      3 * min 10 1 ≤ a.systemFees.amountOf "utoll" ∧ a.systemFees.isEmpty = false := by
  obtain ⟨a, ha, -⟩ := Except.exists_of_toOption_map (x := compute Schedule.Sample.crossed
    Sample.freeAddresses marketGenesis.ledger.registry spree) (f := fun _ => ()) (b := ())
    (by decide +kernel)
  obtain ⟨hleast, hfree⟩ := charged_messages_pay ha
  have hcount : (spree.messages.countP fun m => isCharged Sample.freeAddresses m.typeUrl) = 3 := by
    decide +kernel
  have hcharged : ¬ ∀ m ∈ spree.messages,
      Exclusions.contains Sample.freeAddresses m.typeUrl = .ok true := by decide +kernel
  rw [hcount] at hleast
  exact ⟨a, ha, hleast, Bool.eq_false_iff.2 fun h => hcharged (hfree.1 h)⟩

/-! ## The exclusion of a type -/

namespace Exclusions

/-- A change under the key of one type changes what is said about this type only; what cannot be
looked up still cannot. -/
private theorem contains_of_find? {entries : OrderedMap Bytes Bytes} {text : String}
    (record : Option Bytes)
    (h : ∀ key, entries.find? key =
      if key = Store.exclusionKey text then record else store.entries.find? key)
    (other : String) :
    contains { store with entries := entries } other =
      if other = text then (contains store text).map fun _ => record.isSome
      else contains store other := by
  unfold contains Store.has Store.get
  dsimp only
  rw [h]
  by_cases hother : other = text
  · -- A read that fails comes in front of what the entry would say.
    rw [if_pos hother, if_pos (congrArg Store.exclusionKey hother), hother]
    cases store.medium.readFailure (Store.exclusionKey text) <;> rfl
  · rw [if_neg hother, if_neg fun hkey => hother (Store.exclusionKey_inj.1 hkey)]

/-- Behind the exclusion of a type, nothing else is said about other types. -/
theorem contains_of_add {store' : Store} {typeUrl : String} (h : add store typeUrl = .ok store')
    (other : String) :
    contains store' other =
      if other = typeUrl then (contains store typeUrl).map fun _ => true
      else contains store other := by
  obtain ⟨-, rfl⟩ := Store.set_eq_ok_iff.1 h
  exact contains_of_find? (some mark) (fun key =>
    store.entries.find?_insert (Store.exclusionKey typeUrl) key mark) other

/-- Nor is it behind the end of an exclusion. -/
theorem contains_of_remove {store' : Store} {typeUrl : String}
    (h : remove store typeUrl = .ok store') (other : String) :
    contains store' other =
      if other = typeUrl then (contains store typeUrl).map fun _ => false
      else contains store other := by
  obtain ⟨-, rfl⟩ := Store.delete_eq_ok_iff.1 h
  exact contains_of_find? none (store.entries.find?_erase (Store.exclusionKey typeUrl)) other

end Exclusions

section

variable {store' : Store} {typeUrl : String} (hadd : Exclusions.add store typeUrl = .ok store')

include hadd

/-- An exclusion does not stand in the way of looking up types. -/
theorem TypesReadable.of_add {messages : List Message} (h : TypesReadable store messages) :
    TypesReadable store' messages := by
  intro m hm
  rw [Exclusions.contains_of_add hadd]
  split
  · next htype =>
    obtain ⟨excluded, hexcluded⟩ := h m hm
    rw [← htype, hexcluded]
    exact ⟨true, rfl⟩
  · exact h m hm

/-- Behind the exclusion of a type, all other types are charged as they were. -/
theorem isCharged_of_add (other : String) :
    isCharged store' other = (decide (other ≠ typeUrl) && isCharged store other) := by
  unfold isCharged
  rw [Exclusions.contains_of_add hadd]
  split
  · next htype =>
    rw [htype]
    cases Exclusions.contains store typeUrl <;> simp [Except.map]
  · next htype => simp [htype]

/-- The surcharges on items are those that are left behind the exclusion of a type, and those on the
items of the type. -/
theorem ofItems_systemFees_of_add (schedule : Schedule)
    (hcharged : ∀ i ∈ items, i.typeUrl = typeUrl → isCharged store typeUrl = true) :
    (Assessment.ofItems schedule store items).systemFees =
      (Assessment.ofItems schedule store' items).systemFees.add (CoinSet.sum
        ((items.filter fun i => i.typeUrl = typeUrl).map fun i => schedule.charged i.value)) := by
  -- The items that are charged are parted by whether they are of the type.
  have hothers : ((items.filter fun i => isCharged store i.typeUrl).filter fun i =>
      decide (i.typeUrl ≠ typeUrl)) = items.filter fun i => isCharged store' i.typeUrl := by
    rw [List.filter_filter]
    apply List.filter_congr
    intro i hi
    rw [isCharged_of_add hadd]
  have hsame : ((items.filter fun i => isCharged store i.typeUrl).filter fun i =>
      !decide (i.typeUrl ≠ typeUrl)) = items.filter fun i => i.typeUrl = typeUrl := by
    rw [List.filter_filter]
    apply List.filter_congr
    intro i hi
    by_cases htype : i.typeUrl = typeUrl
    · have hpays := hcharged i hi htype
      simp [htype, hpays]
    · simp [htype]
  have hparts := List.filter_append_perm (fun i : Item => decide (i.typeUrl ≠ typeUrl))
    (items.filter fun i => isCharged store i.typeUrl)
  rw [hothers, hsame] at hparts
  -- Sums do not depend on the order.
  have hsum := CoinSet.sum_perm (hparts.map fun i => schedule.charged i.value)
  rw [List.map_append, CoinSet.sum_append] at hsum
  exact hsum.symm

end

/-- The surcharges on items can all be worked out. -/
theorem mapM_surcharge (schedule : Schedule) (items : List Item) :
    (items.mapM fun i => schedule.surcharge i.value) =
      .ok (items.map fun i => schedule.charged i.value) := by
  simp only [Schedule.surcharge_eq_charged]
  exact List.mapM_pure

/-- The exclusion of a type that was not excluded takes exactly the surcharges on messages of this
type off a price, and leaves the values of messages alone. A transaction all of whose types are
excluded costs its values only. -/
theorem exclusion_removes_surcharges :
    (∀ (store' : Store) (typeUrl : String) (a : Assessment),
      Exclusions.contains store typeUrl ≠ .ok true →
      Exclusions.add store typeUrl = .ok store' →
      compute schedule store names tx = .ok a →
      ∃ a' items fees, compute schedule store' names tx = .ok a' ∧ a'.txFees = a.txFees ∧
        itemsOf names (Payer.ofRegistry names tx.feePayer) tx.messages = .ok items ∧
        ((items.filter fun i => i.typeUrl = typeUrl).mapM fun i => schedule.surcharge i.value) =
          .ok fees ∧
        a.systemFees = a'.systemFees.add (CoinSet.sum fees)) ∧
    ∀ a, (∀ m ∈ tx.messages, Exclusions.contains store m.typeUrl = .ok true) →
      compute schedule store names tx = .ok a →
      a.systemFees = CoinSet.empty ∧ a.total = a.txFees := by
  constructor
  · intro store' typeUrl a hnew hadd h
    obtain ⟨hcheck, hreadable, items, hitems, rfl⟩ := compute_eq_ok_iff.1 h
    -- A message of the type has been looked up, and it was not excluded.
    have hcharged : ∀ i ∈ items, i.typeUrl = typeUrl → isCharged store typeUrl = true := by
      rw [forall_items_iff (P := fun other => other = typeUrl → isCharged store typeUrl = true)
        hitems]
      rintro m hm rfl
      by_contra hfree
      rw [Bool.not_eq_true] at hfree
      exact hnew ((isCharged_eq_false_iff hreadable hm).1 hfree)
    exact ⟨Assessment.ofItems schedule store' items, items, _,
      compute_eq_ok_iff.2 ⟨hcheck, hreadable.of_add hadd, items, hitems, rfl⟩, rfl, hitems,
      mapM_surcharge schedule _, ofItems_systemFees_of_add hadd schedule hcharged⟩
  · intro a hexcluded h
    have hfree := (systemFees_eq_empty_iff h).2 hexcluded
    refine ⟨hfree, ?_⟩
    unfold Assessment.total
    rw [hfree]
    rfl

/-- Behind the exclusion of addresses, the sample costs as much as before without the surcharges on
its two addresses, one coin each. A transaction of addresses alone is then free of surcharges. -/
theorem exclusion_removes_surcharges_sample :
    (∃ a a', compute Chain.Sample.schedule chain.store marketGenesis.ledger.registry spree =
        .ok a ∧
      compute Chain.Sample.schedule Sample.freeAddresses marketGenesis.ledger.registry spree =
        .ok a' ∧
      a'.txFees = a.txFees ∧ a.systemFees.amountOf "utoll" = 5 ∧
      a.systemFees.amountOf "utoll" = a'.systemFees.amountOf "utoll" + 2) ∧
    ∃ a, compute Chain.Sample.schedule Sample.freeAddresses marketGenesis.ledger.registry
        { spree with messages := (spree.messages.drop 1).take 2 } = .ok a ∧
      a.systemFees = CoinSet.empty ∧ a.total = a.txFees := by
  constructor
  · obtain ⟨a, ha, hfive⟩ := Except.exists_of_toOption_map (x := compute Chain.Sample.schedule
      chain.store marketGenesis.ledger.registry spree)
      (f := fun a => a.systemFees.amountOf "utoll") (b := 5) (by decide +kernel)
    have hnew : Exclusions.contains chain.store "names/RegisterAddress" ≠ .ok true := by
      decide +kernel
    have hadd : Exclusions.add chain.store "names/RegisterAddress" = .ok Sample.freeAddresses :=
      Store.set_eq_ok_iff.2 ⟨rfl, rfl⟩
    obtain ⟨a', items, fees, ha', hvalues, hitems, hfees, hsum⟩ :=
      exclusion_removes_surcharges.1 _ _ a hnew hadd ha
    -- The items are evaluated up to the sum of the two surcharges.
    obtain ⟨found, hfound, hsurcharges⟩ := Except.exists_of_toOption_map
      (x := itemsOf marketGenesis.ledger.registry
        (Payer.ofRegistry marketGenesis.ledger.registry spree.feePayer) spree.messages)
      (f := fun items => (((items.filter fun i => i.typeUrl = "names/RegisterAddress").mapM fun i =>
        Chain.Sample.schedule.surcharge i.value).map fun fees =>
          (CoinSet.sum fees).amountOf "utoll").toOption) (b := some 2) (by decide +kernel)
    cases hitems.symm.trans hfound
    rw [hfees] at hsurcharges
    have htwo : (CoinSet.sum fees).amountOf "utoll" = 2 := Option.some.inj hsurcharges
    refine ⟨a, a', ha, ha', hvalues, hfive, ?_⟩
    rw [hsum, CoinSet.amountOf_add, htwo]
  · obtain ⟨a, ha, -⟩ := Except.exists_of_toOption_map (x := compute Chain.Sample.schedule
      Sample.freeAddresses marketGenesis.ledger.registry
      { spree with messages := (spree.messages.drop 1).take 2 }) (f := fun _ => ()) (b := ())
      (by decide +kernel)
    have hexcluded : ∀ m ∈ (spree.messages.drop 1).take 2,
        Exclusions.contains Sample.freeAddresses m.typeUrl = .ok true := by decide +kernel
    exact ⟨a, ha, exclusion_removes_surcharges.2 a hexcluded ha⟩

end ChainEconomy.Fee
