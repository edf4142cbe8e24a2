import ChainEconomy.Proofs.AdmissionSteps
import ChainEconomy.Proofs.SurchargeCases

/-!
# The items of a price

Pricing walks through the messages of a transaction once, and looks up exclusions while it keeps
track of the payer. What comes out can be told in two steps. The first one finds the type and the
value of each message, and knows nothing of exclusions. The second one puts a surcharge on those
items whose types are not excluded, and knows nothing of the payer, of other messages or of their
order. So the price of a transaction is two sums over a list of items.

## Key results

- `Schedule.charged`, `Schedule.surcharge_eq_charged`: the surcharge on a value, which there always
  is
- `Item`, `itemsOf`: types and values of messages
- `charges_eq_ok_iff`, `compute_eq_ok_iff`: when a transaction has a price, and which one
-/

namespace ChainEconomy.Fee

/-! ## Surcharges -/

namespace Schedule

/-- The surcharge on a message of a given value. -/
def charged (s : Schedule) (value : CoinSet) : CoinSet :=
  (s.surcharge value).toOption.getD CoinSet.empty

/-- There is a surcharge on every value. -/
theorem surcharge_eq_charged (s : Schedule) (value : CoinSet) :
    s.surcharge value = .ok (s.charged value) := by
  obtain ⟨fee, hfee, -⟩ := s.surcharge_eq_clamp value
  rw [charged, hfee]
  rfl

/-- In the base denomination, a surcharge holds the percentage, held within its bounds. -/
theorem amountOf_charged (s : Schedule) (value : CoinSet) :
    (s.charged value).amountOf s.params.baseDenom = s.bounded (s.percentageOf value) := by
  obtain ⟨fee, hfee, hamount⟩ := s.surcharge_amount value
  rw [surcharge_eq_charged] at hfee
  cases hfee
  exact hamount

end Schedule

/-- Whether messages of a type bear a surcharge: the store says that the type is not excluded. -/
def isCharged (store : Store) (typeUrl : String) : Bool :=
  decide (Exclusions.contains store typeUrl = .ok false)

/-- The store says of each message whether its type is excluded. -/
def TypesReadable (store : Store) (messages : List Message) : Prop :=
  ∀ m ∈ messages, ∃ excluded, Exclusions.contains store m.typeUrl = .ok excluded

variable {schedule : Schedule} {store : Store} {names : NameRegistry} {tx : Transaction}
  {p : Payer} {messages : List Message}

/-- Every type can be looked up on a medium that does not fail. -/
theorem TypesReadable.of_sound (h : store.medium = .sound) (messages : List Message) :
    TypesReadable store messages := by
  intro m hm
  unfold Exclusions.contains Store.has
  rw [Store.get_of_sound h]
  exact ⟨_, rfl⟩

/-- A surcharge is found if the type can be looked up, and is nothing for an excluded type. -/
theorem messageSurcharge_eq_ok_iff {typeUrl : String} {value fee : CoinSet} :
    messageSurcharge schedule store typeUrl value = .ok fee ↔
      (∃ excluded, Exclusions.contains store typeUrl = .ok excluded) ∧
        (if isCharged store typeUrl then schedule.charged value else CoinSet.empty) = fee := by
  unfold messageSurcharge isCharged
  -- The type cannot be looked up, or it is excluded, or it is charged.
  cases Exclusions.contains store typeUrl with
  | error e => simp
  | ok excluded =>
    cases excluded with
    | true => simp
    | false => simp [Schedule.surcharge_eq_charged, Except.mapError]

/-! ## Items -/

/-- What the price of a message is made of. -/
structure Item where
  typeUrl : String
  value : CoinSet
  deriving DecidableEq

/-- What the message of an item costs. -/
def Item.charge (schedule : Schedule) (store : Store) (i : Item) : Charge :=
  ⟨i.value, if isCharged store i.typeUrl then schedule.charged i.value else CoinSet.empty⟩

/-- The items of several messages. The value of each one is that for the payer whom the messages in
front of it leave. -/
def itemsOf (names : NameRegistry) : Payer → List Message → Except AdmissionError (List Item)
  | _, [] => .ok []
  | p, m :: rest =>
    match messageValue names p m with
    | .error e => .error e
    | .ok (value, p) => (itemsOf names p rest).map (⟨m.typeUrl, value⟩ :: ·)

/-- The price of messages with the given items. -/
def Assessment.ofItems (schedule : Schedule) (store : Store) (items : List Item) : Assessment :=
  ⟨CoinSet.sum (items.map Item.value),
    CoinSet.sum ((items.filter fun i => isCharged store i.typeUrl).map fun i =>
      schedule.charged i.value)⟩

/-- Charges that are added up one by one come to the price of their items. -/
theorem Assessment.ofCharges_map_charge (items : List Item) :
    ofCharges (items.map (Item.charge schedule store)) = ofItems schedule store items := by
  unfold ofCharges ofItems
  rw [List.map_map, List.map_map, ← CoinSet.sum_map_ite]
  rfl

/-- Each message has an item of its type. -/
theorem map_typeUrl_itemsOf {items : List Item} (h : itemsOf names p messages = .ok items) :
    items.map Item.typeUrl = messages.map Message.typeUrl := by
  -- By induction on the messages, for any payer.
  induction messages generalizing p items with
  | nil => cases h; rfl
  | cons m rest ih =>
    unfold itemsOf at h
    split at h
    · cases h
    · obtain ⟨others, hothers, rfl⟩ := Except.map_eq_ok_iff.1 h
      rw [List.map_cons, List.map_cons, ih hothers]

/-- What is said about the types of items is said about the types of messages. -/
theorem forall_items_iff {items : List Item} (h : itemsOf names p messages = .ok items)
    {P : String → Prop} : (∀ i ∈ items, P i.typeUrl) ↔ ∀ m ∈ messages, P m.typeUrl := by
  -- Both are the same statement about the list of types.
  have htypes := map_typeUrl_itemsOf h
  rw [← List.forall_mem_map (f := Item.typeUrl) (P := P), htypes, List.forall_mem_map]

/-! ## Prices -/

/-- Messages are charged for if the types of all of them can be looked up and all of them have
values, and then as their items say. -/
theorem charges_eq_ok_iff {all : List Charge} :
    charges schedule store names p messages = .ok all ↔
      TypesReadable store messages ∧ ∃ items, itemsOf names p messages = .ok items ∧
        items.map (Item.charge schedule store) = all := by
  -- By induction on the messages, for any payer.
  induction messages generalizing p all with
  | nil =>
    unfold charges itemsOf
    simp [TypesReadable]
  | cons m rest ih =>
    unfold charges itemsOf TypesReadable
    rw [List.forall_mem_cons]
    cases messageValue names p m with
    | error e => simp
    | ok r =>
      obtain ⟨value, q⟩ := r
      dsimp only
      -- The rest is charged for with the payer that this message leaves.
      constructor
      · intro h
        split at h
        · cases h
        · next fee hfee =>
          obtain ⟨hreadable, rfl⟩ := messageSurcharge_eq_ok_iff.1 hfee
          obtain ⟨others, hothers, rfl⟩ := Except.map_eq_ok_iff.1 h
          obtain ⟨hrest, items, hitems, rfl⟩ := ih.1 hothers
          exact ⟨⟨hreadable, hrest⟩, _, Except.map_eq_ok_iff.2 ⟨items, hitems, rfl⟩, rfl⟩
      · rintro ⟨⟨hreadable, hrest⟩, items, hitems, rfl⟩
        obtain ⟨others, hothers, rfl⟩ := Except.map_eq_ok_iff.1 hitems
        rw [messageSurcharge_eq_ok_iff.2 ⟨hreadable, rfl⟩]
        exact Except.map_eq_ok_iff.2 ⟨_, ih.2 ⟨hrest, others, hothers, rfl⟩, rfl⟩

/-- A transaction has a price if it is well formed, the types of its messages can be looked up and
its messages have values, and then the price is that of its items. -/
theorem compute_eq_ok_iff {a : Assessment} :
    compute schedule store names tx = .ok a ↔
      tx.check = .ok () ∧ TypesReadable store tx.messages ∧
        ∃ items, itemsOf names (Payer.ofRegistry names tx.feePayer) tx.messages = .ok items ∧
          Assessment.ofItems schedule store items = a := by
  constructor
  · intro h
    obtain ⟨hcheck, all, hall, rfl⟩ := compute_eq_ok h
    obtain ⟨hreadable, items, hitems, rfl⟩ := charges_eq_ok_iff.1 hall
    exact ⟨hcheck, hreadable, items, hitems, (Assessment.ofCharges_map_charge items).symm⟩
  · rintro ⟨hcheck, hreadable, items, hitems, rfl⟩
    unfold compute
    rw [hcheck]
    refine Except.map_eq_ok_iff.2 ⟨_, charges_eq_ok_iff.2 ⟨hreadable, items, hitems, rfl⟩, ?_⟩
    exact Assessment.ofCharges_map_charge items

end ChainEconomy.Fee
