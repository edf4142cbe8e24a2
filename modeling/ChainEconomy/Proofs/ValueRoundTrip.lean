import ChainEconomy.Chain.Genesis
import ChainEconomy.Proofs.GenesisExport
import ChainEconomy.Proofs.MessageRoundTrip

/-!
# Values that are read back

All that is exchanged as JSON is read back from its text: parameters, the state of the minter,
messages, transactions, proposals, events, and the genesis of a chain. Texts in it may hold any
characters. A rate comes back with its value and its scale; everything else comes back as it was.

## Key results

- `Rate.Same`: the rates that cannot be told apart by value and scale
- `Json.RoundTrips`: what is written is read back, from a text and from a store
- `Governance.Proposal.ofJson_toJson`, `Event.ofJson_toJson`, `Chain.Genesis.ofJson_toJson`
- `Json.values_roundTrip`: all the values
-/

namespace ChainEconomy

/-! ## Equal rates -/

namespace Rate

/-- The number that a rate stands for. -/
def value (r : Rate) : ℚ := (if r.negative then -(r.mantissa : ℚ) else r.mantissa) / 10 ^ r.scale

/-- The rates are equal as numbers and have equally many places. -/
structure Same (a b : Rate) : Prop where
  value : a.value = b.value
  scale : a.scale = b.scale

/-- A rate and what is read back of it have the same value and scale. -/
theorem same_unsigned (r : Rate) : r.Same r.unsigned := by
  refine ⟨?_, rfl⟩
  cases hsign : r.isMinusZero with
  | false => rw [unsigned_eq_self_iff.2 hsign]
  | true => simp [value, unsigned, mantissa_of_isMinusZero hsign]

end Rate

/-- The parameters differ in nothing that a rate's value and scale would show. -/
structure Fee.Params.Same (p q : Fee.Params) : Prop where
  percentage : p.percentage.Same q.percentage
  minimum : p.minimum = q.minimum
  maximum : p.maximum = q.maximum
  baseDenom : p.baseDenom = q.baseDenom

/-- The parameters of the fees and what is read back of them are the same. -/
theorem Fee.Params.same_unsigned (p : Fee.Params) : p.Same p.unsigned :=
  ⟨p.percentage.same_unsigned, rfl, rfl, rfl⟩

/-- The parameters differ in nothing that a rate's value and scale would show. -/
structure Mint.Params.Same (p q : Mint.Params) : Prop where
  denom : p.denom = q.denom
  ratePerSecond : p.ratePerSecond.Same q.ratePerSecond
  maxAccrualSeconds : p.maxAccrualSeconds = q.maxAccrualSeconds

/-- The parameters of the minter and what is read back of them are the same. -/
theorem Mint.Params.same_unsigned (p : Mint.Params) : p.Same p.unsigned :=
  ⟨rfl, p.ratePerSecond.same_unsigned, rfl⟩

/-! ## Texts and stores -/

namespace Json

/-- The text of a value is decoded like the value itself. -/
theorem decodeText_render {α : Type} (decode : Json → Except Fault α) {j : Json}
    (hplain : isPlain maxDepth j = true) : decodeText decode j.render = decode j := by
  rw [decodeText, render, String.toList_ofList, ← Layout.chars_compact 0]
  exact decodeChars_chars decode hplain

/-- Every value is read back as one that is the same: from its text, and as a record of any store
that lets its key be written and read. -/
def RoundTrips {α : Type} (write : α → Json) (decode : Json → Except Fault α)
    (Same : α → α → Prop) : Prop :=
  ∀ a, ∃ b, Same a b ∧ decodeText decode (write a).render = .ok b ∧
    ∀ (s : Store) (key : Bytes), s.medium.writeFailure key = none →
      s.medium.readFailure key = none →
        ∃ t, s.setRecord key (write a) = .ok t ∧ t.getRecord decode key = .ok (some b)

/-- It is enough that plain values are decoded. -/
theorem RoundTrips.of_decode {α : Type} {write : α → Json} {decode : Json → Except Fault α}
    {Same : α → α → Prop} {back : α → α} (hsame : ∀ a, Same a (back a))
    (hplain : ∀ a, isPlain maxDepth (write a) = true)
    (hdecode : ∀ a, decode (write a) = .ok (back a)) : RoundTrips write decode Same := by
  -- Both ways of reading go through the same value.
  refine fun a => ⟨back a, hsame a, ?_, fun s key hwrite hread => ?_⟩
  · rw [decodeText_render decode (hplain a), hdecode]
  · refine ⟨_, Store.set_eq_ok_iff.2 ⟨hwrite, rfl⟩, ?_⟩
    exact Store.getRecord_of_find? (OrderedMap.find?_insert_self _ _ _) (hplain a) (hdecode a) hread

/-- What is decoded as it was is read back as it was. -/
theorem RoundTrips.of_decode_eq {α : Type} {write : α → Json} {decode : Json → Except Fault α}
    (hplain : ∀ a, isPlain maxDepth (write a) = true) (hdecode : ∀ a, decode (write a) = .ok a) :
    RoundTrips write decode Eq :=
  .of_decode (fun _ => rfl) hplain hdecode

end Json

/-! ## Events -/

namespace Event

/-- An attribute of an event is read as the attribute. -/
theorem attributeOfJson_toJson (a : Attribute) : attributeOfJson (attributeToJson a) = .ok a := by
  rw [attributeOfJson, attributeToJson, Json.record,
    Json.Record.required_eq_ok 0 rfl (Json.toText_string a.key),
    Json.Record.required_eq_ok 1 rfl (Json.toText_string a.value)]
  rfl

/-- An event nests its attributes. -/
theorem isPlain_toJson (room : Nat) (e : Event) : Json.isPlain (room + 3) e.toJson = true := by
  have hattributes : Json.isPlain (room + 2) (.ofList attributeToJson e.attributes) = true :=
    Json.isPlain_ofList (fun _ => rfl) e.attributes
  simp [toJson, Json.isPlain, Json.fieldsPlain, hattributes]

/-- An event is read as the event. -/
theorem ofJson_toJson (e : Event) : ofJson e.toJson = .ok e := by
  have hfields : e.toJson = .object [("kind", .string e.kind),
    ("attributes", .ofList attributeToJson e.attributes)] := rfl
  rw [ofJson, hfields, Json.record, Json.Record.required_eq_ok 0 rfl (Json.toText_string e.kind),
    Json.Record.required_eq_ok 1 rfl (Json.toList_ofList attributeOfJson_toJson e.attributes)]
  rfl

end Event

/-! ## Proposals -/

namespace Governance

/-- A change of a parameter is read as the change. -/
theorem ParamChange.ofJson_toJson (c : ParamChange) : ofJson c.toJson = .ok c := by
  have hfields : c.toJson = .object [("subspace", .string c.subspace), ("key", .string c.key),
    ("value", .string c.value)] := rfl
  rw [ofJson, hfields, Json.record,
    Json.Record.required_eq_ok 0 rfl (Json.toText_string c.subspace),
    Json.Record.required_eq_ok 1 rfl (Json.toText_string c.key),
    Json.Record.required_eq_ok 2 rfl (Json.toText_string c.value)]
  rfl

namespace Proposal

/-- The fields of a proposal besides its kind. -/
def fields (p : Proposal) : List (String × Json) :=
  ("title", .string p.title) :: ("description", .string p.description) :: measureFields p.measure

/-- A proposal is read from its title, its description and the field of its own. -/
theorem ofRecord_eq_ok {α : Type} (name : String) {field : String}
    {decode : Json → Except Json.Fault α} (make : α → Measure) {j : Json} {a : α}
    (htitle : field ≠ "title") (hdescription : field ≠ "description") (hdecode : decode j = .ok a)
    (title description : String) :
    ofRecord name field decode make (.object [("title", .string title),
      ("description", .string description), (field, j)]) =
        .ok ⟨title, description, make a⟩ := by
  have hnames : ([("title", Json.string title), ("description", Json.string description),
      (field, j)].map Prod.fst).Nodup := by
    simp [htitle.symm, hdescription.symm]
  rw [ofRecord, Json.record,
    Json.Record.required_of_nodup hnames 0 rfl (Json.toText_string title),
    Json.Record.required_of_nodup hnames 1 rfl (Json.toText_string description),
    Json.Record.required_of_nodup hnames 2 rfl hdecode]
  rfl

/-- The fields of a proposal are read as the proposal, once its kind is known. -/
theorem ofFields_fields (p : Proposal) : ofFields p.kind (.object p.fields) = .ok p := by
  obtain ⟨title, description, measure⟩ := p
  -- Each kind has one field of its own.
  cases measure with
  | exempt messageType =>
    exact ofRecord_eq_ok _ _ (by decide) (by decide) (Json.toText_string messageType) _ _
  | charge messageType =>
    exact ofRecord_eq_ok _ _ (by decide) (by decide) (Json.toText_string messageType) _ _
  | change changes =>
    exact ofRecord_eq_ok _ _ (by decide) (by decide)
      (Json.toList_ofList ParamChange.ofJson_toJson changes) _ _

/-- The fields of a proposal nest as deeply as its changes. -/
theorem isPlain_fields (room : Nat) (p : Proposal) :
    Json.isPlain (room + 3) (.object p.fields) = true := by
  have hchanges : ∀ changes, Json.isPlain (room + 2) (.ofList ParamChange.toJson changes) = true :=
    Json.isPlain_ofList fun _ => rfl
  obtain ⟨title, description, measure⟩ := p
  cases measure <;> simp [fields, measureFields, Json.isPlain, Json.fieldsPlain, hchanges]

/-- A proposal is as deep as its fields, since its kind stands among them. -/
theorem isPlain_toJson (room : Nat) (p : Proposal) : Json.isPlain (room + 3) p.toJson = true :=
  p.isPlain_fields room

/-- A proposal is read as the proposal. -/
theorem ofJson_toJson (p : Proposal) : ofJson p.toJson = .ok p := by
  have hnames : ∀ f ∈ p.fields, f.1 ≠ "kind" := by
    obtain ⟨title, description, measure⟩ := p
    cases measure <;> simp [fields, measureFields]
  have hkind : kinds.contains p.kind = true := by
    obtain ⟨title, description, measure⟩ := p
    cases measure <;> rfl
  have huntag : Json.untag "Proposal" "kind" p.toJson = .ok (p.kind, .object p.fields) :=
    Json.untag_object (p.isPlain_fields 0) hnames
  unfold ofJson
  rw [huntag]
  simp only [bind, Except.bind, hkind, if_true, ofFields_fields, Except.mapError]

end Proposal

end Governance

/-! ## Genesis of a chain -/

namespace Json

/-- Fields can be told from their text if those in front and those behind can. -/
theorem fieldsPlain_append (room : Nat) (fields others : List (String × Json)) :
    fieldsPlain room (fields ++ others) = (fieldsPlain room fields && fieldsPlain room others) := by
  -- By induction on the fields in front.
  induction fields with
  | nil => rfl
  | cons f fields ih => rw [List.cons_append, fieldsPlain, fieldsPlain, ih, Bool.and_assoc]

/-- Each of several readable fields is readable. -/
theorem isReadable_of_mem {fields : List (String × Json)} (h : fieldsReadable fields = true)
    {f : String × Json} (hf : f ∈ fields) : f.2.isReadable = true := by
  -- By induction on the fields.
  induction fields with
  | nil => cases hf
  | cons field fields ih =>
    obtain ⟨hfield, hfields⟩ := Bool.and_eq_true_iff.1 h
    rcases List.mem_cons.1 hf with rfl | hf
    · exact hfield
    · exact ih hfields hf

/-- A signed word fits into a whole number of JSON. -/
theorem isPlain_int64 (room : Nat) (n : Int64) : isPlain room (.integer n.toInt) = true := by
  have hlow : -2 ^ 63 ≤ n.toInt := n.le_toInt
  have hhigh : n.toInt < 2 ^ 63 := n.toInt_lt
  -- Numbers in a text go from the least signed word to the greatest unsigned one.
  have hmax : maxWord = 2 ^ 64 - 1 := rfl
  refine decide_eq_true (show -(2 ^ 63 : Int) ≤ n.toInt ∧ n.toInt ≤ (maxWord : Int) from ⟨?_, ?_⟩)
  · omega
  · omega

/-- A signed word is read as the word. -/
theorem toInt64_toInt (n : Int64) : toInt64 (.integer n.toInt) = .ok n := by
  have hrange : Int64.minValue.toInt ≤ n.toInt ∧ n.toInt ≤ Int64.maxValue.toInt :=
    ⟨n.minValue_le_toInt, n.toInt_le⟩
  rw [toInt64, if_pos hrange, Int64.ofInt_toInt]

end Json

namespace Chain

namespace Genesis

/-- A price is read as the price, and no price as none. -/
theorem toOption_ofOption (price : Option CoinSet) :
    Json.toOption CoinSet.ofJson (.ofOption CoinSet.toJson price) = .ok price := by
  cases price with
  | none => rfl
  | some price =>
    show (CoinSet.ofJson price.toJson).map some = .ok (some price)
    rw [price.ofJson_toJson]
    rfl

/-- A name of the genesis nests its price. -/
theorem isPlain_nameToJson (room : Nat) (n : GenesisName) :
    Json.isPlain (room + 3) (nameToJson n) = true := by
  have hprice : Json.isPlain (room + 2) (.ofOption CoinSet.toJson n.price) = true := by
    cases n.price with
    | none => rfl
    | some price => exact price.isPlain_toJson room
  simp [nameToJson, Address.toJson, Json.isPlain, Json.fieldsPlain, hprice]

/-- A name of the genesis is read as the name. -/
theorem nameOfJson_toJson (n : GenesisName) : nameOfJson (nameToJson n) = .ok n := by
  rw [nameOfJson, nameToJson, Json.record,
    Json.Record.required_eq_ok 0 rfl (Json.toText_string n.name),
    Json.Record.required_eq_ok 1 rfl n.owner.ofJson_toJson,
    Json.Record.optional_eq_ok _ 2 rfl (toOption_ofOption n.price)]
  rfl

/-- The service nests its names. -/
theorem isPlain_serviceToJson (room : Nat) (n : NameService) :
    Json.isPlain (room + 5) (serviceToJson n) = true := by
  have hfee : ∀ fee : CoinSet, Json.isPlain (room + 4) fee.toJson = true :=
    CoinSet.isPlain_toJson (room + 2)
  have hnames : Json.isPlain (room + 4) (.ofList nameToJson n.names) = true :=
    Json.isPlain_ofList (isPlain_nameToJson room) n.names
  have hgrant := Json.isPlain_int64 (room + 4) n.creditGrant
  show Json.fieldsPlain (room + 4) [("registration_fee", _), ("renewal_fee", _),
    ("address_registration_fee", _), ("standard_credit_grant", _), ("names", _)] = true
  simp only [Json.fieldsPlain, hfee, hgrant, hnames, Bool.and_self]

/-- The service is read as it was. -/
theorem serviceOfJson_toJson (n : NameService) : serviceOfJson (serviceToJson n) = .ok n := by
  rw [serviceOfJson, serviceToJson, Json.record,
    Json.Record.optional_eq_ok _ 0 rfl n.registrationFee.ofJson_toJson,
    Json.Record.optional_eq_ok _ 1 rfl n.renewalFee.ofJson_toJson,
    Json.Record.optional_eq_ok _ 2 rfl n.addressFee.ofJson_toJson,
    Json.Record.optional_eq_ok _ 3 rfl (Json.toInt64_toInt n.creditGrant),
    Json.Record.optional_eq_ok _ 4 rfl (Json.toList_ofList nameOfJson_toJson n.names)]
  rfl

/-- The genesis as it is read back. -/
def unsigned (g : Genesis) : Genesis := { g with economy := g.economy.unsigned }

/-- A genesis differs from another one in nothing that a rate's value and scale would show. -/
structure Same (g h : Genesis) : Prop where
  time : g.time = h.time
  feeParams : g.economy.feeParams.Same h.economy.feeParams
  excludedTypes : g.economy.excludedTypes = h.economy.excludedTypes
  mintParams : g.economy.mintParams.Same h.economy.mintParams
  minter : g.economy.minter = h.economy.minter
  accounts : g.accounts = h.accounts
  nameService : g.nameService = h.nameService

/-- A genesis and what is read back of it are the same. -/
theorem same_unsigned (g : Genesis) : g.Same g.unsigned :=
  ⟨rfl, Fee.Params.same_unsigned _, rfl, Mint.Params.same_unsigned _, rfl, rfl, rfl⟩

/-- The fields of a genesis nest the names of its service most deeply. -/
theorem fieldsPlain_fields (room : Nat) (g : Genesis) :
    Json.fieldsPlain (room + 5) (("genesis_time", g.time.toJson) :: g.economy.sections ++
      [("accounts", .ofList Share.toJson g.accounts), ("names", serviceToJson g.nameService)]) =
        true := by
  have htime : Json.isPlain (room + 5) g.time.toJson = true :=
    Json.isPlain_natural _ g.time.micros
  have hsections := g.economy.fieldsPlain_sections (room + 1)
  have haccounts : Json.isPlain (room + 5) (.ofList Share.toJson g.accounts) = true :=
    Json.isPlain_ofList (Share.isPlain_toJson (room + 1)) g.accounts
  have hservice := isPlain_serviceToJson room g.nameService
  rw [Json.fieldsPlain_append, Json.fieldsPlain, hsections, htime, Json.fieldsPlain,
    Json.fieldsPlain, haccounts, hservice]
  rfl

/-- A genesis of a chain is not nested more deeply than its fields. -/
theorem isPlain_toJson (room : Nat) (g : Genesis) : Json.isPlain (room + 6) g.toJson = true :=
  g.fieldsPlain_fields room

/-- A genesis is read as the genesis without signs of zero. -/
theorem ofJson_toJson (g : Genesis) : ofJson g.toJson = .ok g.unsigned := by
  -- The fields that are not about the ledger have to be readable, which all fields are.
  have hreadable := Json.fieldsReadable_of_fieldsPlain (g.fieldsPlain_fields 0)
  rw [toJson, ofJson, if_pos (List.all_eq_true.2 fun f hf => by
    rw [Json.isReadable_of_mem hreadable hf, Bool.or_true]), ofRecord, Governance.Genesis.ofRecord,
    Json.Record.optional_eq_ok _ 0 rfl g.time.ofJson_toJson,
    Json.Record.required_eq_ok 1 rfl
      (Governance.Genesis.feeOfJson_toJson g.economy.feeParams g.economy.excludedTypes),
    Json.Record.required_eq_ok 2 rfl
      (Governance.Genesis.mintOfJson_toJson g.economy.mintParams g.economy.minter),
    Json.Record.optional_eq_ok _ 3 rfl
      (Json.toList_ofList (Share.ofJson_toJson "GenesisAccount") g.accounts),
    Json.Record.optional_eq_ok _ 4 rfl (serviceOfJson_toJson g.nameService)]
  rfl

end Genesis

end Chain

/-! ## All values -/

open Governance in
/-- Parameters, the state of the minter, transactions, messages, proposals, events and the genesis
of a chain are read back from their texts and from stores as they were, where a rate that is read
back has the value and the scale it had. Parameters and the state of the minter that have been saved
in a store that does not fail are found there when they are loaded. -/
theorem Json.values_roundTrip :
    (RoundTrips Fee.Params.toJson Fee.Params.ofJson Fee.Params.Same ∧
      RoundTrips Mint.Params.toJson Mint.Params.ofJson Mint.Params.Same ∧
      RoundTrips Mint.State.toJson Mint.State.ofJson Eq ∧
      RoundTrips Transaction.toJson Transaction.ofJson Eq ∧
      RoundTrips Message.toJson Message.ofJson Eq ∧
      RoundTrips Proposal.toJson Proposal.ofJson Eq ∧
      RoundTrips Event.toJson Event.ofJson Eq ∧
      RoundTrips Chain.Genesis.toJson Chain.Genesis.ofJson Chain.Genesis.Same) ∧
    ∀ s : Store, s.medium = .sound →
      (∀ p : Fee.Params, ∃ t q, p.save s = .ok t ∧ Fee.Params.load t = .ok (some q) ∧ p.Same q) ∧
      (∀ p : Mint.Params, ∃ t q,
        p.save s = .ok t ∧ Mint.Params.load t = .ok (some q) ∧ p.Same q) ∧
      ∀ m : Mint.State, ∃ t, m.save s = .ok t ∧ Mint.State.load t = .ok (some m) := by
  -- Rates are what these two may come back with differently.
  have hfee : RoundTrips Fee.Params.toJson Fee.Params.ofJson Fee.Params.Same :=
    .of_decode Fee.Params.same_unsigned (Fee.Params.isPlain_toJson 124) Fee.Params.ofJson_toJson
  have hmint : RoundTrips Mint.Params.toJson Mint.Params.ofJson Mint.Params.Same :=
    .of_decode Mint.Params.same_unsigned (Mint.Params.isPlain_toJson 126) Mint.Params.ofJson_toJson
  have hminter : RoundTrips Mint.State.toJson Mint.State.ofJson Eq :=
    .of_decode_eq (Mint.State.isPlain_toJson 126) Mint.State.ofJson_toJson
  refine ⟨⟨hfee, hmint, hminter,
    .of_decode_eq (Transaction.isPlain_toJson 120) Transaction.ofJson_toJson,
    .of_decode_eq (Message.isPlain_toJson 122) Message.ofJson_toJson,
    .of_decode_eq (Proposal.isPlain_toJson 124) Proposal.ofJson_toJson,
    .of_decode_eq (Event.isPlain_toJson 124) Event.ofJson_toJson,
    .of_decode Chain.Genesis.same_unsigned (Chain.Genesis.isPlain_toJson 121)
      Chain.Genesis.ofJson_toJson⟩, fun s hmedium => ?_⟩
  have hwrite : ∀ key, s.medium.writeFailure key = none := fun _ => by rw [hmedium]; rfl
  have hread : ∀ key, s.medium.readFailure key = none := fun _ => by rw [hmedium]; rfl
  -- Saving and loading are one write and one read of a record.
  refine ⟨fun p => ?_, fun p => ?_, fun m => ?_⟩
  · obtain ⟨q, hsame, -, hstore⟩ := hfee p
    obtain ⟨t, hsave, hload⟩ := hstore s Fee.Params.key (hwrite _) (hread _)
    exact ⟨t, q, hsave, hload, hsame⟩
  · obtain ⟨q, hsame, -, hstore⟩ := hmint p
    obtain ⟨t, hsave, hload⟩ := hstore s Mint.Params.key (hwrite _) (hread _)
    exact ⟨t, q, hsave, hload, hsame⟩
  · obtain ⟨_, rfl, -, hstore⟩ := hminter m
    exact hstore s Store.minterKey (hwrite _) (hread _)

/-- A message of a type with quotation marks, a backslash, a control character and letters beyond
ASCII is read back; parameters whose rate is zero with a minus sign are found in a store with an
equal rate. -/
theorem Json.values_roundTrip_sample :
    decodeText Message.ofJson (Message.other "\"\\\u0001é語").toJson.render =
        .ok (Message.other "\"\\\u0001é語") ∧
      ∃ t q, Governance.Genesis.sampleMinusZero.mintParams.save (Store.empty .sound) = .ok t ∧
        Mint.Params.load t = .ok (some q) ∧
        Governance.Genesis.sampleMinusZero.mintParams.Same q := by
  obtain ⟨-, -, -, -, hmessage, -, -, -⟩ := values_roundTrip.1
  refine ⟨?_, (values_roundTrip.2 (Store.empty .sound) rfl).2.1 _⟩
  obtain ⟨_, rfl, htext, -⟩ := hmessage (.other "\"\\\u0001é語")
  exact htext

end ChainEconomy
