import ChainEconomy.Proofs.AddressText
import ChainEconomy.Proofs.ParamsRoundTrip
import ChainEconomy.Transaction

/-!
# Messages and transactions that are read back

An address is read from the string of its text, and a tagged object is taken apart into the tag and
the fields that were put behind it, so that a message of any kind is read as it was written, and a
transaction with it.

## Key results

- `Address.ofJson_toJson`: addresses
- `Json.isReadable_of_isPlain`, `Json.untag_object`: tagged objects
- `Message.ofJson_toJson`, `Transaction.ofJson_toJson`: messages of all kinds, and transactions
-/

namespace ChainEconomy

/-! ## Addresses -/

namespace Address

/-- An address is read as the address. -/
theorem ofJson_toJson (a : Address) : ofJson a.toJson = .ok a := by
  rw [ofJson, toJson, Json.toText]
  simp only [parse_toList_render]

end Address

/-! ## Tagged objects -/

namespace Json

mutual

/-- A value that can be told from its text is readable. -/
theorem isReadable_of_isPlain {room : Nat} :
    ∀ {j : Json}, isPlain room j = true → isReadable j = true
  | .array _, h => areReadable_of_arePlain (Bool.and_eq_true_iff.1 h).2
  | .object _, h => fieldsReadable_of_fieldsPlain (Bool.and_eq_true_iff.1 h).2
  | .null, _ | .bool _, _ | .integer _, _ | .string _, _ => rfl

/-- Items that can be told from their text are readable. -/
theorem areReadable_of_arePlain {room : Nat} :
    ∀ {items : List Json}, arePlain room items = true → areReadable items = true
  | [], _ => rfl
  | _ :: _, h =>
    have h := Bool.and_eq_true_iff.1 h
    Bool.and_eq_true_iff.2 ⟨isReadable_of_isPlain h.1, areReadable_of_arePlain h.2⟩

/-- Fields with values that can be told from their text are readable. -/
theorem fieldsReadable_of_fieldsPlain {room : Nat} :
    ∀ {fields : List (String × Json)}, fieldsPlain room fields = true → fieldsReadable fields = true
  | [], _ => rfl
  | (_, _) :: _, h =>
    have h := Bool.and_eq_true_iff.1 h
    Bool.and_eq_true_iff.2 ⟨isReadable_of_isPlain h.1, fieldsReadable_of_fieldsPlain h.2⟩

end

/-- An object is taken apart into its tag and its other fields, if none of them goes by the name of
the tag. -/
theorem untag_object {title tagName tag : String} {room : Nat} {fields : List (String × Json)}
    (hplain : isPlain room (.object fields) = true) (hnames : ∀ f ∈ fields, f.1 ≠ tagName) :
    untag title tagName (.object ((tagName, .string tag) :: fields)) =
      .ok (tag, .object fields) := by
  have hcomplete : complete (.object ((tagName, .string tag) :: fields)) =
      .ok (.object ((tagName, .string tag) :: fields)) :=
    if_pos (isReadable_of_isPlain hplain : fieldsReadable fields = true)
  -- The first field is the only tag, and is the only one that is taken out.
  have htags : fields.filter (fun f => f.1 == tagName) = [] :=
    List.filter_eq_nil_iff.2 fun f hf => by simp [hnames f hf]
  have hothers : fields.filter (fun f => !(f.1 == tagName)) = fields :=
    List.filter_eq_self.2 fun f hf => by simp [hnames f hf]
  unfold untag
  rw [hcomplete]
  simp only [bind, Except.bind, List.filter_cons, beq_self_eq_true, if_true, htags, hothers, toText,
    Bool.not_true, Bool.false_eq_true, if_false]

/-- A string is read as its text. -/
theorem toText_string (s : String) : toText (.string s) = .ok s := rfl

end Json

/-! ## Messages -/

namespace Share

/-- A share nests as deeply as its coins do. -/
theorem isPlain_toJson (room : Nat) (s : Share) : Json.isPlain (room + 3) s.toJson = true := by
  simp [toJson, Address.toJson, Json.isPlain, Json.fieldsPlain, CoinSet.isPlain_toJson room]

/-- A share is read as the share, whatever refusals would call it. -/
theorem ofJson_toJson (title : String) (s : Share) : ofJson title s.toJson = .ok s := by
  have hfields : s.toJson = .object [("address", s.address.toJson), ("coins", s.coins.toJson)] :=
    rfl
  rw [ofJson, hfields, Json.record, Json.Record.required_eq_ok 0 rfl s.address.ofJson_toJson,
    Json.Record.required_eq_ok 1 rfl s.coins.ofJson_toJson]
  rfl

end Share

namespace Message

/-- A message about a name and its owner is read from these two fields. -/
theorem ofNameAndOwner_eq_ok (make : String → Address → Message) (title : String) {owner : String}
    (howner : owner ≠ "name") (name : String) (a : Address) :
    ofNameAndOwner make title owner (.object [("name", .string name), (owner, a.toJson)]) =
      .ok (make name a) := by
  have hnames : ([("name", Json.string name), (owner, a.toJson)].map Prod.fst).Nodup := by
    simp [howner.symm]
  rw [ofNameAndOwner, Json.record,
    Json.Record.required_of_nodup hnames 0 rfl (Json.toText_string name),
    Json.Record.required_of_nodup hnames 1 rfl a.ofJson_toJson]
  rfl

/-- A message about a name, its owner and another account is read from these three fields. -/
theorem ofNameAndTwo_eq_ok (make : String → Address → Address → Message) (title : String)
    {third : String} (hname : third ≠ "name") (howner : third ≠ "owner") (name : String)
    (a b : Address) :
    ofNameAndTwo make title third
        (.object [("name", .string name), ("owner", a.toJson), (third, b.toJson)]) =
      .ok (make name a b) := by
  have hnames : ([("name", Json.string name), ("owner", a.toJson), (third, b.toJson)].map
      Prod.fst).Nodup := by
    simp [hname.symm, howner.symm]
  rw [ofNameAndTwo, Json.record,
    Json.Record.required_of_nodup hnames 0 rfl (Json.toText_string name),
    Json.Record.required_of_nodup hnames 1 rfl a.ofJson_toJson,
    Json.Record.required_of_nodup hnames 2 rfl b.ofJson_toJson]
  rfl

/-- The fields of a message are read as the message, once its kind is known. -/
theorem ofFields_fields (m : Message) : ofFields m.kind (.object m.fields) = .ok m := by
  cases m with
  | registerName name owner => exact ofNameAndOwner_eq_ok _ _ (by decide) name owner
  | renewName name owner => exact ofNameAndOwner_eq_ok _ _ (by decide) name owner
  | buyName name buyer => exact ofNameAndOwner_eq_ok _ _ (by decide) name buyer
  | transferName name owner recipient =>
    exact ofNameAndTwo_eq_ok _ _ (by decide) (by decide) name owner recipient
  | deleteName name owner => exact ofNameAndOwner_eq_ok _ _ (by decide) name owner
  | registerAddress name owner address =>
    exact ofNameAndTwo_eq_ok _ _ (by decide) (by decide) name owner address
  -- The other kinds have fields of their own.
  | send sender recipient amount =>
    rw [kind, fields, ofFields, Json.record,
      Json.Record.required_eq_ok 0 rfl sender.ofJson_toJson,
      Json.Record.required_eq_ok 1 rfl recipient.ofJson_toJson,
      Json.Record.required_eq_ok 2 rfl amount.ofJson_toJson]
    rfl
  | multiSend inputs outputs =>
    rw [kind, fields, ofFields, Json.record,
      Json.Record.required_eq_ok 0 rfl (Json.toList_ofList (Share.ofJson_toJson "Input") inputs),
      Json.Record.required_eq_ok 1 rfl (Json.toList_ofList (Share.ofJson_toJson "Output") outputs)]
    rfl
  | createSellOrder seller amount =>
    rw [kind, fields, ofFields, Json.record,
      Json.Record.required_eq_ok 0 rfl seller.ofJson_toJson,
      Json.Record.required_eq_ok 1 rfl amount.ofJson_toJson]
    rfl
  | other typeUrl =>
    rw [kind, fields, ofFields, Json.record,
      Json.Record.required_eq_ok 0 rfl (Json.toText_string typeUrl)]
    rfl

/-- The fields of a message nest five levels deep at most: its list of shares is what goes deepest.
-/
theorem isPlain_fields (room : Nat) (m : Message) :
    Json.isPlain (room + 5) (.object m.fields) = true := by
  have hamount : ∀ amount : CoinSet, Json.isPlain (room + 4) amount.toJson = true :=
    CoinSet.isPlain_toJson (room + 2)
  have hshares : ∀ shares, Json.isPlain (room + 4) (.ofList Share.toJson shares) = true :=
    Json.isPlain_ofList (Share.isPlain_toJson room)
  cases m <;> simp [fields, Address.toJson, Json.isPlain, Json.fieldsPlain, hamount, hshares]

/-- A message is as deep as its fields, since its tag stands among them. -/
theorem isPlain_toJson (room : Nat) (m : Message) : Json.isPlain (room + 5) m.toJson = true :=
  m.isPlain_fields room

/-- A message is read as the message. -/
theorem ofJson_toJson (m : Message) : ofJson m.toJson = .ok m := by
  -- No message has a field that could be taken for its kind.
  have hnames : ∀ f ∈ m.fields, f.1 ≠ "type" := by cases m <;> simp [fields]
  have hkind : kinds.contains m.kind = true := by cases m <;> rfl
  have huntag : Json.untag "Message" "type" m.toJson = .ok (m.kind, .object m.fields) :=
    Json.untag_object (m.isPlain_fields 0) hnames
  unfold ofJson
  rw [huntag]
  simp only [bind, Except.bind, hkind, if_true, ofFields_fields, Except.mapError]

end Message

/-! ## Transactions -/

namespace Transaction

/-- A transaction holds its messages two levels further down. -/
theorem isPlain_toJson (room : Nat) (tx : Transaction) :
    Json.isPlain (room + 7) tx.toJson = true := by
  have hmessages : Json.isPlain (room + 6) (.ofList Message.toJson tx.messages) = true :=
    Json.isPlain_ofList (Message.isPlain_toJson room) tx.messages
  simp [toJson, Address.toJson, Json.isPlain, Json.fieldsPlain, hmessages]

/-- A transaction is read as the transaction. -/
theorem ofJson_toJson (tx : Transaction) : ofJson tx.toJson = .ok tx := by
  have hfields : tx.toJson = .object [("messages", .ofList Message.toJson tx.messages),
    ("fee_payer", tx.feePayer.toJson), ("memo", .string tx.memo)] := rfl
  rw [ofJson, hfields, Json.record,
    Json.Record.required_eq_ok 0 rfl (Json.toList_ofList Message.ofJson_toJson tx.messages),
    Json.Record.required_eq_ok 1 rfl tx.feePayer.ofJson_toJson,
    Json.Record.optional_eq_ok _ 2 rfl (Json.toText_string tx.memo)]
  rfl

end Transaction

end ChainEconomy
