import ChainEconomy.Proofs.ExclusionHistory
import ChainEconomy.Proofs.ExclusionPricing

/-!
# Types that a proposal can exempt

A proposal names a type by a text that has a route in front of a slash. The types of the known kinds
of messages are of this form, and those of other messages may be. A message is well formed, however,
with any type that is not empty, so that there are messages that bear a surcharge and that no
proposal can take it off.

Where a type can be named, a proposal exempts it and another one charges it again. What this means
for prices is said by what the store answers about the type alone.

## Key results

- `RouteQualified`, `checkMessageType_eq_ok_iff`: the types that can be named
- `Message.exists_typeUrl_eq_iff`: the types that messages can have
- `surcharge_of_mem_charges`, `charges_congr`: prices go by what the store answers about types
- `exemption_by_route`: proposals about the type of any message
- `Sample.bare_type_charged`: a type that stays charged
-/

namespace ChainEconomy

open Attempt

/-! ## Types -/

namespace Governance

/-- A text of the form `<route>/<type>`: two parts that are not empty, one slash between them, and
no white space. -/
def RouteQualified (text : String) : Prop :=
  ∃ route kind : List Char, text.toList = route ++ '/' :: kind ∧ route ≠ [] ∧ kind ≠ [] ∧
    '/' ∉ route ∧ '/' ∉ kind ∧ ∀ c ∈ text.toList, Text.isBlank c = false

/-- A text is taken for a type if it has a route in front of a slash. -/
theorem isMessageType_iff {text : String} : isMessageType text = true ↔ RouteQualified text := by
  unfold isMessageType isMessageTypeChars RouteQualified
  -- The split is at the first slash, so that the route has none.
  constructor
  · intro h
    split at h
    · cases h
    · next route kind hsplit =>
      obtain ⟨htext, hroute⟩ := Text.splitOnce?_eq_some_iff.1 hsplit
      simp only [Bool.and_eq_true, Bool.not_eq_true', List.isEmpty_eq_false_iff,
        List.contains_eq_mem, decide_eq_false_iff_not, List.any_eq_false, Bool.not_eq_true] at h
      obtain ⟨⟨⟨hleft, hright⟩, hkind⟩, hblank⟩ := h
      exact ⟨route, kind, htext, hleft, hright, hroute, hkind, hblank⟩
  · rintro ⟨route, kind, htext, hleft, hright, hroute, hkind, hblank⟩
    rw [Text.splitOnce?_eq_some_iff.2 ⟨htext, hroute⟩]
    simp only [Bool.and_eq_true, Bool.not_eq_true', List.isEmpty_eq_false_iff,
      List.contains_eq_mem, decide_eq_false_iff_not, List.any_eq_false, Bool.not_eq_true]
    exact ⟨⟨⟨hleft, hright⟩, hkind⟩, hblank⟩

/-- A type passes its check if it has a route. -/
theorem checkMessageType_eq_ok_iff {text : String} :
    checkMessageType text = .ok () ↔ RouteQualified text := by
  rw [← isMessageType_iff, checkMessageType]
  cases isMessageType text <;> simp

/-- Any other type is refused by its name. -/
theorem checkMessageType_eq_error {text : String} (h : ¬ RouteQualified text) :
    checkMessageType text = .error (.messageType text) := by
  rw [← isMessageType_iff] at h
  rw [checkMessageType, if_neg h]

/-- The known kinds of messages have types that can be named. -/
theorem routeQualified_typeUrl {m : Message} (hm : ∀ text, m ≠ .other text) :
    RouteQualified m.typeUrl := by
  rw [← isMessageType_iff]
  cases m with
  | other text => exact absurd rfl (hm text)
  | _ =>
    simp only [Message.typeUrl]
    decide

/-- A type with a route is not empty. -/
theorem RouteQualified.ne_empty {text : String} (h : RouteQualified text) : text ≠ "" := by
  rintro rfl
  obtain ⟨route, kind, htext, -⟩ := h
  exact List.append_ne_nil_of_right_ne_nil route (List.cons_ne_nil '/' kind) htext.symm

end Governance

/-- Messages can have any type that is not empty. -/
theorem Message.exists_typeUrl_eq_iff {text : String} :
    (∃ m : Message, m.check = .ok () ∧ m.typeUrl = text) ↔ text ≠ "" := by
  constructor
  · rintro ⟨m, hcheck, rfl⟩
    -- Either the message is one of the known kinds, or its type is what the check looks at.
    by_cases hm : ∃ text, m = .other text
    · obtain ⟨text, rfl⟩ := hm
      rintro (hempty : text = "")
      rw [hempty] at hcheck
      cases hcheck
    · exact (Governance.routeQualified_typeUrl (not_exists.1 hm)).ne_empty
  · intro h
    refine ⟨.other text, ?_, rfl⟩
    rw [check, if_neg (by simpa using h)]

/-! ## Prices -/

namespace Fee

variable {schedule : Schedule} {s t store : Store} {names : NameRegistry} {p : Payer}
  {messages : List Message} {all : List Charge}

/-- A message is charged as the store says of its type, which it does say. -/
theorem surcharge_of_mem_charges (h : charges schedule store names p messages = .ok all)
    {m : Message} {c : Charge} (hmem : (m, c) ∈ messages.zip all) :
    (Exclusions.contains store m.typeUrl = .ok true ∧ c.surcharge = CoinSet.empty) ∨
      (Exclusions.contains store m.typeUrl = .ok false ∧
        schedule.surcharge c.value = .ok c.surcharge) := by
  -- The payer changes from message to message, and the surcharges do not depend on the payer.
  induction messages generalizing p all with
  | nil => cases hmem
  | cons first rest ih =>
    obtain ⟨value, q, fee, others, -, hfee, hothers, rfl⟩ := charges_cons_eq_ok h
    rw [List.zip_cons_cons, List.mem_cons] at hmem
    obtain hfirst | hrest := hmem
    · cases hfirst
      unfold messageSurcharge at hfee
      split at hfee
      · cases hfee
      · next hexcluded =>
        cases hfee
        exact .inl ⟨hexcluded, rfl⟩
      · next hincluded => exact .inr ⟨hincluded, Except.mapError_eq_ok_iff.1 hfee⟩
    · exact ih hothers hrest

/-- Stores that answer alike about types lead to the same charges. -/
theorem charges_congr (h : ∀ text, Exclusions.contains t text = Exclusions.contains s text)
    (schedule : Schedule) (names : NameRegistry) (p : Payer) (messages : List Message) :
    charges schedule t names p messages = charges schedule s names p messages := by
  -- By induction on the messages, for any payer.
  induction messages generalizing p with
  | nil => rfl
  | cons m rest ih =>
    unfold charges messageSurcharge
    simp only [h, ih]

/-- Stores that answer alike about types lead to the same prices. -/
theorem compute_congr (h : ∀ text, Exclusions.contains t text = Exclusions.contains s text)
    (schedule : Schedule) (names : NameRegistry) (tx : Transaction) :
    compute schedule t names tx = compute schedule s names tx := by
  unfold compute
  rw [charges_congr h]

/-- Whether a transaction has a price does not depend on what is excluded. -/
theorem exists_compute_iff (hs : s.medium = .sound) (ht : t.medium = .sound) (schedule : Schedule)
    (names : NameRegistry) (tx : Transaction) :
    (∃ a, compute schedule t names tx = .ok a) ↔ ∃ a, compute schedule s names tx = .ok a := by
  -- All types can be looked up, so that the items alone decide.
  have hprice : ∀ {u : Store}, u.medium = .sound → ((∃ a, compute schedule u names tx = .ok a) ↔
      tx.check = .ok () ∧
        ∃ items, itemsOf names (Payer.ofRegistry names tx.feePayer) tx.messages = .ok items) := by
    intro u hu
    simp only [compute_eq_ok_iff]
    constructor
    · rintro ⟨-, hcheck, -, items, hitems, -⟩
      exact ⟨hcheck, items, hitems⟩
    · rintro ⟨hcheck, items, hitems⟩
      exact ⟨_, hcheck, .of_sound hu _, items, hitems, rfl⟩
  rw [hprice ht, hprice hs]

/-- A price is made up of one charge for each message, and the charges for messages of the type are
of the given kind. -/
def Surcharges (store : Store) (typeUrl : String) (kind : Schedule → Charge → Prop) : Prop :=
  ∀ schedule names tx a, compute schedule store names tx = .ok a →
    ∃ all, charges schedule store names (Payer.ofRegistry names tx.feePayer) tx.messages =
        .ok all ∧ Assessment.ofCharges all = a ∧
      ∀ m c, (m, c) ∈ tx.messages.zip all → m.typeUrl = typeUrl → kind schedule c

variable {typeUrl : String}

/-- To know what the store answers about the type is to know the surcharges. -/
theorem Surcharges.of_contains {kind : Schedule → Charge → Prop}
    (h : ∀ schedule c,
      (Exclusions.contains store typeUrl = .ok true ∧ c.surcharge = CoinSet.empty) ∨
        (Exclusions.contains store typeUrl = .ok false ∧
          schedule.surcharge c.value = .ok c.surcharge) → kind schedule c) :
    Surcharges store typeUrl kind := by
  intro schedule names tx a hprice
  obtain ⟨-, all, hall, hsum⟩ := compute_eq_ok hprice
  refine ⟨all, hall, hsum, ?_⟩
  rintro m c hmem rfl
  exact h schedule c (surcharge_of_mem_charges hall hmem)

/-- A type that is excluded is free. -/
theorem Surcharges.of_excluded (h : Exclusions.contains store typeUrl = .ok true) :
    Surcharges store typeUrl fun _ c => c.surcharge = CoinSet.empty := by
  refine .of_contains fun schedule c hc => ?_
  obtain ⟨-, hfree⟩ | ⟨hcharged, -⟩ := hc
  · exact hfree
  · cases h.symm.trans hcharged

/-- A type that is not excluded is charged. -/
theorem Surcharges.of_charged (h : Exclusions.contains store typeUrl = .ok false) :
    Surcharges store typeUrl fun schedule c => schedule.surcharge c.value = .ok c.surcharge := by
  refine .of_contains fun schedule c hc => ?_
  obtain ⟨hexcluded, -⟩ | ⟨-, hsurcharge⟩ := hc
  · cases h.symm.trans hexcluded
  · exact hsurcharge

end Fee

/-! ## Proposals -/

namespace Governance

open Fee (compute Surcharges)
open Fee.Exclusions (contains)

variable {s t : Store} {title description typeUrl : String}

/-- By the second store, messages of the type bear no surcharge, and all others the same one as by
the first store. -/
structure Exempts (typeUrl : String) (s t : Store) : Prop where
  medium : t.medium = .sound
  excluded : contains t typeUrl = .ok true
  free : Surcharges t typeUrl fun _ c => c.surcharge = CoinSet.empty
  others : ∀ other, other ≠ typeUrl → contains t other = contains s other
  priced : ∀ schedule names tx,
    (∃ a, compute schedule t names tx = .ok a) ↔ ∃ a, compute schedule s names tx = .ok a

/-- By the second store, messages of the type bear a surcharge, and all others the same one as by
the first store. Prices are the same altogether if the first store charges the type as well. -/
structure Restores (typeUrl : String) (s t : Store) : Prop where
  charged : Surcharges t typeUrl fun schedule c => schedule.surcharge c.value = .ok c.surcharge
  others : ∀ other, other ≠ typeUrl → contains t other = contains s other
  same : contains s typeUrl = .ok false →
    ∀ schedule names tx, compute schedule t names tx = compute schedule s names tx

/-- Marking a type as excluded exempts it, and changes nothing about other types. -/
theorem exempts_of_add (hmedium : s.medium = .sound) (h : Fee.Exclusions.add s typeUrl = .ok t) :
    Exempts typeUrl s t := by
  have ht : t.medium = .sound := (Store.medium_of_set h).trans hmedium
  have hexcluded : contains t typeUrl = .ok true := by
    rw [Fee.Exclusions.contains_of_add h, if_pos rfl, Fee.Exclusions.contains_eq_isMarked hmedium]
    rfl
  refine ⟨ht, hexcluded, .of_excluded hexcluded, fun other hother => ?_,
    Fee.exists_compute_iff hmedium ht⟩
  rw [Fee.Exclusions.contains_of_add h, if_neg hother]

/-- Charging a type undoes its exemption. -/
theorem Exempts.restores_of_remove {u : Store} (h : Exempts typeUrl s t)
    (hremove : Fee.Exclusions.remove t typeUrl = .ok u) : Restores typeUrl s u := by
  have hcontains := Fee.Exclusions.contains_of_remove hremove
  have hcharged : contains u typeUrl = .ok false := by
    rw [hcontains, if_pos rfl, h.excluded]
    rfl
  have hothers : ∀ other, other ≠ typeUrl → contains u other = contains s other :=
    fun other hother => by rw [hcontains, if_neg hother, h.others other hother]
  refine ⟨.of_charged hcharged, hothers, fun hbefore => Fee.compute_congr fun text => ?_⟩
  -- The answer about the type is the old one, and so are all others.
  by_cases htext : text = typeUrl
  · rw [htext, hcharged, hbefore]
  · exact hothers text htext

/-- The proposal to exempt a type. -/
def exemption (title description typeUrl : String) : Proposal :=
  ⟨title, description, .exempt typeUrl⟩

/-- The proposal to charge a type. -/
def inclusion (title description typeUrl : String) : Proposal :=
  ⟨title, description, .charge typeUrl⟩

/-- What is wrong with a measure is the reason that its proposal is refused for. -/
theorem Proposal.run_handle_of_flaw {p : Proposal} {flaw : ProposalFlaw}
    (htext : checkText p.title p.description = .ok ()) (hflaw : p.measure.check = .error flaw)
    (s : Store) : p.handle.run s = (.error (.invalidProposal flaw), s) := by
  have hcheck : p.check = .error (.invalidProposal flaw) := by
    unfold check
    rw [htext, hflaw]
    rfl
  unfold handle
  rw [hcheck]
  rfl

/-- A proposal with a sound text and a sound measure is carried out. -/
theorem Proposal.run_handle_of_check {p : Proposal}
    (htext : checkText p.title p.description = .ok ()) (hmeasure : p.measure.check = .ok ())
    (s : Store) : p.handle.run s = p.apply.run s := by
  have hcheck : p.check = .ok () := by
    unfold check
    rw [htext, hmeasure]
    rfl
  unfold handle
  rw [hcheck]
  rfl

/-- The proposal to exempt a type with a route succeeds. -/
theorem run_exemption (htext : checkText title description = .ok ())
    (htype : RouteQualified typeUrl) (hmedium : s.medium = .sound) :
    ∃ t, (exemption title description typeUrl).handle.run s =
        (.ok [(exemption title description typeUrl).event "exclude_message_type" typeUrl], t) ∧
      Exempts typeUrl s t := by
  obtain ⟨t, hadd, -⟩ := Store.exists_set_eq_ok hmedium (Store.exclusionKey typeUrl)
    Fee.Exclusions.mark
  refine ⟨t, ?_, exempts_of_add hmedium hadd⟩
  rw [Proposal.run_handle_of_check (p := exemption title description typeUrl) htext
    (checkMessageType_eq_ok_iff.2 htype)]
  exact run_bind_eq_ok.2 ⟨(), t, run_change_eq_ok.2 (Except.mapError_eq_ok_iff.2 hadd), rfl⟩

/-- The proposal to charge an exempted type succeeds. -/
theorem run_inclusion (htext : checkText title description = .ok ())
    (htype : RouteQualified typeUrl) (h : Exempts typeUrl s t) :
    ∃ u, (inclusion title description typeUrl).handle.run t =
        (.ok [(inclusion title description typeUrl).event "include_message_type" typeUrl], u) ∧
      Restores typeUrl s u := by
  have hremove : Fee.Exclusions.remove t typeUrl =
      .ok { t with entries := t.entries.erase (Store.exclusionKey typeUrl) } :=
    Store.delete_eq_ok_iff.2 ⟨by rw [h.medium]; rfl, rfl⟩
  refine ⟨_, ?_, h.restores_of_remove hremove⟩
  rw [Proposal.run_handle_of_check (p := inclusion title description typeUrl) htext
    (checkMessageType_eq_ok_iff.2 htype)]
  exact run_bind_eq_ok.2 ⟨(), _, run_change_eq_ok.2 (Except.mapError_eq_ok_iff.2 hremove), rfl⟩

/-- Messages can have any type that is not empty; proposals can name the types with a route in front
of a slash, and the types of all known kinds are such. On a store that does not fail, the proposal
to exempt the type of a message is refused if the type cannot be named. Otherwise it succeeds, and
messages of this type bear no surcharge from then on, until a proposal to charge the type again has
them bear it as before. -/
theorem exemption_by_route (hmedium : s.medium = .sound)
    (htext : checkText title description = .ok ()) :
    (∀ typeUrl, (∃ m : Message, m.check = .ok () ∧ m.typeUrl = typeUrl) ↔ typeUrl ≠ "") ∧
    ∀ m : Message,
      ((∀ typeUrl, m ≠ .other typeUrl) → RouteQualified m.typeUrl) ∧
      (¬ RouteQualified m.typeUrl → (exemption title description m.typeUrl).handle.run s =
        (.error (.invalidProposal (.messageType m.typeUrl)), s)) ∧
      (RouteQualified m.typeUrl →
        ∃ exempt, (exemption title description m.typeUrl).handle.run s =
            (.ok [(exemption title description m.typeUrl).event "exclude_message_type" m.typeUrl],
              exempt) ∧
          Exempts m.typeUrl s exempt ∧
          ∀ title' description', checkText title' description' = .ok () →
            ∃ restored, (inclusion title' description' m.typeUrl).handle.run exempt =
                (.ok [(inclusion title' description' m.typeUrl).event "include_message_type"
                  m.typeUrl], restored) ∧
              Restores m.typeUrl s restored) := by
  refine ⟨fun _ => Message.exists_typeUrl_eq_iff, fun m => ⟨routeQualified_typeUrl,
    -- A type without a route fails in the check of the proposal.
    fun htype => ?_, fun htype => ?_⟩⟩
  · exact Proposal.run_handle_of_flaw (p := exemption title description m.typeUrl) htext
      (checkMessageType_eq_error htype) s
  · obtain ⟨exempt, hexempt, hfree⟩ := run_exemption htext htype hmedium
    exact ⟨exempt, hexempt, hfree, fun _ _ htext' => run_inclusion htext' htype hfree⟩

namespace Sample

open Chain.Sample (account coins chain genesis schedule)

/-- A transaction with one message, of which only the type is known. -/
def unpriced (typeUrl : String) : Transaction := ⟨[.other typeUrl], account 1, ""⟩

/-- A type with a route is exempted, so that a message costs nothing, and charged again. -/
theorem exemption_by_route_sample :
    ∃ exempt restored events events',
      (exemption "Free" "Delegation is free." "staking/Delegate").handle.run chain.store =
        (.ok events, exempt) ∧
      (∃ a, compute schedule exempt genesis.ledger.registry (unpriced "staking/Delegate") = .ok a ∧
        a.systemFees = CoinSet.empty) ∧
      (inclusion "Charge" "Delegation is not free." "staking/Delegate").handle.run exempt =
        (.ok events', restored) ∧
      compute schedule restored genesis.ledger.registry (unpriced "staking/Delegate") =
        compute schedule chain.store genesis.ledger.registry (unpriced "staking/Delegate") := by
  have htext : checkText "Free" "Delegation is free." = .ok () := by decide +kernel
  obtain ⟨-, htypes⟩ := exemption_by_route (s := chain.store) rfl htext
  obtain ⟨-, -, hnamed⟩ := htypes (.other "staking/Delegate")
  obtain ⟨exempt, hexempt, hfree, hcharge⟩ := hnamed (isMessageType_iff.1 (by decide))
  obtain ⟨restored, hrestored, hsame⟩ := hcharge "Charge" "Delegation is not free."
    (by decide +kernel)
  obtain ⟨a, ha, -⟩ := Except.exists_of_toOption_map (x := compute schedule chain.store
    genesis.ledger.registry (unpriced "staking/Delegate")) (f := fun _ => ()) (b := ())
    (by decide +kernel)
  obtain ⟨a', ha'⟩ := (hfree.priced _ _ _).2 ⟨a, ha⟩
  have hexcluded : ∀ m ∈ (unpriced "staking/Delegate").messages,
      contains exempt m.typeUrl = .ok true := fun m hm => by
    rw [List.mem_singleton.1 hm]
    exact hfree.excluded
  exact ⟨exempt, restored, _, _, hexempt, ⟨a', ha', (Fee.systemFees_eq_empty_iff ha').2 hexcluded⟩,
    hrestored, hsame.same (by decide +kernel) _ _ _⟩

/-- A message is well formed with a type that has no route. The proposal to exempt the type is
refused, and the message goes on being charged. -/
theorem bare_type_charged :
    let refused := (exemption "Free" "Delegation is free." "delegate").handle.run chain.store
    (Message.other "delegate").check = .ok () ∧
      checkText "Free" "Delegation is free." = .ok () ∧
      refused.1 = .error (.invalidProposal (.messageType "delegate")) ∧
      (compute schedule refused.2 genesis.ledger.registry (unpriced "delegate")).map
        Fee.Assessment.systemFees = .ok (coins 1) := by
  decide +kernel

end Sample

end Governance

end ChainEconomy
