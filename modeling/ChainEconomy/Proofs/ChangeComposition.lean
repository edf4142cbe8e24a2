import ChainEconomy.Proofs.ParamChanges
import ChainEconomy.Proofs.ValueRoundTrip

/-!
# Changes of parameters, one by one and together

Whether a change is accepted depends on its own value and on the base denomination, which no change
can move. A list of changes is therefore accepted exactly if each of them is on its own, and what it
leaves behind depends on the last change of each parameter only. Parameters whose parts pass their
checks pass the check as a whole, so that in a store that does not fail the records can be written
whenever the changes are accepted.

## Key results

- `exists_on_congr`: what the acceptance of a change depends on
- `exists_allOn_iff`, `allOn_append`: several changes are as good as each of them and as their parts
- `SameForEach.swap`, `SameForEach.of_perm`: reordered changes of different parameters
- `Settled.makes_iff`: changes in a store that does not fail
- `changes_compose`: acceptance, values, order and composition
-/

namespace ChainEconomy.Governance

/-- The parameters pass their checks. -/
structure Params.IsSensible (p : Params) : Prop where
  fee : p.fee.check = .ok ()
  mint : p.mint.check = .ok ()

/-- The sign of a zero rate makes no difference to the checks. -/
theorem Params.IsSensible.unsigned {p : Params} (h : p.IsSensible) : p.unsigned.IsSensible :=
  ⟨Fee.Params.check_unsigned.2 h.fee, Mint.Params.check_unsigned.2 h.mint⟩

/-- A store with the records of parameters put into it. -/
def Params.writtenTo (p : Params) (s : Store) : Store :=
  { s with
    entries := (s.entries.insert Fee.Params.key (Store.recordBytes p.fee.toJson)).insert
      Mint.Params.key (Store.recordBytes p.mint.toJson) }

namespace ParamChange

/-! ## One change -/

/-- Whether a new value can be put in place has nothing to do with the place. -/
theorem exists_put_iff {α β : Type} {decode : Json → Except Json.Fault α} {c : ParamChange}
    {check : α → Except Error Unit} {put : α → β} :
    (∃ b, (do let value ← c.decode decode; check value; return put value) = Except.ok b) ↔
      ∃ value, Json.decodeText decode c.value = .ok value ∧ check value = .ok () := by
  simp only [put_eq_ok_iff]
  -- The place takes every value, so that only decoding and checking can refuse it.
  constructor
  · rintro ⟨_, value, hdecode, hcheck, -⟩
    exact ⟨value, hdecode, hcheck⟩
  · rintro ⟨value, hdecode, hcheck⟩
    exact ⟨put value, value, hdecode, hcheck, rfl⟩

/-- A change of the fees is accepted on parameters with one base denomination or on none of them. -/
theorem exists_onFee_congr {c : ParamChange} {p q : Fee.Params} (h : p.baseDenom = q.baseDenom) :
    (∃ r, c.onFee p = .ok r) ↔ ∃ r, c.onFee q = .ok r := by
  unfold onFee
  dsimp only
  -- The four cases are the three keys and any other one, which is refused on both parameters.
  split <;> simp only [exists_put_iff, h]

/-- A change of the minting is accepted on all parameters or on none. -/
theorem exists_onMint_congr (c : ParamChange) (p q : Mint.Params) :
    (∃ r, c.onMint p = .ok r) ↔ ∃ r, c.onMint q = .ok r := by
  unfold onMint
  dsimp only
  split <;> simp only [exists_put_iff]

/-- Of the parameters that it is made on, only the base denomination decides on a change. -/
theorem exists_on_congr (c : ParamChange) {p q : Params} (h : p.fee.baseDenom = q.fee.baseDenom) :
    (∃ r, c.on p = .ok r) ↔ ∃ r, c.on q = .ok r := by
  unfold on
  split
  · -- The subspace decides on which part the change is made; the other part is handed on.
    simpa [Except.map_eq_ok_iff] using exists_onFee_congr h
  · split
    · simpa [Except.map_eq_ok_iff] using exists_onMint_congr c p.mint q.mint
    · exact Iff.rfl

/-- A change of the fees keeps the check of the parameters, as the new value has passed its own. -/
theorem onFee_check {c : ParamChange} {p q : Fee.Params} (hcheck : p.check = .ok ())
    (h : c.onFee p = .ok q) : q.check = .ok () := by
  obtain ⟨hbase, hpercentage, hminimum, hmaximum⟩ := Fee.Params.check_eq_ok_iff.1 hcheck
  unfold onFee at h
  dsimp only at h
  split at h
  -- The last case is a key that there is not.
  case h_4 => cases h
  all_goals
    obtain ⟨value, -, hvalue, rfl⟩ := put_eq_ok_iff.1 h
    rw [Except.mapError_eq_ok_iff] at hvalue
    -- Three parts are as they were, and the new value stands in the place of the fourth one.
    exact Fee.Params.check_eq_ok_iff.2 ⟨hbase, ‹_›, ‹_›, ‹_›⟩

/-- A change of the minting keeps the check of the parameters, as the new value has passed its own.
-/
theorem onMint_check {c : ParamChange} {p q : Mint.Params} (hcheck : p.check = .ok ())
    (h : c.onMint p = .ok q) : q.check = .ok () := by
  obtain ⟨hdenom, hrate, hseconds⟩ := Mint.Params.check_eq_ok_iff.1 hcheck
  unfold onMint at h
  dsimp only at h
  split at h
  -- Here, too, the last case is a key that there is not.
  case h_4 => cases h
  all_goals
    obtain ⟨value, -, hvalue, rfl⟩ := put_eq_ok_iff.1 h
    rw [Except.mapError_eq_ok_iff] at hvalue
    exact Mint.Params.check_eq_ok_iff.2 ⟨‹_›, ‹_›, ‹_›⟩

/-- A value that has passed its own check is all that is new in the parameters. -/
theorem on_sensible {c : ParamChange} {p q : Params} (hp : p.IsSensible) (h : c.on p = .ok q) :
    q.IsSensible := by
  obtain ⟨fee, -, hfee, rfl⟩ | ⟨mint, -, hmint, rfl⟩ := on_eq_ok h
  · exact ⟨onFee_check hp.fee hfee, hp.mint⟩
  · exact ⟨hp.fee, onMint_check hp.mint hmint⟩

/-! ## Several changes -/

/-- Several changes are made by making the first one and then the others. -/
theorem allOn_cons_eq_ok {c : ParamChange} {rest : List ParamChange} {p q : Params} :
    allOn (c :: rest) p = .ok q ↔ ∃ middle, c.on p = .ok middle ∧ allOn rest middle = .ok q := by
  rw [allOn]
  cases c.on p <;> simp

/-- A single change is made as it is. -/
theorem allOn_singleton (c : ParamChange) (p : Params) : allOn [c] p = c.on p := by
  rw [allOn]
  cases c.on p <;> rfl

/-- Changes in a row are made in two parts, the second one on what the first one leaves. -/
theorem allOn_append {changes more : List ParamChange} {p q : Params} :
    allOn (changes ++ more) p = .ok q ↔
      ∃ middle, allOn changes p = .ok middle ∧ allOn more middle = .ok q := by
  -- The changes in front are made one by one, until only those behind are left.
  induction changes generalizing p with
  | nil => simp [allOn]
  | cons c rest ih =>
    simp only [List.cons_append, allOn_cons_eq_ok, ih]
    constructor
    · rintro ⟨first, hfirst, middle, hmiddle, hmore⟩
      exact ⟨middle, ⟨first, hfirst, hmiddle⟩, hmore⟩
    · rintro ⟨middle, ⟨first, hfirst, hmiddle⟩, hmore⟩
      exact ⟨first, hfirst, middle, hmiddle, hmore⟩

/-- Several changes are accepted exactly if each of them is on its own. -/
theorem exists_allOn_iff {changes : List ParamChange} {p : Params} :
    (∃ q, allOn changes p = .ok q) ↔ ∀ c ∈ changes, ∃ q, c.on p = .ok q := by
  -- The induction generalises the parameters, since every change meets those that the others left.
  induction changes generalizing p with
  | nil => simp [allOn]
  | cons c rest ih =>
    rw [List.forall_mem_cons]
    simp only [allOn_cons_eq_ok]
    -- The first change leaves the base denomination as it was for all that follow.
    have hrest : ∀ {middle}, c.on p = .ok middle →
        ((∃ q, allOn rest middle = .ok q) ↔ ∀ d ∈ rest, ∃ q, d.on p = .ok q) := by
      intro middle hmiddle
      rw [ih]
      exact forall₂_congr fun d _ => exists_on_congr d (on_reflects hmiddle).baseDenom
    constructor
    · rintro ⟨q, middle, hmiddle, hq⟩
      exact ⟨⟨middle, hmiddle⟩, (hrest hmiddle).1 ⟨q, hq⟩⟩
    · rintro ⟨⟨middle, hmiddle⟩, heach⟩
      obtain ⟨q, hq⟩ := (hrest hmiddle).2 heach
      exact ⟨q, middle, hmiddle, hq⟩

/-- Of the parameters that they are made on, only the base denomination decides on several changes.
-/
theorem exists_allOn_congr {changes : List ParamChange} {p q : Params}
    (h : p.fee.baseDenom = q.fee.baseDenom) :
    (∃ r, allOn changes p = .ok r) ↔ ∃ r, allOn changes q = .ok r := by
  rw [exists_allOn_iff, exists_allOn_iff]
  exact forall₂_congr fun c _ => exists_on_congr c h

/-- Several changes keep the checks of the parameters. -/
theorem allOn_sensible {changes : List ParamChange} {p q : Params} (hp : p.IsSensible)
    (h : allOn changes p = .ok q) : q.IsSensible := by
  induction changes generalizing p with
  | nil =>
    cases h
    exact hp
  | cons c rest ih =>
    obtain ⟨middle, hmiddle, hrest⟩ := allOn_cons_eq_ok.1 h
    exact ih (on_sensible hp hmiddle) hrest

/-! ## Order -/

/-- Every parameter has the same changes in the same order: only changes of different parameters
stand in another order. -/
def SameForEach (changes others : List ParamChange) : Prop :=
  ∀ subspace key, (changes.filter fun c => c.names subspace key) =
    others.filter fun c => c.names subspace key

/-- A change names a parameter by its subspace and its key. -/
theorem names_iff {c : ParamChange} {subspace key : String} :
    c.names subspace key = true ↔ c.subspace = subspace ∧ c.key = key := by
  simp [names]

/-- Neighbours that change different parameters may be exchanged. -/
theorem SameForEach.swap {c d : ParamChange} (h : ¬(c.subspace = d.subspace ∧ c.key = d.key))
    (before after : List ParamChange) :
    SameForEach (before ++ c :: d :: after) (before ++ d :: c :: after) := by
  intro subspace key
  have hboth : ¬(c.names subspace key = true ∧ d.names subspace key = true) := by
    rintro ⟨hc, hd⟩
    obtain ⟨rfl, rfl⟩ := names_iff.1 hd
    exact h (names_iff.1 hc)
  -- Only where both of them stand could the order make a difference, and no parameter is named by
  -- both.
  rw [List.filter_append, List.filter_append]
  congr 1
  by_cases hc : c.names subspace key = true
  · have hd : ¬d.names subspace key = true := fun hd => hboth ⟨hc, hd⟩
    simp [hc, hd]
  · simp [List.filter_cons, hc]

/-- Changes that are all of different parameters may stand in any order. -/
theorem SameForEach.of_perm {changes others : List ParamChange} (hperm : changes.Perm others)
    (hdistinct : changes.Pairwise fun c d => ¬(c.subspace = d.subspace ∧ c.key = d.key)) :
    SameForEach changes others := by
  intro subspace key
  have hfilter := hperm.filter fun c => c.names subspace key
  have hsome := hdistinct.filter fun c => c.names subspace key
  have hnames : ∀ c ∈ changes.filter fun c => c.names subspace key,
      c.subspace = subspace ∧ c.key = key := fun c hc => names_iff.1 (List.mem_filter.1 hc).2
  -- At most one change is of the parameter, and a single change has one order only.
  cases hfound : changes.filter fun c => c.names subspace key with
  | nil =>
    rw [hfound] at hfilter
    exact hfilter.nil_eq
  | cons c rest =>
    rw [hfound] at hfilter hsome hnames
    cases rest with
    | nil => exact List.singleton_perm.1 hfilter
    | cons d rest =>
      have hc := hnames c List.mem_cons_self
      have hd := hnames d (List.mem_cons_of_mem _ List.mem_cons_self)
      exact absurd ⟨hc.1.trans hd.1.symm, hc.2.trans hd.2.symm⟩
        ((List.pairwise_cons.1 hsome).1 d List.mem_cons_self)

/-- The last change of a parameter stays the last one. -/
theorem SameForEach.last?_eq {changes others : List ParamChange} (h : SameForEach changes others)
    (subspace key : String) : last? changes subspace key = last? others subspace key := by
  unfold last?
  rw [← List.head?_filter, ← List.head?_filter, List.filter_reverse, List.filter_reverse,
    h subspace key]

/-- The same changes are made, only in another order. -/
theorem SameForEach.mem_iff {changes others : List ParamChange} (h : SameForEach changes others)
    {c : ParamChange} : c ∈ changes ↔ c ∈ others := by
  -- A change is one of those of its own parameter, and these are the same in both lists.
  have hnames : c.names c.subspace c.key = true := names_iff.2 ⟨rfl, rfl⟩
  have hmem : ∀ l : List ParamChange,
      c ∈ (l.filter fun d => d.names c.subspace c.key) ↔ c ∈ l := by
    intro l
    rw [List.mem_filter, and_iff_left hnames]
  rw [← hmem changes, h, hmem]

/-- What a parameter is afterwards does not depend on the order of changes of other parameters. -/
theorem SameForEach.valueAfter_eq {changes others : List ParamChange}
    (h : SameForEach changes others) {α : Type} (decode : Json → Except Json.Fault α)
    (subspace key : String) (old : α) :
    valueAfter decode changes subspace key old = valueAfter decode others subspace key old := by
  rw [valueAfter, valueAfter, h.last?_eq]

/-- What parameters have to be depends on the last change of each of them. -/
theorem Reflects.congr {changes others : List ParamChange} {p q : Params}
    (h : SameForEach changes others) (hreflects : Reflects changes p q) : Reflects others p q := by
  constructor
  case baseDenom => exact hreflects.baseDenom
  -- Every value is one that is named by a subspace and a key.
  all_goals rw [← h.valueAfter_eq]
  · exact hreflects.percentage
  · exact hreflects.minimum
  · exact hreflects.maximum
  · exact hreflects.denom
  · exact hreflects.ratePerSecond
  · exact hreflects.maxAccrualSeconds

/-- Changes leave one possibility for what the parameters are afterwards. -/
theorem Reflects.unique {changes : List ParamChange} {p q r : Params} (hq : Reflects changes p q)
    (hr : Reflects changes p r) : q = r := by
  obtain ⟨⟨percentage, minimum, maximum, baseDenom⟩, ⟨denom, rate, seconds⟩⟩ := q
  obtain ⟨⟨percentage', minimum', maximum', baseDenom'⟩, ⟨denom', rate', seconds'⟩⟩ := r
  -- Each value is determined by the changes, and is taken part by part.
  obtain rfl : percentage = percentage' := Except.ok.inj (hq.percentage.symm.trans hr.percentage)
  obtain rfl : minimum = minimum' := Except.ok.inj (hq.minimum.symm.trans hr.minimum)
  obtain rfl : maximum = maximum' := Except.ok.inj (hq.maximum.symm.trans hr.maximum)
  obtain rfl : baseDenom = baseDenom' := hq.baseDenom.trans hr.baseDenom.symm
  obtain rfl : denom = denom' := Except.ok.inj (hq.denom.symm.trans hr.denom)
  obtain rfl : rate = rate' := Except.ok.inj (hq.ratePerSecond.symm.trans hr.ratePerSecond)
  obtain rfl : seconds = seconds' :=
    Except.ok.inj (hq.maxAccrualSeconds.symm.trans hr.maxAccrualSeconds)
  rfl

/-- The order may be changed back. -/
theorem SameForEach.symm {changes others : List ParamChange} (h : SameForEach changes others) :
    SameForEach others changes := fun subspace key => (h subspace key).symm

/-- Such an order makes no difference to what becomes of the parameters. -/
theorem allOn_congr {changes others : List ParamChange} (h : SameForEach changes others)
    {p q : Params} : allOn changes p = .ok q ↔ allOn others p = .ok q := by
  have hone : ∀ {cs ds : List ParamChange}, SameForEach cs ds → allOn cs p = .ok q →
      allOn ds p = .ok q := by
    -- One direction is enough, since the order may be changed back.
    intro cs ds hsame hq
    have heach := exists_allOn_iff.1 ⟨q, hq⟩
    obtain ⟨r, hr⟩ : ∃ r, allOn ds p = .ok r :=
      exists_allOn_iff.2 fun c hc => heach c (hsame.mem_iff.2 hc)
    rw [hr, ((allOn_reflects hq).congr hsame).unique (allOn_reflects hr)]
  exact ⟨hone h, hone h.symm⟩

/-! ## Parameters that have been read back -/

/-- A rate is taken from a change or left as it was, up to the sign of a zero. -/
theorem valueAfter_unsigned {changes : List ParamChange} {subspace key : String}
    {old value value' : Rate} (h : valueAfter Rate.ofJson changes subspace key old = .ok value)
    (h' : valueAfter Rate.ofJson changes subspace key old.unsigned = .ok value') :
    value'.unsigned = value.unsigned := by
  unfold valueAfter at h h'
  -- Without a change the value is the old one, with its sign or without.
  cases hlast : last? changes subspace key with
  | none =>
    rw [hlast] at h h'
    cases h
    cases h'
    exact old.unsigned_unsigned
  | some c =>
    rw [hlast] at h h'
    rw [Except.ok.inj (h.symm.trans h')]

/-- The sign of a zero is the only thing in which later values can differ when earlier changes have
been written and read back in between. -/
theorem allOn_unsigned {changes : List ParamChange} {p q r : Params}
    (hq : allOn changes p = .ok q) (hr : allOn changes p.unsigned = .ok r) :
    r.unsigned = q.unsigned := by
  have hafter := allOn_reflects hq
  have hafter' := allOn_reflects hr
  -- Two rates may differ by the sign of a zero; all other values are equal.
  have hpercentage := valueAfter_unsigned hafter.percentage hafter'.percentage
  have hpersecond := valueAfter_unsigned hafter.ratePerSecond hafter'.ratePerSecond
  have hminimum := Except.ok.inj (hafter'.minimum.symm.trans hafter.minimum)
  have hmaximum := Except.ok.inj (hafter'.maximum.symm.trans hafter.maximum)
  have hbase := hafter'.baseDenom.trans hafter.baseDenom.symm
  have hdenom := Except.ok.inj (hafter'.denom.symm.trans hafter.denom)
  have hseconds := Except.ok.inj (hafter'.maxAccrualSeconds.symm.trans hafter.maxAccrualSeconds)
  simp only [Params.unsigned, Fee.Params.unsigned, Mint.Params.unsigned, hpercentage, hpersecond,
    hminimum, hmaximum, hbase, hdenom, hseconds]

/-! ## Stores that do not fail -/

/-- The changes are made: they are not refused, and lead from one store to another. -/
def Makes (changes : List ParamChange) (s t : Store) : Prop :=
  ∃ events, (applyAll changes).run s = (.ok events, t)

/-- A store that does not fail holds sensible parameters. -/
structure Settled (s : Store) (p : Params) : Prop where
  medium : s.medium = .sound
  stored : Stored s p
  sensible : p.IsSensible

section

variable {s t : Store} {p q r : Params} {changes more : List ParamChange}

/-- Sensible parameters can be written, one record after the other. -/
theorem Settled.exists_saved (h : Settled s p) (hq : q.IsSensible) :
    ∃ half, saveFee q.fee s = .ok half ∧ saveMint q.mint half = .ok (q.writtenTo s) := by
  -- Both records are written, the second one behind the first one.
  have hwrite : ∀ key, s.medium.writeFailure key = none := fun _ => by rw [h.medium]; rfl
  exact ⟨_, saveFee_eq_ok_iff.2 ⟨hq.fee, Store.set_eq_ok_iff.2 ⟨hwrite _, rfl⟩⟩,
    saveMint_eq_ok_iff.2 ⟨hq.mint, Store.set_eq_ok_iff.2 ⟨hwrite _, rfl⟩⟩⟩

/-- A store with new parameters written into it is one that does not fail and holds them. -/
theorem Settled.writtenTo (h : Settled s p) (hq : q.IsSensible) :
    Settled (q.writtenTo s) q.unsigned := by
  obtain ⟨half, hfee, hmint⟩ := h.exists_saved hq
  exact ⟨h.medium, stored_of_saved h.stored hfee hmint, hq.unsigned⟩

/-- Changes that are accepted are reported and written; a refusal leaves the store as it was. -/
theorem Settled.run_applyAll (h : Settled s p) (changes : List ParamChange) :
    (applyAll changes).run s =
      match allOn changes p with
      | .ok q => (.ok (changes.map event), q.writtenTo s)
      | .error e => (.error e, s) := by
  simp only [applyAll, Attempt.run_bind, Attempt.run_read, Attempt.run_ofExcept, h.stored.fee,
    h.stored.mint]
  -- The refusal comes before anything is written, so that the store is untouched.
  cases hq : allOn changes p with
  | error e => rfl
  | ok q =>
    obtain ⟨half, hhalf, hwritten⟩ := h.exists_saved (allOn_sensible h.sensible hq)
    simp only [Attempt.run_change, Attempt.run_pure, hhalf, hwritten]

/-- Changes are made exactly if they are accepted, and what they leave behind is written. -/
theorem Settled.makes_iff (h : Settled s p) :
    Makes changes s t ↔ ∃ q, allOn changes p = .ok q ∧ q.writtenTo s = t := by
  unfold Makes
  rw [h.run_applyAll]
  cases allOn changes p <;> simp

/-- There is a store that the changes lead to exactly if they are accepted. -/
theorem Settled.exists_makes_iff (h : Settled s p) :
    (∃ t, Makes changes s t) ↔ ∃ q, allOn changes p = .ok q := by
  simp only [h.makes_iff]
  exact ⟨fun ⟨_, q, hq, _⟩ => ⟨q, hq⟩, fun ⟨q, hq⟩ => ⟨_, q, hq, rfl⟩⟩

/-- Changes after others start from what those have left behind. -/
theorem Settled.makes_after_iff (h : Settled s p) (hq : allOn changes p = .ok q) :
    Makes more (q.writtenTo s) t ↔
      ∃ r, allOn more q.unsigned = .ok r ∧ r.writtenTo (q.writtenTo s) = t :=
  (h.writtenTo (allOn_sensible h.sensible hq)).makes_iff

/-- Changes are made in one go exactly if they are made in two parts. -/
theorem Settled.exists_makes_append_iff (h : Settled s p) :
    (∃ t, Makes (changes ++ more) s t) ↔ ∃ u t, Makes changes s u ∧ Makes more u t := by
  rw [h.exists_makes_iff]
  simp only [allOn_append]
  constructor
  · rintro ⟨r, q, hq, hr⟩
    -- Written and read back, the parameters may have lost the sign of a zero, which decides
    -- nothing.
    obtain ⟨r', hr'⟩ := (exists_allOn_congr (p := q) (q := q.unsigned) rfl).1 ⟨r, hr⟩
    exact ⟨_, _, h.makes_iff.2 ⟨q, hq, rfl⟩, (h.makes_after_iff hq).2 ⟨r', hr', rfl⟩⟩
  · rintro ⟨u, t, hu, ht⟩
    obtain ⟨q, hq, rfl⟩ := h.makes_iff.1 hu
    obtain ⟨r', hr', -⟩ := (h.makes_after_iff hq).1 ht
    obtain ⟨r, hr⟩ := (exists_allOn_congr (p := q) (q := q.unsigned) rfl).2 ⟨r', hr'⟩
    exact ⟨r, q, hq, hr⟩

/-- In one go or in two parts, the same parameters are left behind. -/
theorem Settled.loads_of_append (h : Settled s p) {u v : Store} (hu : Makes changes s u)
    (ht : Makes more u t) (hv : Makes (changes ++ more) s v) :
    loadFee t = loadFee v ∧ loadMint t = loadMint v := by
  obtain ⟨q, hq, rfl⟩ := h.makes_iff.1 hu
  obtain ⟨r', hr', rfl⟩ := (h.makes_after_iff hq).1 ht
  obtain ⟨r, hr, rfl⟩ := h.makes_iff.1 hv
  -- Three stores, whose records are known from what has been written into them.
  have hafter := h.writtenTo (allOn_sensible h.sensible hq)
  have htwice := (hafter.writtenTo (allOn_sensible hafter.sensible hr')).stored
  have honce := (h.writtenTo (allOn_sensible h.sensible hr)).stored
  obtain ⟨middle, hmiddle, hrest⟩ := allOn_append.1 hr
  obtain rfl := Except.ok.inj (hq.symm.trans hmiddle)
  rw [allOn_unsigned hrest hr'] at htwice
  exact ⟨htwice.fee.trans honce.fee.symm, htwice.mint.trans honce.mint.symm⟩

end

/-- In a store that does not fail and holds sensible parameters: changes are made exactly if each of
them would be made alone. The parameters are written with the values that the last changes ask for,
and read back with equal ones. Only the order of changes of one parameter makes a difference.
Changes are made in one go exactly if they are made in two parts one after the other, and both leave
the same parameters behind. -/
theorem changes_compose {s : Store} {p : Params} (h : Settled s p) (changes : List ParamChange) :
    ((∃ t, Makes changes s t) ↔ ∀ c ∈ changes, ∃ t, Makes [c] s t) ∧
      (∀ t, Makes changes s t → ∃ after now, Reflects changes p after ∧ t = after.writtenTo s ∧
        Stored t now ∧ after.fee.Same now.fee ∧ after.mint.Same now.mint) ∧
      (∀ others, SameForEach changes others → ∀ t, Makes changes s t ↔ Makes others s t) ∧
      ∀ more,
        ((∃ t, Makes (changes ++ more) s t) ↔ ∃ u t, Makes changes s u ∧ Makes more u t) ∧
          ∀ u t v, Makes changes s u → Makes more u t → Makes (changes ++ more) s v →
            loadFee t = loadFee v ∧ loadMint t = loadMint v := by
  refine ⟨?_, fun t ht => ?_, fun others hsame t => ?_, fun more =>
    ⟨h.exists_makes_append_iff, fun _ _ _ => h.loads_of_append⟩⟩
  · -- Both sides come to this: the changes can be made on the parameters that the store holds.
    rw [h.exists_makes_iff, exists_allOn_iff]
    simp only [h.exists_makes_iff, allOn_singleton]
  · obtain ⟨q, hq, rfl⟩ := h.makes_iff.1 ht
    have hstored := (h.writtenTo (allOn_sensible h.sensible hq)).stored
    exact ⟨q, q.unsigned, allOn_reflects hq, rfl, hstored, q.fee.same_unsigned,
      q.mint.same_unsigned⟩
  · rw [h.makes_iff, h.makes_iff]
    exact exists_congr fun q => and_congr_left fun _ => allOn_congr hsame

/-! A surcharge that is raised and then lowered, with a change of another parameter in between. -/

namespace Sample

/-- A change of the surcharge to three tenths. -/
def lower : ParamChange := ⟨"fee", "fee_percentage", "\"0.30\""⟩

/-- A change of the longest time between two blocks to a minute. -/
def hasten : ParamChange := ⟨"mint", "max_accrual_seconds", "60"⟩

/-- The parameters of the genesis to look at. -/
def params : Params :=
  ⟨Chain.Sample.genesis.economy.feeParams, Chain.Sample.genesis.economy.mintParams⟩

/-- After the genesis the store holds these parameters, and both are in order. -/
theorem settled : Settled Chain.Sample.chain.store params := by
  have hinit : Chain.Sample.genesis.economy.init.run (Store.empty .sound) =
      (.ok (), Chain.Sample.chain.store) :=
    Prod.ext (Except.eq_ok_of_isOk (by decide +kernel)) rfl
  have hholds := Genesis.holds_of_init hinit
  have hmedium : Chain.Sample.chain.store.medium = .sound := (Genesis.find?_of_init hinit).2.1
  exact ⟨hmedium, ⟨hholds.loadFee hmedium, hholds.loadMint hmedium⟩,
    ⟨Except.eq_ok_of_isOk (by decide +kernel), Except.eq_ok_of_isOk (by decide +kernel)⟩⟩

end Sample

/-- The three changes are made in two orders, with the later surcharge as the result. -/
theorem changes_compose_sample :
    ∃ (t : Store) (after : Params),
      Makes [Sample.raise, Sample.hasten, Sample.lower] Chain.Sample.chain.store t ∧
      Makes [Sample.hasten, Sample.raise, Sample.lower] Chain.Sample.chain.store t ∧
      t = after.writtenTo Chain.Sample.chain.store ∧
      after.fee.percentage.render = "0.30" ∧ after.fee.baseDenom = "utoll" := by
  obtain ⟨halone, hvalues, horder, -⟩ :=
    changes_compose Sample.settled [Sample.raise, Sample.hasten, Sample.lower]
  have hone : ∀ c ∈ [Sample.raise, Sample.hasten, Sample.lower],
      ((allOn [c] Sample.params).toOption.map fun _ => ()) = some () := by decide +kernel
  obtain ⟨t, ht⟩ := halone.2 fun c hc => by
    obtain ⟨q, hq, -⟩ := Except.exists_of_toOption_map (hone c hc)
    exact Sample.settled.exists_makes_iff.2 ⟨q, hq⟩
  obtain ⟨after, -, hafter, hwritten, -⟩ := hvalues t ht
  have hswap : SameForEach [Sample.raise, Sample.hasten, Sample.lower]
      [Sample.hasten, Sample.raise, Sample.lower] :=
    .swap (by decide) [] [Sample.lower]
  have hlast : ((valueAfter Rate.ofJson [Sample.raise, Sample.hasten, Sample.lower] feeSubspace
      "fee_percentage" Sample.params.fee.percentage).toOption.map Rate.render) = some "0.30" := by
    decide +kernel
  rw [hafter.percentage] at hlast
  exact ⟨t, after, ht, (horder _ hswap t).1 ht, hwritten, Option.some.inj hlast, hafter.baseDenom⟩

end ParamChange

end ChainEconomy.Governance
