import ChainEconomy.Proofs.ByteOrder
import ChainEconomy.Proofs.CoinAcceptance
import ChainEconomy.Proofs.CoinSetText

/-!
# The entries of coin sets are canonical

A coin set has proper denominations and positive amounts by its type, and `put` would drop anything
else. Here the operations work on bare entries instead: they put what they compute where it belongs,
take an entry out where a difference leaves nothing, and keep no rule beyond that. Each of them
comes to the entries of the operation on sets, so that nothing is ever dropped, and whatever has
been read, added and subtracted, the entries are canonical.

## Key results

- `entries_add`, `map_entries_sub?`, `map_entries_ofCoins`: one lemma for each operation
- `Origin`: how a set comes about
- `Origin.entries?_eq`: bare entries are those of the set
- `Origin.canonical`: canonical entries, and what it takes for two sets to be equal
-/

namespace Except

variable {ε α β : Type}

/-- A result that is changed is the changed result, if there is one. -/
theorem toOption_map (x : Except ε α) (f : α → β) : (x.map f).toOption = x.toOption.map f := by
  cases x <;> rfl

/-- A result that is there belongs to a success. -/
theorem toOption_eq_some_iff {x : Except ε α} {a : α} : x.toOption = some a ↔ x = .ok a := by
  cases x <;> simp [Except.toOption]

end Except

namespace ChainEconomy.CoinSet

open KeyOrder OrderedMap Text

/-! ## Operations on bare entries -/

/-- Adds the amounts of other entries one by one. -/
def addEntries (l m : List (String × Nat)) : List (String × Nat) :=
  m.foldl (fun l e => insertIn e.1 (amountIn l e.1 + e.2) l) l

/-- Takes amounts away one by one, up to the first that is not covered. -/
def subEntries (l : List (String × Nat)) :
    List (String × Nat) → Except CoinError (List (String × Nat))
  | [] => .ok l
  | (denom, requested) :: rest =>
    let available := amountIn l denom
    if available < requested then .error (.insufficient denom available requested)
    else if available - requested = 0 then subEntries (eraseIn denom l) rest
    else subEntries (insertIn denom (available - requested) l) rest

/-- Enters coins one by one; a denomination that has an entry is refused. -/
def enterCoins (l : List (String × Nat)) :
    List Coin → Except CoinError (List (String × Nat))
  | [] => .ok l
  | c :: rest =>
    match Denom.check c.denom with
    | .error e => .error e
    | .ok () =>
      if (findIn c.denom l).isSome then .error (.duplicateDenom c.denom)
      else if c.amount = 0 then enterCoins l rest
      else enterCoins (insertIn c.denom c.amount l) rest

/-! ## The same operations on sets -/

/-- A positive amount of a proper denomination is put where it belongs. -/
theorem entries_put {s : CoinSet} {denom : String} {n : Nat} (hdenom : Denom.isDenom denom = true)
    (hpos : 0 < n) : (s.put denom n).entries = insertIn denom n s.entries := by
  unfold put
  rw [dif_pos ⟨hdenom, hpos⟩]
  rfl

/-- An amount of zero takes its entry out. -/
theorem entries_put_zero (s : CoinSet) (denom : String) :
    (s.put denom 0).entries = eraseIn denom s.entries := by
  unfold put
  rw [dif_neg fun h => Nat.lt_irrefl 0 h.2]
  rfl

/-- Nothing is changed by an amount of zero where nothing is held. -/
theorem put_zero_of_not_held {s : CoinSet} {denom : String} (h : s.amountOf denom = 0) :
    s.put denom 0 = s := by
  -- Sets are compared by their amounts, of which only the one in question could have changed.
  apply ext_amountOf
  intro x
  rw [amountOf_put, ite_self]
  split
  · next hx => rw [hx, h]
  · rfl

/-- Entries that are added one by one to a set are added one by one to its entries. -/
private theorem entries_foldl_deposit {l : List (String × Nat)} (s : CoinSet)
    (hproper : ∀ e ∈ l, Denom.isDenom e.1 = true ∧ 0 < e.2) :
    (l.foldl deposit s).entries = addEntries s.entries l := by
  induction l generalizing s with
  | nil => rfl
  | cons e rest ih =>
    obtain ⟨⟨hdenom, hpos⟩, hrest⟩ := List.forall_mem_cons.1 hproper
    -- A sum with a positive amount is positive, so that it is put and not dropped.
    rw [List.foldl_cons, ih _ hrest, deposit, entries_put hdenom (by omega)]
    rfl

/-- The entries of a sum are those of the first set, with the amounts of the second one added to
them. -/
theorem entries_add (a b : CoinSet) : (a.add b).entries = addEntries a.entries b.entries :=
  entries_foldl_deposit a b.proper

/-- Entries that are taken away from a set one by one are taken away from its entries. -/
private theorem map_entries_withdraw {l : List (String × Nat)} (s : CoinSet)
    (hproper : ∀ e ∈ l, Denom.isDenom e.1 = true) :
    (s.withdraw l).map entries = subEntries s.entries l := by
  induction l generalizing s with
  | nil => rfl
  | cons e rest ih =>
    obtain ⟨denom, requested⟩ := e
    obtain ⟨hdenom, hrest⟩ := List.forall_mem_cons.1 hproper
    have hheld : amountIn s.entries denom = s.amountOf denom := rfl
    rw [withdraw, subEntries, hheld]
    -- The first amount is not covered, which ends both with the same refusal.
    split
    · rfl
    · rw [ih _ hrest]
      split
      · -- An amount that is taken as a whole leaves no entry behind.
        next hnone => rw [hnone, entries_put_zero]
      · next hleft => rw [entries_put hdenom (Nat.pos_of_ne_zero hleft)]

/-- The entries of a difference, and its refusals, are those of the difference of the entries. -/
theorem map_entries_sub? (a b : CoinSet) :
    (a.sub? b).map entries = subEntries a.entries b.entries :=
  map_entries_withdraw a fun e he => (b.proper e he).1

/-- Coins that are entered into a set one by one are entered into its entries. -/
private theorem map_entries_insertCoins (s : CoinSet) (coins : List Coin) :
    (s.insertCoins coins).map entries = enterCoins s.entries coins := by
  induction coins generalizing s with
  | nil => rfl
  | cons c rest ih =>
    have hheld : (findIn c.denom s.entries).isSome = s.holds c.denom := rfl
    rw [insertCoins, enterCoins, hheld]
    -- An improper denomination is refused in both; a repeated one is, too.
    cases hcheck : Denom.check c.denom with
    | error e => rfl
    | ok u =>
      dsimp only
      split
      · rfl
      · next hfree =>
        rw [ih]
        split
        · -- A coin of amount zero is passed over, which is what putting it comes to.
          next hzero =>
          have hnone : s.amountOf c.denom = 0 := by
            rw [holds_iff] at hfree
            omega
          rw [hzero, put_zero_of_not_held hnone]
        · next hsome =>
          rw [entries_put (Denom.check_eq_ok_iff.1 hcheck) (Nat.pos_of_ne_zero hsome)]

/-- The entries of a set of coins, and its refusals, come about by entering the coins one by one. -/
theorem map_entries_ofCoins (coins : List Coin) :
    (ofCoins coins).map entries = enterCoins [] coins := map_entries_insertCoins empty coins

/-! ## How sets come about -/

/-- What a set can be read from. -/
inductive Source where
  | single (denom : String) (amount : Nat)
  | list (coins : List Coin)
  | text (cs : List Char)
  | document (cs : List Char)

namespace Source

/-- The set that is read. -/
def set? : Source → Option CoinSet
  | .single denom amount => (CoinSet.single denom amount).toOption
  | .list coins => (ofCoins coins).toOption
  | .text cs => (parse cs).toOption
  | .document cs => (Json.decodeChars ofJson cs).toOption

/-- The coins that are read. -/
def coins? : Source → Option (List Coin)
  | .single denom amount => (Coin.ofParts denom amount).toOption.map fun c => [c]
  | .list coins => some coins
  | .text cs => (listedIn cs).toOption
  | .document cs => (Json.decodeChars (Json.toList Coin.ofJson) cs).toOption

/-- Every source goes through a list of coins. -/
theorem set?_eq (x : Source) : x.set? = x.coins?.bind fun coins => (ofCoins coins).toOption := by
  cases x with
  | single denom amount =>
    rw [set?, coins?, CoinSet.single]
    cases Coin.ofParts denom amount <;> rfl
  | list coins => rfl
  -- Texts and documents are refused in several ways, but give a set in one.
  | text cs =>
    ext s
    simp [set?, coins?, Except.toOption_eq_some_iff, parse_eq_ok_iff, Option.bind_eq_some_iff]
  | document cs =>
    ext s
    simp [set?, coins?, Except.toOption_eq_some_iff, decodeChars_ofJson_eq_ok_iff,
      Option.bind_eq_some_iff]

end Source

/-- How a set comes about: from nothing or out of a source, as a sum or as a difference. -/
inductive Origin where
  | nothing
  | source (x : Source)
  | sum (a b : Origin)
  | difference (a b : Origin)

namespace Origin

/-- The set that comes about. -/
def set? : Origin → Option CoinSet
  | .nothing => some CoinSet.empty
  | .source x => x.set?
  | .sum a b => a.set?.bind fun s => b.set?.map fun t => s.add t
  | .difference a b => a.set?.bind fun s => b.set?.bind fun t => (s.sub? t).toOption

/-- The entries that come about when the operations work on bare entries. -/
def entries? : Origin → Option (List (String × Nat))
  | .nothing => some []
  | .source x => x.coins?.bind fun coins => (enterCoins [] coins).toOption
  | .sum a b => a.entries?.bind fun l => b.entries?.map fun m => addEntries l m
  | .difference a b => a.entries?.bind fun l => b.entries?.bind fun m => (subEntries l m).toOption

/-- Bare entries are those of the set, and there are some exactly if there is a set. -/
theorem entries?_eq (o : Origin) : o.entries? = o.set?.map CoinSet.entries := by
  -- The induction is on the origin, and each operation has its lemma.
  induction o with
  | nothing => rfl
  | source x =>
    rw [entries?, set?, x.set?_eq, Option.map_bind]
    congr 1
    funext coins
    rw [← map_entries_ofCoins, Except.toOption_map]
    rfl
  | sum a b iha ihb =>
    rw [entries?, set?, iha, ihb]
    cases a.set? <;> cases b.set? <;> simp [entries_add]
  | difference a b iha ihb =>
    rw [entries?, set?, iha, ihb]
    cases a.set? <;> cases b.set? <;> simp [← map_entries_sub?, Except.toOption_map]

end Origin

/-! ## Canonical entries -/

/-- The denominations are proper and ascend by their bytes, and no amount is zero. -/
structure IsCanonical (l : List (String × Nat)) : Prop where
  ascending : l.Pairwise fun d e => Before (Utf8.ofString d.1) (Utf8.ofString e.1)
  proper : ∀ e ∈ l, Denom.check e.1 = .ok ()
  nonzero : ∀ e ∈ l, e.2 ≠ 0

/-- The entries of every set are canonical. -/
theorem isCanonical_entries (s : CoinSet) : IsCanonical s.entries where
  ascending := s.amounts.ascending.imp Utf8.before_ofString.2
  proper e he := Denom.check_eq_ok_iff.2 (s.proper e he).1
  nonzero e he := (s.proper e he).2.ne'

/-- Different sets have different texts. -/
theorem render_injective {a b : CoinSet} (h : a.render = b.render) : a = b := by
  -- A text that both sets have is read as both of them.
  have hparse := parse_toList_render a
  rw [h, parse_toList_render] at hparse
  exact (Except.ok.inj hparse).symm

/-- However two sets come about: working on bare entries comes to their entries, which are
canonical. The sets are equal exactly if their texts are, and exactly if they hold the same of every
denomination. -/
theorem Origin.canonical {o p : Origin} {a b : CoinSet} (ha : o.set? = some a)
    (hb : p.set? = some b) :
    (o.entries? = some a.entries ∧ p.entries? = some b.entries) ∧
      (IsCanonical a.entries ∧ IsCanonical b.entries) ∧
      [a = b, a.render = b.render, ∀ denom, a.amountOf denom = b.amountOf denom].TFAE := by
  have hbare : o.entries? = some a.entries := by rw [o.entries?_eq, ha, Option.map_some]
  have hbare' : p.entries? = some b.entries := by rw [p.entries?_eq, hb, Option.map_some]
  refine ⟨⟨hbare, hbare'⟩, ⟨isCanonical_entries a, isCanonical_entries b⟩, ?_⟩
  -- Texts and amounts are both compared with equality, and so with each other.
  tfae_have 1 → 2 := fun h => h ▸ rfl
  tfae_have 2 → 1 := render_injective
  tfae_have 1 → 3 := fun h _ => h ▸ rfl
  tfae_have 3 → 1 := ext_amountOf
  tfae_finish

/-! Nine of one denomination and three of another, as a sum of texts and as a difference. -/

namespace Sample

/-- Two texts, one of them with a coin of amount zero. -/
def parted : Origin :=
  .sum (.source (.text "4utoll,0ufoo,3uatom".toList)) (.source (.text " 5utoll".toList))

/-- A list from which all coins of one denomination are taken. -/
def reduced : Origin :=
  .difference (.source (.list [⟨"utoll", 9⟩, ⟨"ufoo", 2⟩, ⟨"uatom", 3⟩]))
    (.source (.single "ufoo" 2))

end Sample

/-- Their texts are the same, and so are the sets. -/
theorem Origin.canonical_sample :
    ∃ a b, Sample.parted.set? = some a ∧ Sample.reduced.set? = some b ∧
      a.render = "3uatom,9utoll" ∧ IsCanonical a.entries ∧
      Sample.reduced.entries? = some b.entries ∧ a = b := by
  have hparted : Sample.parted.set?.map CoinSet.render = some "3uatom,9utoll" := by
    decide +kernel
  have hreduced : Sample.reduced.set?.map CoinSet.render = some "3uatom,9utoll" := by
    decide +kernel
  obtain ⟨a, ha, htext⟩ := Option.map_eq_some_iff.1 hparted
  obtain ⟨b, hb, htext'⟩ := Option.map_eq_some_iff.1 hreduced
  obtain ⟨⟨-, hentries⟩, ⟨hcanonical, -⟩, hequal⟩ := Origin.canonical ha hb
  have hsame : a = b := (hequal.out 0 1).2 (htext.trans htext'.symm)
  exact ⟨a, b, ha, hb, htext, hcanonical, hentries, hsame⟩

end ChainEconomy.CoinSet
