import ChainEconomy.Proofs.AdmissionCoverage

/-!
# Credits and the ownership of names

The first name of an account brings credits along, and the last one takes them away. A message that
succeeds does one of five things to the credits of an account: `CreditChange` names them together
with what has happened to the names, and `apply_creditChange` goes through the messages once. What
holds of credits is then left with these five cases.

## Key results

- `CreditChange`, `apply_creditChange`: what a message does to the credits of an account
- `Genesis.Starts.credits_follow_names`: an account without names has no credits
- `apply_credits_grow`, `own_purchase_refills`: when credits grow
-/

namespace ChainEconomy

namespace Ledger

/-! ## What a message does to credits -/

/-- What a message can do to the credits of an account. -/
inductive CreditChange (m : Message) (a : Address) (l l' : Ledger) : Prop
  /-- The credits stay, and the last name has not been given away. -/
  | kept (hcredits : l'.creditsOf a = l.creditsOf a)
    (hnames : l'.ownedNames a = 0 → l.ownedNames a = 0)
  /-- The account has registered an address under a name of its own. -/
  | spent (hcredits : l'.creditsOf a = Fee.spendCredit (l.creditsOf a))
    (hafter : 0 < l'.ownedNames a)
  /-- The account has got a first name. -/
  | granted (hcredits : l'.creditsOf a = l.pricing.creditGrant) (hbefore : l.ownedNames a = 0)
    (hafter : l'.ownedNames a = 1)
  /-- The account has bought its only name from itself. -/
  | refilled {name : String} {r : NameRecord} (hcredits : l'.creditsOf a = l.pricing.creditGrant)
    (hbefore : l.ownedNames a = 1) (hafter : l'.ownedNames a = 1)
    (hmessage : m = .buyName name a) (hrecord : l.names.find? name = some r)
    (howner : r.owner = a)
  /-- The account has given its last name away. -/
  | revoked (hcredits : l'.creditsOf a = 0) (hafter : l'.ownedNames a = 0)

namespace CreditChange

variable {m : Message} {a : Address} {l l' : Ledger}

/-- A payment in front of the change is not seen in names and credits. -/
theorem of_paid {b : Balances} (h : CreditChange m a { l with balances := b } l') :
    CreditChange m a l l' := by
  -- Only the balances of the first ledger differ, and no case mentions them.
  cases h with
  | kept hcredits hnames => exact .kept hcredits hnames
  | spent hcredits hafter => exact .spent hcredits hafter
  | granted hcredits hbefore hafter => exact .granted hcredits hbefore hafter
  | refilled hcredits hbefore hafter hmessage hrecord howner =>
    exact .refilled hcredits hbefore hafter hmessage hrecord howner
  | revoked hcredits hafter => exact .revoked hcredits hafter

/-- An account that has got one name more. -/
theorem of_acquired (h : Acquired a l l') (hmore : l'.ownedNames a = l.ownedNames a + 1) :
    CreditChange m a l l' := by
  have hcredits := h.credits
  -- With one name more, an account that owns just one now has owned none before.
  by_cases hone : l'.ownedNames a = 1
  · rw [if_pos hone] at hcredits
    exact .granted hcredits (by omega) hone
  · rw [if_neg hone] at hcredits
    exact .kept hcredits fun hnone => by omega

/-- An account that may have lost its last name. -/
theorem of_released (h : Released a l l') : CreditChange m a l l' := by
  have hcredits := h.credits
  -- Credits are taken away exactly where no name is left.
  by_cases hnone : l'.ownedNames a = 0
  · rw [if_pos hnone] at hcredits
    exact .revoked hcredits hnone
  · rw [if_neg hnone] at hcredits
    exact .kept hcredits fun h => absurd h hnone

end CreditChange

/-- A record changes the number of names of no account but its owner and the one before. -/
theorem ownedNames_putName_of_ne {l : Ledger} {name : String} {r : NameRecord} {a : Address}
    (hbefore : (l.names.find? name).map NameRecord.owner ≠ some a) (hafter : r.owner ≠ a) :
    (l.putName name r).ownedNames a = l.ownedNames a := by
  have hcount := ownedNames_putName l name r a
  rwa [if_neg hbefore, if_neg hafter] at hcount

/-- A name in new hands concerns the seller and the buyer. If they are the same, it has been bought
by its owner. -/
theorem handOver_creditChange {m : Message} (l : Ledger) {name : String} {r : NameRecord}
    (hr : l.names.find? name = some r) (buyer a : Address)
    (hself : r.owner = buyer → m = .buyName name buyer) :
    CreditChange m a l (l.handOver name r.owner buyer) := by
  -- The balance of names is that of the record that changes hands.
  have hput := ownedNames_handOver l name r.owner buyer a
  have hcount := ownedNames_putName l name ⟨buyer, none, []⟩ a
  rw [hr, Option.map_some, ← hput] at hcount
  by_cases hbuyer : a = buyer
  · subst hbuyer
    have hget := handOver_acquired l name hr a
    by_cases hsame : r.owner = a
    · -- The number stays, but the ledger only looks whether it is one, and refills the credits.
      rw [if_pos (congrArg some hsame), if_pos rfl] at hcount
      have hcredits := hget.credits
      by_cases hone : (l.handOver name r.owner a).ownedNames a = 1
      · rw [if_pos hone] at hcredits
        exact .refilled hcredits (by omega) hone (hself hsame) hr hsame
      · rw [if_neg hone] at hcredits
        exact .kept hcredits fun hnone => by omega
    · rw [if_neg fun h => hsame (Option.some.inj h), if_pos rfl] at hcount
      exact .of_acquired hget (by omega)
  · by_cases hseller : r.owner = a
    · subst hseller
      exact .of_released (handOver_released l name hr hbuyer)
    · -- Neither of the two: nothing happens.
      rw [if_neg fun h => hseller (Option.some.inj h), if_neg fun h => hbuyer h.symm] at hcount
      refine .kept ?_ fun hnone => by omega
      rw [handOver, creditsOf_grantCredits, if_neg fun h => hbuyer h.1, creditsOf_revokeCredits,
        if_neg fun h => hseller h.1.symm]
      rfl

/-- Every well-formed message that succeeds changes the credits of every account in one of these
ways. -/
theorem apply_creditChange {m : Message} (hm : m.check = .ok ()) {l l' : Ledger}
    (h : (apply m).run l = (.ok (), l')) (a : Address) : CreditChange m a l l' := by
  -- For every message: what it leaves behind, and whether this account is the one it concerns.
  cases m with
  | registerName name owner =>
    have hrun := Attempt.run_change_eq_ok.1 h
    by_cases hactor : a = owner
    · subst hactor
      exact .of_acquired (registerName_acquired hrun) (registerName_owned hrun)
    · obtain ⟨hfree, paid, hpay, rfl⟩ := registerName_eq_ok hrun
      obtain ⟨b, -, rfl⟩ := pay_eq_ok_iff.1 hpay
      -- The new record belongs to another account, and the name was free.
      have hnames : (({ l with balances := b } : Ledger).putName name ⟨owner, none, []⟩).ownedNames
          a = l.ownedNames a :=
        ownedNames_putName_of_ne (by simp [hfree]) fun h => hactor h.symm
      refine .kept ?_ fun hnone => ?_
      · rw [creditsOf_grantCredits, if_neg fun h => hactor h.1]
        rfl
      · rwa [ownedNames_grantCredits, hnames] at hnone
  | renewName name owner =>
    obtain ⟨b, -, rfl⟩ := pay_eq_ok_iff.1 (renewName_eq_ok (Attempt.run_change_eq_ok.1 h)).2
    exact .kept rfl id
  | buyName name buyer =>
    obtain ⟨r, price, paid, hr, -, hpay, rfl⟩ := buyName_eq_ok (Attempt.run_change_eq_ok.1 h)
    obtain ⟨b, -, rfl⟩ := pay_eq_ok_iff.1 hpay
    exact .of_paid (handOver_creditChange { l with balances := b } hr buyer a fun _ => rfl)
  | transferName name owner recipient =>
    obtain ⟨⟨r, hr⟩, rfl⟩ := transferName_eq_ok (Attempt.run_change_eq_ok.1 h)
    obtain ⟨hfind, rfl⟩ := recordOwnedBy_eq_ok_iff.1 hr
    -- A transfer to oneself is not well formed.
    exact handOver_creditChange l hfind recipient a fun h => absurd h (Message.ne_of_check hm)
  | deleteName name owner =>
    have hrun := Attempt.run_change_eq_ok.1 h
    by_cases hactor : a = owner
    · subst hactor
      exact .of_released (deleteName_released hrun)
    · obtain ⟨⟨r, hr⟩, rfl⟩ := deleteName_eq_ok hrun
      obtain ⟨hfind, rfl⟩ := recordOwnedBy_eq_ok_iff.1 hr
      have hcount := ownedNames_erase l name a
      rw [hfind, Option.map_some, if_neg fun h => hactor (Option.some.inj h).symm] at hcount
      refine .kept ?_ fun hnone => ?_
      · rw [creditsOf_revokeCredits, if_neg fun h => hactor h.1]
        rfl
      · rw [ownedNames_revokeCredits] at hnone
        omega
  | registerAddress name owner address =>
    have hrun := Attempt.run_change_eq_ok.1 h
    have hcredits := registerAddress_creditsOf hrun a
    have hnames := registerAddress_ownedNames hrun a
    by_cases hactor : a = owner
    · subst hactor
      rw [if_pos rfl] at hcredits
      have howned := registerAddress_owned hrun
      exact .spent hcredits (by omega)
    · rw [if_neg hactor] at hcredits
      exact .kept hcredits fun hnone => by omega
  | send sender recipient amount =>
    obtain ⟨b, -, rfl⟩ := pay_eq_ok_iff.1 (Attempt.run_change_eq_ok.1 h)
    exact .kept rfl id
  | multiSend inputs outputs =>
    obtain ⟨taken, htaken, rfl⟩ := multiSend_eq_ok h
    obtain ⟨b, rfl⟩ := debitAll_eq_ok htaken
    exact .kept rfl id
  | createSellOrder seller amount =>
    obtain ⟨b, -, rfl⟩ := pay_eq_ok_iff.1 (Attempt.run_change_eq_ok.1 h)
    exact .kept rfl id
  | other typeUrl =>
    cases h
    exact .kept rfl id

/-! ## Accounts without names -/

/-- An account without names has no credits. -/
def CreditsFollowNames (l : Ledger) : Prop := ∀ a, l.ownedNames a = 0 → l.creditsOf a = 0

/-- A message that succeeds leaves every account without names without credits. -/
theorem CreditsFollowNames.apply {m : Message} (hm : m.check = .ok ()) {l l' : Ledger}
    (h : (Ledger.apply m).run l = (.ok (), l')) (hl : l.CreditsFollowNames) :
    l'.CreditsFollowNames := by
  intro a hnone
  -- In front of the message there was no name either, or its last one has just gone.
  cases apply_creditChange hm h a with
  | kept hcredits hnames => rw [hcredits, hl a (hnames hnone)]
  | spent _ hafter => omega
  | granted _ _ hafter => omega
  | refilled _ _ hafter => omega
  | revoked hcredits _ => exact hcredits

end Ledger

namespace Chain

/-- Neither surcharges nor newly minted coins touch names and credits, so that messages decide. -/
theorem creditsFollowNames_keeps : LedgerKeeps Ledger.CreditsFollowNames where
  transfer h hl := by
    obtain ⟨b, -, rfl⟩ := Ledger.transfer_eq_ok_iff.1 h
    exact hl
  message hm h hl := hl.apply hm h
  mint _ _ hl := hl

/-- The prices of the name service are those of the genesis for ever. -/
theorem pricing_keeps (pricing : Pricing) : LedgerKeeps fun l => l.pricing = pricing where
  transfer h hl := by
    obtain ⟨b, -, rfl⟩ := Ledger.transfer_eq_ok_iff.1 h
    exact hl
  message _ h hl := (Ledger.apply_pricing h).trans hl
  mint _ _ hl := hl

/-! ## The first ledger -/

/-- The names of the genesis are registered at its prices. -/
theorem Genesis.ledger_pricing (g : Genesis) : g.ledger.pricing = g.nameService.pricing :=
  ledger_keeps (P := fun l => l.pricing = g.nameService.pricing)
    (fun l n hl => (addName_pricing l n).trans hl) g rfl

/-- A name that is new leaves every account with the names that it has. -/
theorem Genesis.addName_follows {l : Ledger} {n : GenesisName}
    (hfree : l.names.find? n.name = none) (hl : l.CreditsFollowNames) :
    (addName l n).CreditsFollowNames := by
  intro a hnone
  have hcount := Ledger.ownedNames_putName l n.name ⟨n.owner, n.price, []⟩ a
  have hput : (addName l n).ownedNames a =
      (l.putName n.name ⟨n.owner, n.price, []⟩).ownedNames a :=
    Ledger.ownedNames_congr (addName_names l n) a
  rw [hfree, ← hput, hnone] at hcount
  by_cases howner : n.owner = a
  · -- The owner of the new name is not without names.
    rw [if_pos howner] at hcount
    simp at hcount
  · rw [if_neg howner] at hcount
    have hbefore : l.ownedNames a = 0 := by simpa using hcount.symm
    have hcredits : (addName l n).creditsOf a = l.creditsOf a := by
      simp only [addName]
      split
      · rfl
      · rw [Ledger.creditsOf_insert, if_neg fun h => howner h.symm]
        rfl
    rw [hcredits, hl a hbefore]

/-- Names that differ from each other and from those that are there are new one after the other. -/
private theorem foldl_addName_follows {names : List GenesisName} {l : Ledger}
    (hnodup : (names.map GenesisName.name).Nodup)
    (hfree : ∀ n ∈ names, l.names.find? n.name = none) (hl : l.CreditsFollowNames) :
    (names.foldl Genesis.addName l).CreditsFollowNames := by
  -- By induction on the names, with what is registered growing.
  induction names generalizing l with
  | nil => exact hl
  | cons n rest ih =>
    rw [List.map_cons, List.nodup_cons] at hnodup
    obtain ⟨hn, hrest⟩ := List.forall_mem_cons.1 hfree
    refine ih hnodup.2 (fun other hother => ?_) (Genesis.addName_follows hn hl)
    -- The names that are left are not the one that has been registered.
    have hne : other.name ≠ n.name := fun h => hnodup.1 (h ▸ List.mem_map_of_mem hother)
    rw [Genesis.addName_names, OrderedMap.find?_insert_of_ne _ _ hne, hrest other hother]

/-- The first ledger gives no credits to an account without names. -/
theorem Genesis.ledger_follows {g : Genesis} (h : g.check = .ok ()) :
    g.ledger.CreditsFollowNames := by
  obtain ⟨-, -, hnodup, -⟩ := Genesis.check_eq_ok h
  exact foldl_addName_follows hnodup (fun _ _ => rfl) fun _ _ => rfl

/-! ## Chains that can come about -/

/-- On every ledger that can come about, credits follow the ownership of names: an account that owns
no name has no credits, and no account has more credits than a first name brings along. -/
theorem Genesis.Starts.credits_follow_names {g : Genesis} {start : Chain} (hstart : g.Starts start)
    (steps : List Step) (a : Address) :
    ((start.after steps).ledger.ownedNames a = 0 → (start.after steps).ledger.creditsOf a = 0) ∧
      (start.after steps).ledger.creditsOf a ≤ g.nameService.creditGrant.toInt := by
  constructor
  · -- No step breaks the rule, and the genesis starts with it.
    refine after_keeps creditsFollowNames_keeps start steps ?_ a
    rw [hstart.ledger]
    exact Genesis.ledger_follows hstart.checked
  · -- The bound is stated for the prices of the ledger, which are those of the genesis.
    have hpricing : (start.after steps).ledger.pricing = g.nameService.pricing := by
      refine after_keeps (pricing_keeps _) start steps ?_
      rw [hstart.ledger, Genesis.ledger_pricing]
    have hbounded := (hstart.creditsBounded steps).bounded a
    rwa [hpricing] at hbounded

/-! ## A name that is for sale from the start -/

namespace Sample

/-- The sample genesis with one credit for a first name, and a name that its owner sells for
nothing. -/
def listedGenesis : Genesis := { genesis with
  nameService := { NameService.free with
    creditGrant := 1, names := [⟨"a", account 1, some CoinSet.empty⟩] } }

/-- The chain that the sample genesis starts on a sound store. -/
def listedChain : Chain :=
  ⟨(listedGenesis.economy.init.run (Store.empty .sound)).2, listedGenesis.ledger⟩

/-- The sample chain is started by its genesis. -/
theorem listedChain_starts : listedGenesis.Starts listedChain where
  checked := Except.eq_ok_of_isOk (by decide +kernel)
  store := ⟨.empty .sound, Prod.ext (Except.eq_ok_of_isOk (by decide +kernel)) rfl⟩
  ledger := rfl

/-- The owner registers one address more than there are credits. -/
def overspent : Step := .block 1 ⟨0⟩
  [⟨[.registerAddress "a" (account 1) (account 2), .registerAddress "a" (account 1) (account 3)],
    account 1, ""⟩]

/-- The owner gives the only name up. -/
def givenUp : Step := .block 2 ⟨1⟩ [⟨[.deleteName "a" (account 1)], account 1, ""⟩]

/-- The chain after the credit has been spent. -/
def spentChain : Chain := listedChain.after
  [.block 1 ⟨0⟩ [⟨[.registerAddress "a" (account 1) (account 2)], account 1, ""⟩]]

end Sample

/-- An account that has overspent its credits is without credits again once it is without names. -/
theorem Genesis.Starts.credits_follow_names_sample :
    Sample.listedGenesis.Starts Sample.listedChain ∧
      (Sample.listedChain.after [Sample.overspent]).ledger.creditsOf (Sample.account 1) = -1 ∧
      (Sample.listedChain.after [Sample.overspent, Sample.givenUp]).ledger.creditsOf
        (Sample.account 1) = 0 ∧
      ∀ a,
        (Sample.listedChain.after [Sample.overspent, Sample.givenUp]).ledger.creditsOf a ≤ 1 := by
  -- The run is evaluated. That the credits are gone with the name is what the theorem says of it.
  have hgrant : Sample.listedGenesis.nameService.creditGrant.toInt = 1 := by decide
  obtain ⟨hspent, hnone⟩ :
      (Sample.listedChain.after [Sample.overspent]).ledger.creditsOf (Sample.account 1) = -1 ∧
        (Sample.listedChain.after [Sample.overspent, Sample.givenUp]).ledger.ownedNames
          (Sample.account 1) = 0 := by decide +kernel
  have hfollow := Sample.listedChain_starts.credits_follow_names
    [Sample.overspent, Sample.givenUp]
  rw [hgrant] at hfollow
  exact ⟨Sample.listedChain_starts, hspent, (hfollow _).1 hnone, fun a => (hfollow a).2⟩

end Chain

namespace Ledger

/-! ## When credits grow -/

/-- Credits grow to those of a first name only, and only on two occasions: the account has got its
first name, or it has bought the only name that it owns from itself. -/
theorem apply_credits_grow {m : Message} (hm : m.check = .ok ()) {l l' : Ledger}
    (h : (apply m).run l = (.ok (), l')) {a : Address}
    (hgrow : max (l.creditsOf a) 0 < l'.creditsOf a) :
    l'.creditsOf a = l.pricing.creditGrant ∧ l'.ownedNames a = 1 ∧
      (l.ownedNames a = 0 ∨
        l.ownedNames a = 1 ∧ ∃ name r, m = .buyName name a ∧ l.names.find? name = some r ∧
          r.owner = a) := by
  cases apply_creditChange hm h a with
  | kept hcredits _ => omega
  | spent hcredits _ =>
    -- Credits that are spent fall, or stay where they cannot fall any further.
    have hle := Fee.spendCredit_le (Int.le_max_left (l.creditsOf a) 0) (Int.le_max_right _ _)
    omega
  | granted hcredits hbefore hafter => exact ⟨hcredits, hafter, .inl hbefore⟩
  | refilled hcredits hbefore hafter hmessage hrecord howner =>
    exact ⟨hcredits, hafter, .inr ⟨hbefore, _, _, hmessage, hrecord, howner⟩⟩
  | revoked hcredits _ => omega

section Samples

open Chain.Sample

/-- A first name brings its credit along. -/
theorem apply_credits_grow_sample :
    (Message.registerName "b" (account 2)).check = .ok () ∧
      ∃ l', (apply (.registerName "b" (account 2))).run spentChain.ledger = (.ok (), l') ∧
        max (spentChain.ledger.creditsOf (account 2)) 0 < l'.creditsOf (account 2) ∧
        l'.creditsOf (account 2) = 1 := by
  have hm : (Message.registerName "b" (account 2)).check = .ok () :=
    Except.eq_ok_of_isOk (by decide +kernel)
  obtain ⟨hok, hgrow, hgrant⟩ :
      ((apply (.registerName "b" (account 2))).run spentChain.ledger).1.isOk = true ∧
        max (spentChain.ledger.creditsOf (account 2)) 0 <
          ((apply (.registerName "b" (account 2))).run spentChain.ledger).2.creditsOf (account 2) ∧
        spentChain.ledger.pricing.creditGrant = 1 := by decide +kernel
  have hrun := Attempt.run_eq_ok_of_isOk hok
  obtain ⟨hcredits, -⟩ := apply_credits_grow hm hrun hgrow
  exact ⟨hm, _, hrun, hgrow, hcredits.trans hgrant⟩

/-- An owner who has spent the credit of the only name, and buys the name from itself, has the
credit again. -/
theorem own_purchase_refills :
    listedGenesis.Starts listedChain ∧ (Message.buyName "a" (account 1)).check = .ok () ∧
      ∃ l', (apply (.buyName "a" (account 1))).run spentChain.ledger = (.ok (), l') ∧
        max (spentChain.ledger.creditsOf (account 1)) 0 < l'.creditsOf (account 1) ∧
        spentChain.ledger.ownedNames (account 1) = 1 := by
  obtain ⟨hok, hgrow, howned⟩ :
      ((apply (.buyName "a" (account 1))).run spentChain.ledger).1.isOk = true ∧
        max (spentChain.ledger.creditsOf (account 1)) 0 <
          ((apply (.buyName "a" (account 1))).run spentChain.ledger).2.creditsOf (account 1) ∧
        spentChain.ledger.ownedNames (account 1) = 1 := by decide +kernel
  exact ⟨listedChain_starts, Except.eq_ok_of_isOk (by decide +kernel), _,
    Attempt.run_eq_ok_of_isOk hok, hgrow, howned⟩

end Samples

end Ledger

end ChainEconomy
