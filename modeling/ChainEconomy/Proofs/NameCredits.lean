import ChainEconomy.Proofs.LedgerEffects

/-!
# Names and credits of an account

How the messages about names change the number of names that an account owns and its credits.
Putting or dropping one record changes the number by one at most, and the credits react to the new
number only: they are refilled when it is one after an acquisition, and taken when it is zero after
a release.

## Key results

- `Acquired`, `Released`: what an acquisition and a release do to the account that acts
- `registerName_acquired`, `buyName_acquired`, `transferName_released`, `deleteName_released`
- `registerName_owned`, `buyName_owned`: a new name is one more
- `registerAddress_owned`, `registerAddress_credits`: an address is registered by an owner of a name
- `creditsBounded_stepsKeep`: no account ever has more credits than a first name brings along
-/

namespace ChainEconomy

namespace Fee

/-- The lowest number of credits is below zero. -/
theorem lowestCredits_neg : lowestCredits < 0 := by decide

/-- Spending never lifts credits over a bound that is not negative. -/
theorem spendCredit_le {credits bound : Int} (h : credits ≤ bound) (hbound : 0 ≤ bound) :
    spendCredit credits ≤ bound := by
  have := lowestCredits_neg
  unfold spendCredit
  split <;> omega

/-- Whoever has more credits before spending one has no fewer behind it. -/
theorem spendCredit_mono {a b : Int} (h : a ≤ b) : spendCredit a ≤ spendCredit b := by
  unfold spendCredit
  split <;> split <;> omega

end Fee

namespace Ledger

/-! ## The number of names -/

/-- One for a record of the account, none for any other record. -/
private def ownedBy (owner : Address) (r : NameRecord) : Nat := if r.owner = owner then 1 else 0

/-- Names are counted record by record. -/
private theorem ownedNames_eq_sumBy (l : Ledger) (owner : Address) :
    l.ownedNames owner = l.names.sumBy (ownedBy owner) := by
  unfold ownedNames OrderedMap.sumBy OrderedMap.values
  -- By induction on the records.
  induction l.names.entries with
  | nil => rfl
  | cons e rest ih =>
    by_cases h : e.2.owner = owner
    · simp [ownedBy, h, ih]; omega
    · simp [ownedBy, h, ih]

/-- The names of an account depend on the records only. -/
theorem ownedNames_congr {l l' : Ledger} (h : l'.names = l.names) (owner : Address) :
    l'.ownedNames owner = l.ownedNames owner := by
  rw [ownedNames, h, ownedNames]

/-- Where there is no record, nobody owns one. -/
private theorem ownedBy_getD (owner : Address) (old : Option NameRecord) :
    (old.map (ownedBy owner)).getD 0 = if old.map NameRecord.owner = some owner then 1 else 0 := by
  cases old with
  | none => rfl
  | some r => simp [ownedBy]

/-- A record put under a name counts for its owner, and no longer for the one before. -/
theorem ownedNames_putName (l : Ledger) (name : String) (r : NameRecord) (owner : Address) :
    (l.putName name r).ownedNames owner +
        (if (l.names.find? name).map NameRecord.owner = some owner then 1 else 0) =
      l.ownedNames owner + if r.owner = owner then 1 else 0 := by
  rw [ownedNames_eq_sumBy, ownedNames_eq_sumBy, putName_names, ← ownedBy_getD]
  exact OrderedMap.sumBy_insert (ownedBy owner) l.names name r

/-- A record that is dropped counts no longer for its owner. -/
theorem ownedNames_erase (l : Ledger) (name : String) (owner : Address) :
    ({ l with names := l.names.erase name } : Ledger).ownedNames owner +
        (if (l.names.find? name).map NameRecord.owner = some owner then 1 else 0) =
      l.ownedNames owner := by
  rw [ownedNames_eq_sumBy, ownedNames_eq_sumBy, ← ownedBy_getD]
  exact OrderedMap.sumBy_erase (ownedBy owner) l.names name

/-- Whoever owns a name owns at least one. -/
theorem ownedNames_pos {l : Ledger} {name : String} {owner : Address} {r : NameRecord}
    (h : l.recordOwnedBy name owner = .ok r) : 0 < l.ownedNames owner := by
  obtain ⟨hr, howner⟩ := recordOwnedBy_eq_ok_iff.1 h
  -- Without the record, the account would own one name fewer.
  have herase := ownedNames_erase l name owner
  rw [hr, Option.map_some, howner, if_pos rfl] at herase
  omega

/-- Granting credits changes no names. -/
@[simp] theorem ownedNames_grantCredits (l : Ledger) (owner x : Address) :
    (l.grantCredits owner).ownedNames x = l.ownedNames x :=
  ownedNames_congr (grantCredits_names l owner) x

/-- Taking credits away changes no names. -/
@[simp] theorem ownedNames_revokeCredits (l : Ledger) (owner x : Address) :
    (l.revokeCredits owner).ownedNames x = l.ownedNames x :=
  ownedNames_congr (revokeCredits_names l owner) x

/-- Handing a name over changes as many names as its new record does. -/
theorem ownedNames_handOver (l : Ledger) (name : String) (seller buyer x : Address) :
    (l.handOver name seller buyer).ownedNames x =
      (l.putName name ⟨buyer, none, []⟩).ownedNames x := by
  simp [handOver]

/-! ## Credits -/

/-- Credits that are set are those of their account. -/
theorem creditsOf_insert (l : Ledger) (owner x : Address) (credits : Int) :
    ({ l with credits := l.credits.insert owner credits } : Ledger).creditsOf x =
      if x = owner then credits else l.creditsOf x := by
  unfold creditsOf
  rw [OrderedMap.find?_insert]
  split <;> rfl

/-- Credits are granted to an owner of exactly one name. -/
theorem creditsOf_grantCredits (l : Ledger) (owner x : Address) :
    (l.grantCredits owner).creditsOf x =
      if x = owner ∧ l.ownedNames owner = 1 then l.pricing.creditGrant else l.creditsOf x := by
  unfold grantCredits
  split
  · next h => simp only [creditsOf_insert, h, and_true]
  · next h => simp only [h, and_false, if_false]

/-- Credits are taken from an account without names. -/
theorem creditsOf_revokeCredits (l : Ledger) (owner x : Address) :
    (l.revokeCredits owner).creditsOf x =
      if x = owner ∧ l.ownedNames owner = 0 then 0 else l.creditsOf x := by
  unfold revokeCredits
  split
  · next h => simp only [creditsOf_insert, h, and_true]
  · next h => simp only [h, and_false, if_false]

/-! ## Acquisitions and releases -/

/-- An account has got a name: it owns some now, and has the credits of a first name if it owns just
the one. -/
structure Acquired (owner : Address) (l l' : Ledger) : Prop where
  owned : 0 < l'.ownedNames owner
  /-- An account with more than one name had one before. -/
  before : l'.ownedNames owner ≠ 1 → 0 < l.ownedNames owner
  credits : l'.creditsOf owner =
    if l'.ownedNames owner = 1 then l.pricing.creditGrant else l.creditsOf owner

/-- An account has given a name away, and its credits with the last one. -/
structure Released (owner : Address) (l l' : Ledger) : Prop where
  owned : l'.ownedNames owner + 1 = l.ownedNames owner
  credits : l'.creditsOf owner = if l'.ownedNames owner = 0 then 0 else l.creditsOf owner

/-- A name that is registered is one more. -/
theorem registerName_owned {name : String} {owner : Address} {l l' : Ledger}
    (h : registerName name owner l = .ok l') : l'.ownedNames owner = l.ownedNames owner + 1 := by
  obtain ⟨hfree, paid, hpay, rfl⟩ := registerName_eq_ok h
  obtain ⟨b, -, rfl⟩ := pay_eq_ok_iff.1 hpay
  -- The name was free, so that the record takes nothing from anybody.
  have hcount := ownedNames_putName { l with balances := b } name ⟨owner, none, []⟩ owner
  rw [hfree, if_pos rfl] at hcount
  have hsame : ({ l with balances := b } : Ledger).ownedNames owner = l.ownedNames owner := rfl
  simp only [Option.map_none, reduceCtorEq, if_false, hsame] at hcount
  rw [ownedNames_grantCredits]
  exact hcount

/-- The owner of a new name acquires it. -/
theorem registerName_acquired {name : String} {owner : Address} {l l' : Ledger}
    (h : registerName name owner l = .ok l') : Acquired owner l l' := by
  have howned := registerName_owned h
  obtain ⟨-, paid, hpay, rfl⟩ := registerName_eq_ok h
  obtain ⟨b, -, rfl⟩ := pay_eq_ok_iff.1 hpay
  refine ⟨by omega, by omega, ?_⟩
  rw [creditsOf_grantCredits, ownedNames_grantCredits]
  simp only [true_and]
  rfl

/-- The buyer of a name from another account owns one name more. -/
theorem buyName_owned {name : String} {buyer : Address} {l l' : Ledger} {r : NameRecord}
    (hr : l.names.find? name = some r) (hother : r.owner ≠ buyer)
    (h : buyName name buyer l = .ok l') : l'.ownedNames buyer = l.ownedNames buyer + 1 := by
  obtain ⟨r', price, paid, hr', -, hpay, rfl⟩ := buyName_eq_ok h
  obtain ⟨b, -, rfl⟩ := pay_eq_ok_iff.1 hpay
  cases hr.symm.trans hr'
  have hcount := ownedNames_putName { l with balances := b } name ⟨buyer, none, []⟩ buyer
  rw [hr, Option.map_some, if_pos rfl, if_neg fun heq => hother (Option.some.inj heq)] at hcount
  rw [ownedNames_handOver]
  exact hcount

/-- The buyer of a name from another account, or from itself. -/
theorem handOver_acquired (l : Ledger) (name : String) {r : NameRecord}
    (hr : l.names.find? name = some r) (buyer : Address) :
    Acquired buyer l (l.handOver name r.owner buyer) := by
  -- The number of names behind the acquisition is that of the new record, put in the place of the
  -- old.
  have hcount := ownedNames_putName l name ⟨buyer, none, []⟩ buyer
  rw [hr, Option.map_some, if_pos rfl] at hcount
  have hput := ownedNames_handOver l name r.owner buyer buyer
  have hpos : 0 < (l.putName name ⟨buyer, none, []⟩).ownedNames buyer := by
    -- A buyer who owned the name already keeps the number, any other one gets one more.
    by_cases hsame : r.owner = buyer
    · rw [if_pos (congrArg some hsame)] at hcount
      have herase := ownedNames_erase l name buyer
      rw [hr, Option.map_some, if_pos (congrArg some hsame)] at herase
      omega
    · rw [if_neg fun h => hsame (Option.some.inj h)] at hcount
      omega
  refine ⟨?_, ?_, ?_⟩
  · rw [hput]; exact hpos
  · rw [hput]
    split at hcount <;> omega
  · rw [hput, handOver, creditsOf_grantCredits, ownedNames_revokeCredits, revokeCredits_pricing]
    simp only [true_and, putName_pricing]
    split
    · rfl
    · -- The seller who is left without a name is not the buyer, who owns one.
      rw [creditsOf_revokeCredits, if_neg]
      · rfl
      · rintro ⟨rfl, hnone⟩
        omega

/-- The buyer of a name acquires it, even from itself. -/
theorem buyName_acquired {name : String} {buyer : Address} {l l' : Ledger}
    (h : buyName name buyer l = .ok l') : Acquired buyer l l' := by
  obtain ⟨r, price, paid, hr, -, hpay, rfl⟩ := buyName_eq_ok h
  obtain ⟨b, -, rfl⟩ := pay_eq_ok_iff.1 hpay
  have hget := handOver_acquired { l with balances := b } name hr buyer
  exact ⟨hget.owned, hget.before, hget.credits⟩

/-- The seller of a name to another account. -/
theorem handOver_released (l : Ledger) (name : String) {r : NameRecord}
    (hr : l.names.find? name = some r) {buyer : Address} (hne : r.owner ≠ buyer) :
    Released r.owner l (l.handOver name r.owner buyer) := by
  -- The old record counts for the seller, and the new one does not.
  have hcount := ownedNames_putName l name ⟨buyer, none, []⟩ r.owner
  rw [hr, Option.map_some, if_pos rfl, if_neg fun h => hne h.symm] at hcount
  have hput := ownedNames_handOver l name r.owner buyer r.owner
  refine ⟨by rw [hput]; omega, ?_⟩
  rw [hput, handOver, creditsOf_grantCredits, if_neg fun h => hne h.1, creditsOf_revokeCredits]
  simp only [true_and]
  rfl

/-- An owner who gives a name to another account releases it. -/
theorem transferName_released {name : String} {owner recipient : Address}
    (hne : owner ≠ recipient) {l l' : Ledger} (h : transferName name owner recipient l = .ok l') :
    Released owner l l' := by
  obtain ⟨⟨r, hr⟩, rfl⟩ := transferName_eq_ok h
  obtain ⟨hfind, rfl⟩ := recordOwnedBy_eq_ok_iff.1 hr
  exact handOver_released l name hfind hne

/-- An owner who gives a name up releases it. -/
theorem deleteName_released {name : String} {owner : Address} {l l' : Ledger}
    (h : deleteName name owner l = .ok l') : Released owner l l' := by
  obtain ⟨⟨r, hr⟩, rfl⟩ := deleteName_eq_ok h
  obtain ⟨hfind, howner⟩ := recordOwnedBy_eq_ok_iff.1 hr
  -- The dropped record was the owner's.
  have hcount := ownedNames_erase l name owner
  rw [hfind, Option.map_some, howner, if_pos rfl] at hcount
  refine ⟨by rw [ownedNames_revokeCredits]; exact hcount, ?_⟩
  rw [creditsOf_revokeCredits, ownedNames_revokeCredits]
  simp only [true_and]
  rfl

/-! ## Addresses -/

/-- Whether or not a fee is paid, balances change at most. -/
private theorem exists_balances_of_paid {l paid : Ledger} {owner : Address}
    (h : (if l.creditsOf owner ≤ 0 then l.pay owner nameService l.pricing.addressFee else .ok l) =
      .ok paid) : ∃ b, ({ l with balances := b } : Ledger) = paid := by
  split at h
  · obtain ⟨b, -, hb⟩ := pay_eq_ok_iff.1 h
    exact ⟨b, hb⟩
  · cases h
    exact ⟨l.balances, rfl⟩

/-- A name with one address more belongs to whom it has belonged. -/
theorem registerAddress_ownedNames {name : String} {owner address : Address} {l l' : Ledger}
    (h : registerAddress name owner address l = .ok l') (x : Address) :
    l'.ownedNames x = l.ownedNames x := by
  obtain ⟨r, paid, hr, hpaid, rfl⟩ := registerAddress_eq_ok h
  obtain ⟨b, rfl⟩ := exists_balances_of_paid hpaid
  obtain ⟨hfind, -⟩ := recordOwnedBy_eq_ok_iff.1 hr
  have hcount := ownedNames_putName l name { r with addresses := r.addresses ++ [address] } x
  rw [hfind, Option.map_some] at hcount
  simp only [Option.some.injEq] at hcount
  exact Nat.add_right_cancel hcount

/-- An address is registered by an owner of a name, and leaves the number of names as it is. -/
theorem registerAddress_owned {name : String} {owner address : Address} {l l' : Ledger}
    (h : registerAddress name owner address l = .ok l') :
    0 < l.ownedNames owner ∧ l'.ownedNames owner = l.ownedNames owner := by
  obtain ⟨r, -, hr, -, -⟩ := registerAddress_eq_ok h
  exact ⟨ownedNames_pos hr, registerAddress_ownedNames h owner⟩

/-- An address takes a credit from its owner, and from nobody else. -/
theorem registerAddress_creditsOf {name : String} {owner address : Address} {l l' : Ledger}
    (h : registerAddress name owner address l = .ok l') (x : Address) :
    l'.creditsOf x = if x = owner then Fee.spendCredit (l.creditsOf owner) else l.creditsOf x := by
  obtain ⟨r, paid, -, hpaid, rfl⟩ := registerAddress_eq_ok h
  obtain ⟨b, rfl⟩ := exists_balances_of_paid hpaid
  exact creditsOf_insert { l with balances := b } owner x _

/-- An address takes a credit from its owner. -/
theorem registerAddress_credits {name : String} {owner address : Address} {l l' : Ledger}
    (h : registerAddress name owner address l = .ok l') :
    l'.creditsOf owner = Fee.spendCredit (l.creditsOf owner) :=
  (registerAddress_creditsOf h owner).trans (if_pos rfl)

/-! ## The bound of all credits -/

/-- No account has more credits than a first name brings along. -/
structure CreditsBounded (l : Ledger) : Prop where
  grant_nonneg : 0 ≤ l.pricing.creditGrant
  bounded : ∀ owner, l.creditsOf owner ≤ l.pricing.creditGrant

/-- All steps of handlers respect the bound: what grants credits grants just those of a first name.
-/
theorem creditsBounded_stepsKeep : StepsKeep CreditsBounded where
  balances _ _ h := ⟨h.grant_nonneg, h.bounded⟩
  newRecord _ _ _ h := ⟨h.grant_nonneg, h.bounded⟩
  newAddress _ _ _ _ _ h := ⟨h.grant_nonneg, h.bounded⟩
  eraseName _ _ h := ⟨h.grant_nonneg, h.bounded⟩
  grant l owner h := by
    refine ⟨by rw [grantCredits_pricing]; exact h.grant_nonneg, fun x => ?_⟩
    rw [creditsOf_grantCredits, grantCredits_pricing]
    split
    · -- What is granted is just the bound.
      exact Int.le_refl _
    · exact h.bounded x
  revoke l owner h := by
    refine ⟨by rw [revokeCredits_pricing]; exact h.grant_nonneg, fun x => ?_⟩
    rw [creditsOf_revokeCredits, revokeCredits_pricing]
    split
    · exact h.grant_nonneg
    · exact h.bounded x
  spend l owner h := by
    refine ⟨h.grant_nonneg, fun x => ?_⟩
    rw [creditsOf_insert]
    split
    · -- Spending goes down, or stays at the lowest number there is.
      exact Fee.spendCredit_le (h.bounded owner) h.grant_nonneg
    · exact h.bounded x

end Ledger

end ChainEconomy
