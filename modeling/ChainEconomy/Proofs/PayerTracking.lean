import ChainEconomy.Fee.Assessment
import ChainEconomy.Proofs.NameCredits

/-!
# How pricing keeps track of the payer

Pricing walks through a transaction with two counters of its own, while the ledger counts names and
credits for real. `Payer.Follows` is what the two have in common: whenever the payer owns a name,
the ledger asks for the fee of an address only if pricing does. The counters of pricing may be too
low, but the credits must not be too high.

One step can break this: pricing takes an account for nameless after it has given a name away,
although it owns another one, and then hands out the credits of a first name once more, which the
ledger does not. `refillMatches` excludes this step; all others keep the relation.

## Key results

- `Payer.Follows`: the relation between the counters of pricing and those of the ledger
- `Tracks`: pricing by an old ledger is right about the payer in the current one
- `Tracks.apply`: every message that succeeds keeps pricing on track
-/

namespace ChainEconomy

/-! ## Counters -/

namespace Fee.Payer

/-- What pricing believes about a payer who owns some names and has some credits. -/
structure Follows (grant : Int) (p : Payer) (owned : Nat) (credits : Int) : Prop where
  bounded : p.credits ≤ grant
  /-- A payer with names that pricing takes for nameless has no credits in its eyes. -/
  nameless : p.ownedNames = 0 → 0 < owned → p.credits ≤ 0
  named : 0 < p.ownedNames → 0 < owned → p.credits ≤ credits

variable {grant credits credits' : Int} {p : Payer} {owned owned' : Nat}

/-- Before the first message, the counters agree. -/
theorem Follows.refl (hcredits : credits ≤ grant) :
    Follows grant ⟨owned, credits⟩ owned credits where
  bounded := hcredits
  nameless hzero hpos := absurd hzero (Nat.ne_of_gt hpos)
  named _ _ := Int.le_refl _

/-- Where the ledger asks for a fee, pricing does as well. -/
theorem Follows.credits_nonpos (h : p.Follows grant owned credits) (howned : 0 < owned)
    (hcredits : credits ≤ 0) : p.credits ≤ 0 := by
  by_cases hzero : p.ownedNames = 0
  · exact h.nameless hzero howned
  · exact Int.le_trans (h.named (Nat.pos_of_ne_zero hzero) howned) hcredits

/-- An acquisition keeps the relation if a refill that pricing makes is made by the ledger, too. -/
theorem Follows.acquireName (names : NameRegistry) (h : p.Follows names.creditGrant owned credits)
    (hbefore : owned' ≠ 1 → 0 < owned)
    (hcredits : credits' = if owned' = 1 then names.creditGrant else credits)
    (hrefill : p.ownedNames = 0 → credits' = names.creditGrant) :
    (p.acquireName names).Follows names.creditGrant owned' credits' := by
  -- Pricing refills the credits of those whom it takes for nameless, and the ledger those of owners
  -- of one name.
  unfold Payer.acquireName
  split
  · next hzero =>
    refine ⟨Int.le_refl _, fun h => absurd h Nat.one_ne_zero, fun _ _ => ?_⟩
    exact Int.le_of_eq (hrefill hzero).symm
  · next hnamed =>
    refine ⟨h.bounded, fun h => absurd h hnamed, fun hpos _ => ?_⟩
    rw [hcredits]
    split
    · exact h.bounded
    · next hmore => exact h.named hpos (hbefore hmore)

/-- A release keeps the relation, whether or not pricing notices it. -/
theorem Follows.releaseName (h : p.Follows grant owned credits) (hgrant : 0 ≤ grant)
    (howned : owned' + 1 = owned) (hcredits : credits' = if owned' = 0 then 0 else credits) :
    p.releaseName.Follows grant owned' credits' := by
  unfold Payer.releaseName
  split
  · -- The last name is gone in the eyes of pricing, or one of several that it has counted.
    exact ⟨hgrant, fun _ _ => Int.le_refl 0, fun h => absurd h (by decide)⟩
  · refine ⟨h.bounded, fun hzero _ => h.nameless hzero (by omega), fun hpos howned' => ?_⟩
    rw [hcredits, if_neg (by omega)]
    exact h.named hpos (by omega)

/-- An address is registered for a credit in both views. -/
theorem Follows.registerAddress (h : p.Follows grant owned credits) (hgrant : 0 ≤ grant) :
    p.registerAddress.Follows grant owned (spendCredit credits) where
  bounded := spendCredit_le h.bounded hgrant
  nameless hzero howned := spendCredit_le (h.nameless hzero howned) (Int.le_refl 0)
  named hpos howned := spendCredit_mono (h.named hpos howned)

end Fee.Payer

/-! ## Who acts in a message -/

namespace Message

/-- The accounts that a message acts for: whoever gives coins away, or a name, or gets a name. -/
def actors : Message → List Address
  | .registerName _ owner => [owner]
  | .renewName _ owner => [owner]
  | .buyName _ buyer => [buyer]
  | .transferName _ owner _ => [owner]
  | .deleteName _ owner => [owner]
  | .registerAddress _ owner _ => [owner]
  | .send sender _ _ => [sender]
  | .multiSend inputs _ => inputs.map Share.address
  | .createSellOrder seller _ => [seller]
  | .other _ => []

/-- Whether a message brings its actor a name. -/
def acquires : Message → Bool
  | .registerName _ _ => true
  | .buyName _ _ => true
  | _ => false

end Message

namespace Ledger

/-- Whether a refill of credits by pricing, if there is one for the message, leaves the payer with
the credits that it has in the ledger afterwards. -/
def refillMatches (payer : Address) (p : Fee.Payer) (m : Message) (after : Ledger) : Bool :=
  !(m.acquires && p.ownedNames == 0) || after.creditsOf payer == after.pricing.creditGrant

/-- A refill that matches leaves the account with the credits of a first name. -/
theorem creditsOf_of_refillMatches {payer : Address} {p : Fee.Payer} {m : Message} {after : Ledger}
    (h : refillMatches payer p m after = true) (hm : m.acquires = true) (hzero : p.ownedNames = 0) :
    after.creditsOf payer = after.pricing.creditGrant := by
  simpa [refillMatches, hm, hzero] using h

/-- Pricing by an old ledger is right about the payer in the current one: nothing has become more
expensive, and the counters follow. -/
structure Tracks (old : Ledger) (payer : Address) (p : Fee.Payer) (l : Ledger) : Prop where
  pricing : l.pricing = old.pricing
  prices : ∀ name r price, l.names.find? name = some r → r.price = some price →
    old.priceOf name = .ok price
  counters : p.Follows old.pricing.creditGrant (l.ownedNames payer) (l.creditsOf payer)

/-- Pricing is on track in front of the first message, where it has just read the ledger. -/
theorem Tracks.refl {l : Ledger} (h : l.CreditsBounded) (payer : Address) :
    Tracks l payer (.ofRegistry l.registry payer) l where
  pricing := rfl
  prices name r price hr hprice := by
    -- A listed price is what the registry of the same ledger quotes.
    rw [priceOf, hr]
    simp only [hprice]
  counters := .refl (h.bounded payer)

/-- A change of balances keeps pricing on track. -/
theorem Tracks.setBalances {old l : Ledger} {payer : Address} {p : Fee.Payer}
    (h : Tracks old payer p l) (b : Balances) : Tracks old payer p { l with balances := b } :=
  ⟨h.pricing, h.prices, h.counters⟩

/-- A message never sets a price: whatever can be said about the offers in a ledger, the names for
sale with their owners and prices, can be said about them afterwards. -/
theorem offers_stepsKeep (Q : String → Address → CoinSet → Prop) :
    StepsKeep fun l => ∀ name r price, l.names.find? name = some r → r.price = some price →
      Q name r.owner price where
  balances _ _ h := h
  newRecord l name owner h x r price hr hprice := by
    rw [putName_names, OrderedMap.find?_insert] at hr
    split at hr
    · -- A new record has no price.
      cases hr
      cases hprice
    · exact h x r price hr hprice
  newAddress l name r address hfind h x r' price hr hprice := by
    rw [putName_names, OrderedMap.find?_insert] at hr
    split at hr
    · next heq =>
      cases hr
      exact h x r price (heq ▸ hfind) hprice
    · exact h x r' price hr hprice
  eraseName l name h x r price hr hprice := by
    rw [OrderedMap.find?_erase] at hr
    split at hr
    · cases hr
    · exact h x r price hr hprice
  grant l owner h := by rw [grantCredits_names]; exact h
  revoke l owner h := by rw [revokeCredits_names]; exact h
  spend _ _ h := h

/-! ## One message -/

/-- The counters follow through a message whose actors are all the payer. -/
theorem Tracks.counters_apply {old l l' : Ledger} {payer : Address} {p q : Fee.Payer}
    {m : Message} {value : CoinSet} (h : Tracks old payer p l)
    (hgrant : 0 ≤ old.pricing.creditGrant)
    (hactors : ∀ a ∈ m.actors, a = payer) (hcheck : m.check = .ok ())
    (hvalue : Fee.messageValue old.registry p m = .ok (value, q))
    (happly : (apply m).run l = (.ok (), l')) (hrefill : refillMatches payer p m l' = true) :
    q.Follows old.pricing.creditGrant (l'.ownedNames payer) (l'.creditsOf payer) := by
  have hpricing : l'.pricing = old.pricing := (apply_pricing happly).trans h.pricing
  -- A payment alone changes neither names nor credits, and pricing leaves its counters alone.
  have hpaid : ∀ {source target coins}, l.pay source target coins = .ok l' →
      p.Follows old.pricing.creditGrant (l'.ownedNames payer) (l'.creditsOf payer) := fun hpay => by
    obtain ⟨b, -, rfl⟩ := pay_eq_ok_iff.1 hpay
    exact h.counters
  -- A refill of credits is the only thing in which pricing could be ahead of the ledger.
  have hacquired : m.acquires = true → Acquired payer l l' →
      (p.acquireName old.registry).Follows old.pricing.creditGrant (l'.ownedNames payer)
        (l'.creditsOf payer) := fun hacquires hget => by
    refine h.counters.acquireName old.registry hget.before ?_ fun hzero => ?_
    · rw [hget.credits, h.pricing]
      rfl
    · rw [creditsOf_of_refillMatches hrefill hacquires hzero, hpricing]
      rfl
  -- By the kind of the message: what pricing does to the counters, and what the handler does.
  cases m with
  | registerName name owner =>
    obtain rfl : owner = payer := hactors owner List.mem_cons_self
    cases hvalue
    exact hacquired rfl (registerName_acquired (Attempt.run_change_eq_ok.1 happly))
  | buyName name buyer =>
    obtain rfl : buyer = payer := hactors buyer List.mem_cons_self
    simp only [Fee.messageValue] at hvalue
    split at hvalue
    · cases hvalue
    · cases hvalue
      exact hacquired rfl (buyName_acquired (Attempt.run_change_eq_ok.1 happly))
  | renewName name owner =>
    cases hvalue
    exact hpaid (renewName_eq_ok (Attempt.run_change_eq_ok.1 happly)).2
  | transferName name owner recipient =>
    obtain rfl : owner = payer := hactors owner List.mem_cons_self
    cases hvalue
    have hgive := transferName_released (Message.ne_of_check hcheck)
      (Attempt.run_change_eq_ok.1 happly)
    exact h.counters.releaseName hgrant hgive.owned hgive.credits
  | deleteName name owner =>
    obtain rfl : owner = payer := hactors owner List.mem_cons_self
    cases hvalue
    have hgive := deleteName_released (Attempt.run_change_eq_ok.1 happly)
    exact h.counters.releaseName hgrant hgive.owned hgive.credits
  | registerAddress name owner address =>
    obtain rfl : owner = payer := hactors owner List.mem_cons_self
    cases hvalue
    have hchange := Attempt.run_change_eq_ok.1 happly
    rw [(registerAddress_owned hchange).2, registerAddress_credits hchange]
    exact h.counters.registerAddress hgrant
  | send sender recipient amount => cases hvalue; exact hpaid (Attempt.run_change_eq_ok.1 happly)
  | createSellOrder seller amount => cases hvalue; exact hpaid (Attempt.run_change_eq_ok.1 happly)
  | multiSend inputs outputs =>
    cases hvalue
    obtain ⟨taken, htaken, rfl⟩ := multiSend_eq_ok happly
    obtain ⟨b, rfl⟩ := debitAll_eq_ok htaken
    exact h.counters
  | other typeUrl => cases hvalue; cases happly; exact h.counters

/-- Every message of the payer that succeeds keeps pricing on track. -/
theorem Tracks.apply {old l l' : Ledger} {payer : Address} {p q : Fee.Payer} {m : Message}
    {value : CoinSet} (h : Tracks old payer p l) (hgrant : 0 ≤ old.pricing.creditGrant)
    (hactors : ∀ a ∈ m.actors, a = payer) (hcheck : m.check = .ok ())
    (hvalue : Fee.messageValue old.registry p m = .ok (value, q))
    (happly : (Ledger.apply m).run l = (.ok (), l')) (hrefill : refillMatches payer p m l' = true) :
    Tracks old payer q l' where
  pricing := (apply_pricing happly).trans h.pricing
  prices := (apply_keeps
    (offers_stepsKeep fun name _ price => old.priceOf name = .ok price) m).of_run happly h.prices
  counters := h.counters_apply hgrant hactors hcheck hvalue happly hrefill

end Ledger

end ChainEconomy
