import ChainEconomy.Ledger.Apply
import ChainEconomy.Proofs.AttemptRules
import ChainEconomy.Proofs.ShareTotals

/-!
# What messages do to a ledger

Each handler is taken apart once: the `_eq_ok` lemmas say which conditions hold and which ledger
comes out when it succeeds, and everything else about messages is derived from them. The field
lemmas at the start say which parts of a ledger the steps of the handlers leave alone.

## Key results

- `registerName_eq_ok`, `renewName_eq_ok`, `buyName_eq_ok`, `transferName_eq_ok`,
  `deleteName_eq_ok`, `registerAddress_eq_ok`, `multiSend_eq_ok`: successful handlers
- `debitAll_eq_ok_iff`: the inputs of a transfer, taken one after the other
- `apply_keeps`: a property that the steps of the handlers keep is kept by every message
- `apply_supply`, `apply_pricing`: parts that no message ever changes
- `apply_held`: a well-formed message that succeeds moves coins and neither makes nor burns any
-/

namespace ChainEconomy

/-! ## Well-formed messages -/

namespace Message

/-- A well-formed transfer of a name has two parties. -/
theorem ne_of_check {name : String} {owner recipient : Address}
    (h : (transferName name owner recipient).check = .ok ()) : owner ≠ recipient := by
  simp only [check] at h
  split at h
  · cases h
  · split at h
    · cases h
    · next hne => exact hne

/-- A well-formed transfer between many accounts hands out what it takes. -/
theorem total_eq_of_check {inputs outputs : List Share}
    (h : (multiSend inputs outputs).check = .ok ()) : total inputs = total outputs := by
  simp only [check] at h
  split at h
  · cases h
  · split at h
    · next htotal => exact htotal
    · cases h

end Message

namespace Ledger

/-! ## The parts of a ledger that a step leaves alone -/

@[simp] theorem putName_balances (l : Ledger) (name : String) (r : NameRecord) :
    (l.putName name r).balances = l.balances := rfl

@[simp] theorem putName_supply (l : Ledger) (name : String) (r : NameRecord) :
    (l.putName name r).supply = l.supply := rfl

@[simp] theorem putName_names (l : Ledger) (name : String) (r : NameRecord) :
    (l.putName name r).names = l.names.insert name r := rfl

@[simp] theorem putName_credits (l : Ledger) (name : String) (r : NameRecord) :
    (l.putName name r).credits = l.credits := rfl

@[simp] theorem putName_pricing (l : Ledger) (name : String) (r : NameRecord) :
    (l.putName name r).pricing = l.pricing := rfl

@[simp] theorem grantCredits_balances (l : Ledger) (owner : Address) :
    (l.grantCredits owner).balances = l.balances := by
  unfold grantCredits; split <;> rfl

@[simp] theorem grantCredits_supply (l : Ledger) (owner : Address) :
    (l.grantCredits owner).supply = l.supply := by
  unfold grantCredits; split <;> rfl

@[simp] theorem grantCredits_names (l : Ledger) (owner : Address) :
    (l.grantCredits owner).names = l.names := by
  unfold grantCredits; split <;> rfl

@[simp] theorem grantCredits_pricing (l : Ledger) (owner : Address) :
    (l.grantCredits owner).pricing = l.pricing := by
  unfold grantCredits; split <;> rfl

@[simp] theorem revokeCredits_balances (l : Ledger) (owner : Address) :
    (l.revokeCredits owner).balances = l.balances := by
  unfold revokeCredits; split <;> rfl

@[simp] theorem revokeCredits_supply (l : Ledger) (owner : Address) :
    (l.revokeCredits owner).supply = l.supply := by
  unfold revokeCredits; split <;> rfl

@[simp] theorem revokeCredits_names (l : Ledger) (owner : Address) :
    (l.revokeCredits owner).names = l.names := by
  unfold revokeCredits; split <;> rfl

@[simp] theorem revokeCredits_pricing (l : Ledger) (owner : Address) :
    (l.revokeCredits owner).pricing = l.pricing := by
  unfold revokeCredits; split <;> rfl

@[simp] theorem handOver_balances (l : Ledger) (name : String) (seller buyer : Address) :
    (l.handOver name seller buyer).balances = l.balances := by
  simp [handOver]

/-! ## Successful steps -/

/-- Moving coins on a ledger moves them between its balances, and changes nothing else. -/
theorem transfer_eq_ok_iff {l l' : Ledger} {source target : Address} {coins : CoinSet} :
    l.transfer source target coins = .ok l' ↔
      ∃ b, l.balances.transfer source target coins = .ok b ∧ { l with balances := b } = l' :=
  Except.map_eq_ok_iff

/-- Moving no coins changes nothing. -/
theorem transfer_empty (l : Ledger) (source target : Address) :
    l.transfer source target CoinSet.empty = .ok l :=
  transfer_eq_ok_iff.2 ⟨l.balances, l.balances.transfer_empty source target, rfl⟩

/-- A payment changes balances only. -/
theorem pay_eq_ok_iff {l l' : Ledger} {source target : Address} {coins : CoinSet} :
    l.pay source target coins = .ok l' ↔
      ∃ b, l.balances.transfer source target coins = .ok b ∧ { l with balances := b } = l' :=
  Except.mapError_eq_ok_iff.trans transfer_eq_ok_iff

/-- A record is handed out to its owner, and to nobody else. -/
theorem recordOwnedBy_eq_ok_iff {l : Ledger} {name : String} {caller : Address} {r : NameRecord} :
    l.recordOwnedBy name caller = .ok r ↔ l.names.find? name = some r ∧ r.owner = caller := by
  unfold recordOwnedBy
  -- A record may be missing, belong to the caller, or belong to somebody else.
  cases l.names.find? name with
  | none => simp
  | some r' =>
    simp only [Option.some.injEq]
    split
    · next h =>
      rw [Except.ok.injEq]
      exact ⟨fun heq => ⟨heq, heq ▸ h⟩, fun heq => heq.1⟩
    · next h =>
      refine ⟨(nomatch ·), ?_⟩
      rintro ⟨rfl, howner⟩
      exact absurd howner h

/-- A free name is registered once its fee has been paid, and comes without a price or addresses. -/
theorem registerName_eq_ok {name : String} {owner : Address} {l l' : Ledger}
    (h : registerName name owner l = .ok l') :
    l.names.find? name = none ∧
      ∃ paid, l.pay owner nameService l.pricing.registrationFee = .ok paid ∧
        (paid.putName name ⟨owner, none, []⟩).grantCredits owner = l' := by
  unfold registerName at h
  split at h
  · cases h
  · next hfree =>
    obtain ⟨paid, hpay, hret⟩ := Except.bind_eq_ok_iff.1 h
    refine ⟨?_, paid, hpay, Except.ok.inj hret⟩
    simpa [OrderedMap.contains] using hfree

/-- The owner of a name renews it, which is to pay the fee. -/
theorem renewName_eq_ok {name : String} {owner : Address} {l l' : Ledger}
    (h : renewName name owner l = .ok l') :
    (∃ r, l.recordOwnedBy name owner = .ok r) ∧
      l.pay owner nameService l.pricing.renewalFee = .ok l' := by
  obtain ⟨r, hr, hpay⟩ := Except.bind_eq_ok_iff.1 h
  exact ⟨⟨r, hr⟩, hpay⟩

/-- A listed name goes to the buyer once its price has been paid to the owner. -/
theorem buyName_eq_ok {name : String} {buyer : Address} {l l' : Ledger}
    (h : buyName name buyer l = .ok l') :
    ∃ r price paid, l.names.find? name = some r ∧ r.price = some price ∧
      l.pay buyer r.owner price = .ok paid ∧ paid.handOver name r.owner buyer = l' := by
  unfold buyName at h
  cases hr : l.names.find? name with
  | none => rw [hr] at h; cases h
  | some r =>
    cases hp : r.price with
    | none => simp [hr, hp] at h
    | some price =>
      simp only [hr, hp] at h
      obtain ⟨paid, hpay, heq⟩ := Except.map_eq_ok_iff.1 h
      exact ⟨r, price, paid, rfl, hp, hpay, heq⟩

/-- The owner of a name hands it over. -/
theorem transferName_eq_ok {name : String} {owner recipient : Address} {l l' : Ledger}
    (h : transferName name owner recipient l = .ok l') :
    (∃ r, l.recordOwnedBy name owner = .ok r) ∧ l.handOver name owner recipient = l' := by
  obtain ⟨r, hr, hret⟩ := Except.bind_eq_ok_iff.1 h
  exact ⟨⟨r, hr⟩, Except.ok.inj hret⟩

/-- The owner of a name gives it up, and the credits too if it was the last one. -/
theorem deleteName_eq_ok {name : String} {owner : Address} {l l' : Ledger}
    (h : deleteName name owner l = .ok l') :
    (∃ r, l.recordOwnedBy name owner = .ok r) ∧
      ({ l with names := l.names.erase name } : Ledger).revokeCredits owner = l' := by
  obtain ⟨r, hr, hret⟩ := Except.bind_eq_ok_iff.1 h
  exact ⟨⟨r, hr⟩, Except.ok.inj hret⟩

/-- The fee is paid only when no credit is left. -/
theorem registerAddress_eq_ok {name : String} {owner address : Address} {l l' : Ledger}
    (h : registerAddress name owner address l = .ok l') :
    ∃ r paid, l.recordOwnedBy name owner = .ok r ∧
      (if l.creditsOf owner ≤ 0 then l.pay owner nameService l.pricing.addressFee else .ok l) =
        .ok paid ∧
      ({ paid with credits :=
          paid.credits.insert owner (Fee.spendCredit (l.creditsOf owner)) } : Ledger).putName name
        { r with addresses := r.addresses ++ [address] } = l' := by
  obtain ⟨r, hr, h⟩ := Except.bind_eq_ok_iff.1 h
  by_cases hcredits : l.creditsOf owner ≤ 0
  · simp only [if_pos hcredits] at h ⊢
    obtain ⟨paid, hpaid, hret⟩ := Except.bind_eq_ok_iff.1 h
    exact ⟨r, paid, hr, hpaid, Except.ok.inj hret⟩
  · simp only [if_neg hcredits] at h ⊢
    exact ⟨r, l, hr, rfl, Except.ok.inj h⟩

/-! ## Transfers between many accounts -/

/-- Taking the coins of a share changes balances only. -/
theorem debitShare_eq_ok_iff {s : Share} {l l' : Ledger} :
    debitShare s l = .ok l' ↔
      ∃ b, l.balances.debit s.address s.coins = .ok b ∧ { l with balances := b } = l' := by
  unfold debitShare
  cases l.balances.debit s.address s.coins <;> simp

/-- The attempt to take the inputs of a transfer, one after the other. -/
def debitAll (inputs : List Share) : Attempt Ledger Error Unit :=
  Attempt.forEach (fun s => Attempt.change (debitShare s)) inputs

/-- The first input is taken in front of the others. -/
theorem debitAll_cons_eq_ok {s : Share} {inputs : List Share} {l l' : Ledger} :
    (debitAll (s :: inputs)).run l = (.ok (), l') ↔
      ∃ b, l.balances.debit s.address s.coins = .ok b ∧
        (debitAll inputs).run { l with balances := b } = (.ok (), l') := by
  refine Attempt.run_forEach_cons_eq_ok.trans ⟨?_, ?_⟩
  · rintro ⟨t, hdebit, hrest⟩
    obtain ⟨b, hb, rfl⟩ := debitShare_eq_ok_iff.1 (Attempt.run_change_eq_ok.1 hdebit)
    exact ⟨b, hb, hrest⟩
  · rintro ⟨b, hb, hrest⟩
    exact ⟨_, Attempt.run_change_eq_ok.2 (debitShare_eq_ok_iff.2 ⟨b, hb, rfl⟩), hrest⟩

/-- Taking inputs undoes crediting them. -/
theorem debitAll_eq_ok_iff {inputs : List Share} {l l' : Ledger} :
    (debitAll inputs).run l = (.ok (), l') ↔
      ∃ b : Balances, b.creditAll inputs = l.balances ∧ { l with balances := b } = l' := by
  -- By induction on the inputs: the first one is the last to be credited back.
  induction inputs generalizing l with
  | nil =>
    constructor
    · intro h
      cases h
      exact ⟨_, rfl, rfl⟩
    · rintro ⟨b, rfl, rfl⟩
      rfl
  | cons s rest ih =>
    rw [debitAll_cons_eq_ok]
    simp only [ih, Balances.debit_eq_ok_iff_credit]
    constructor
    · rintro ⟨_, hfirst, b, rfl, rfl⟩
      exact ⟨b, (b.creditAll_credit s rest).symm.trans hfirst, rfl⟩
    · rintro ⟨b, hall, rfl⟩
      exact ⟨b.creditAll rest, (b.creditAll_credit s rest).trans hall, b, rfl, rfl⟩

/-- Taking the inputs changes balances only. -/
theorem debitAll_eq_ok {inputs : List Share} {l l' : Ledger}
    (h : (debitAll inputs).run l = (.ok (), l')) :
    ∃ b, ({ l with balances := b } : Ledger) = l' := by
  obtain ⟨b, -, hb⟩ := debitAll_eq_ok_iff.1 h
  exact ⟨b, hb⟩

/-- All inputs have been taken before the first output is given. -/
theorem multiSend_eq_ok {inputs outputs : List Share} {l l' : Ledger}
    (h : (multiSend inputs outputs).run l = (.ok (), l')) :
    ∃ taken, (debitAll inputs).run l = (.ok (), taken) ∧
      { taken with balances := taken.balances.creditAll outputs } = l' := by
  obtain ⟨_, taken, htake, hgive⟩ := Attempt.run_bind_eq_ok.1 h
  exact ⟨taken, htake, Except.ok.inj (Attempt.run_change_eq_ok.1 hgive)⟩

/-- Taking all inputs takes the sum of their coins. -/
theorem held_of_debitAll {inputs : List Share} {l l' : Ledger}
    (h : (debitAll inputs).run l = (.ok (), l')) (denom : String) :
    l'.balances.held denom + (Message.total inputs).amountOf denom = l.balances.held denom := by
  obtain ⟨b, hb, rfl⟩ := debitAll_eq_ok_iff.1 h
  rw [← hb, Balances.held_creditAll]

/-! ## Properties that messages keep -/

/-- The property survives every step that the handlers of messages are made of. -/
structure StepsKeep (P : Ledger → Prop) : Prop where
  balances : ∀ l b, P l → P { l with balances := b }
  /-- A name in new hands, with neither a price nor addresses. -/
  newRecord : ∀ l name owner, P l → P (l.putName name ⟨owner, none, []⟩)
  newAddress : ∀ l name r address, l.names.find? name = some r → P l →
    P (l.putName name { r with addresses := r.addresses ++ [address] })
  eraseName : ∀ l name, P l → P { l with names := l.names.erase name }
  grant : ∀ l owner, P l → P (l.grantCredits owner)
  revoke : ∀ l owner, P l → P (l.revokeCredits owner)
  spend : ∀ l owner, P l →
    P { l with credits := l.credits.insert owner (Fee.spendCredit (l.creditsOf owner)) }

namespace StepsKeep

variable {P : Ledger → Prop}

/-- A payment is a change of balances. -/
theorem pay (hP : StepsKeep P) {l l' : Ledger} {source target : Address} {coins : CoinSet}
    (h : l.pay source target coins = .ok l') (hl : P l) : P l' := by
  obtain ⟨b, -, rfl⟩ := pay_eq_ok_iff.1 h
  exact hP.balances _ b hl

/-- A name changes hands by a new record, and then credits go and come. -/
theorem handOver (hP : StepsKeep P) {l : Ledger} (name : String) (seller buyer : Address)
    (hl : P l) : P (l.handOver name seller buyer) :=
  hP.grant _ _ (hP.revoke _ _ (hP.newRecord _ _ _ hl))

/-- An address is registered for a fee or a credit. -/
theorem registerAddress (hP : StepsKeep P) {name : String} {owner address : Address}
    {l l' : Ledger} (h : registerAddress name owner address l = .ok l') (hl : P l) : P l' := by
  obtain ⟨r, paid, hr, hpaid, rfl⟩ := registerAddress_eq_ok h
  obtain ⟨hfind, -⟩ := recordOwnedBy_eq_ok_iff.1 hr
  split at hpaid
  · obtain ⟨b, -, rfl⟩ := pay_eq_ok_iff.1 hpaid
    exact hP.newAddress _ _ r address hfind (hP.spend _ owner (hP.balances _ b hl))
  · -- A credit is left, and nothing has been paid.
    cases hpaid
    exact hP.newAddress _ _ r address hfind (hP.spend _ owner hl)

end StepsKeep

/-- Every message, whatever its outcome, keeps what its steps keep. -/
theorem apply_keeps {P : Ledger → Prop} (hP : StepsKeep P) (m : Message) :
    Attempt.Keeps P (apply m) := by
  -- For every message: the steps that its handler takes, in order.
  cases m with
  | registerName name owner =>
    refine Attempt.Keeps.change fun l l' h hl => ?_
    obtain ⟨-, paid, hpaid, rfl⟩ := registerName_eq_ok h
    exact hP.grant _ _ (hP.newRecord _ _ _ (hP.pay hpaid hl))
  | renewName name owner =>
    exact Attempt.Keeps.change fun l l' h hl => hP.pay (renewName_eq_ok h).2 hl
  | buyName name buyer =>
    refine Attempt.Keeps.change fun l l' h hl => ?_
    obtain ⟨r, price, paid, -, -, hpaid, rfl⟩ := buyName_eq_ok h
    exact hP.handOver _ _ _ (hP.pay hpaid hl)
  | transferName name owner recipient =>
    refine Attempt.Keeps.change fun l l' h hl => ?_
    obtain ⟨-, rfl⟩ := transferName_eq_ok h
    exact hP.handOver _ _ _ hl
  | deleteName name owner =>
    refine Attempt.Keeps.change fun l l' h hl => ?_
    obtain ⟨-, rfl⟩ := deleteName_eq_ok h
    exact hP.revoke _ _ (hP.eraseName _ _ hl)
  | registerAddress name owner address =>
    exact Attempt.Keeps.change fun l l' h hl => hP.registerAddress h hl
  | send sender recipient amount => exact Attempt.Keeps.change fun l l' h hl => hP.pay h hl
  | createSellOrder seller amount => exact Attempt.Keeps.change fun l l' h hl => hP.pay h hl
  | multiSend inputs outputs =>
    -- Each input is a step of its own: the transfer may end behind any of them.
    refine Attempt.Keeps.bind (Attempt.Keeps.forEach (fun s => ?_) inputs) fun _ =>
      Attempt.Keeps.change fun l l' h hl => ?_
    · refine Attempt.Keeps.change fun l l' h hl => ?_
      obtain ⟨b, -, rfl⟩ := debitShare_eq_ok_iff.1 h
      exact hP.balances _ b hl
    · cases h
      exact hP.balances _ _ hl
  | other typeUrl => exact Attempt.Keeps.pure ()

/-- No step of a handler touches the supply. -/
private theorem supply_stepsKeep (supply : CoinSet) : StepsKeep fun l => l.supply = supply where
  balances _ _ h := h
  newRecord _ _ _ h := h
  newAddress _ _ _ _ _ h := h
  eraseName _ _ h := h
  grant l owner h := (grantCredits_supply l owner).trans h
  revoke l owner h := (revokeCredits_supply l owner).trans h
  spend _ _ h := h

/-- No message changes the supply. -/
theorem apply_supply {m : Message} {l l' : Ledger} {r : Except Error Unit}
    (h : (apply m).run l = (r, l')) : l'.supply = l.supply :=
  (apply_keeps (supply_stepsKeep l.supply) m).of_run h rfl

/-- No step of a handler touches the prices. -/
private theorem pricing_stepsKeep (pricing : Pricing) :
    StepsKeep fun l => l.pricing = pricing where
  balances _ _ h := h
  newRecord _ _ _ h := h
  newAddress _ _ _ _ _ h := h
  eraseName _ _ h := h
  grant l owner h := (grantCredits_pricing l owner).trans h
  revoke l owner h := (revokeCredits_pricing l owner).trans h
  spend _ _ h := h

/-- No message changes the prices. -/
theorem apply_pricing {m : Message} {l l' : Ledger} {r : Except Error Unit}
    (h : (apply m).run l = (r, l')) : l'.pricing = l.pricing :=
  (apply_keeps (pricing_stepsKeep l.pricing) m).of_run h rfl

/-! ## Messages move coins -/

/-- A payment leaves what all accounts hold together as it was. -/
theorem held_of_pay {l l' : Ledger} {source target : Address} {coins : CoinSet}
    (h : l.pay source target coins = .ok l') (denom : String) :
    l'.balances.held denom = l.balances.held denom := by
  obtain ⟨b, hb, rfl⟩ := pay_eq_ok_iff.1 h
  exact Balances.held_of_transfer hb denom

/-- A well-formed message that succeeds leaves what all accounts hold together as it was. Only a
transfer between many accounts needs to be well formed. -/
theorem apply_held {m : Message} (hm : m.check = .ok ()) {l l' : Ledger}
    (h : (apply m).run l = (.ok (), l')) (denom : String) :
    l'.balances.held denom = l.balances.held denom := by
  -- Payments move coins, and the rest of what messages do is not about balances.
  cases m with
  | registerName name owner =>
    obtain ⟨-, paid, hpay, rfl⟩ := registerName_eq_ok (Attempt.run_change_eq_ok.1 h)
    simpa using held_of_pay hpay denom
  | renewName name owner =>
    exact held_of_pay (renewName_eq_ok (Attempt.run_change_eq_ok.1 h)).2 denom
  | buyName name buyer =>
    obtain ⟨r, price, paid, -, -, hpay, rfl⟩ := buyName_eq_ok (Attempt.run_change_eq_ok.1 h)
    simpa using held_of_pay hpay denom
  | transferName name owner recipient =>
    obtain ⟨-, rfl⟩ := transferName_eq_ok (Attempt.run_change_eq_ok.1 h)
    simp
  | deleteName name owner =>
    obtain ⟨-, rfl⟩ := deleteName_eq_ok (Attempt.run_change_eq_ok.1 h)
    simp
  | registerAddress name owner address =>
    obtain ⟨r, paid, -, hpaid, rfl⟩ := registerAddress_eq_ok (Attempt.run_change_eq_ok.1 h)
    rw [putName_balances]
    -- The fee has been paid, or a credit was left.
    split at hpaid
    · exact held_of_pay hpaid denom
    · cases hpaid; rfl
  | send sender recipient amount => exact held_of_pay (Attempt.run_change_eq_ok.1 h) denom
  | createSellOrder seller amount => exact held_of_pay (Attempt.run_change_eq_ok.1 h) denom
  | multiSend inputs outputs =>
    obtain ⟨taken, htaken, rfl⟩ := multiSend_eq_ok h
    have htotal := held_of_debitAll htaken denom
    rw [Balances.held_creditAll, ← Message.total_eq_of_check hm]
    exact htotal
  | other typeUrl => cases h; rfl

end Ledger

end ChainEconomy
