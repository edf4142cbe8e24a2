import ChainEconomy.Proofs.AdmissionCoverage

/-!
# The payer is charged what was assessed

Pricing adds up the values of all messages on the ledger from before the transaction, with counters
of its own; the handlers then move coins one message after the other, on ledgers that the messages
before them have changed. For a payer who only spends, both come to the same: such a payer gives no
name away, so that pricing and ledger agree about its first name and its credits all the way, and
gets no coins, so that whatever leaves its account is gone.

## Key results

- `Message.SpendsFor`: messages with which an account only spends
- `Ledger.Mirrors`: the counters of pricing are those of the ledger
- `Ledger.Mirrors.apply`, `Ledger.Mirrors.pays`: one message
- `Chain.applyFrom_pays`: all messages
- `Chain.execute_charges_total`: an admitted transaction
-/

namespace ChainEconomy

/-! ## Messages with which an account only spends -/

namespace Message

/-- The accounts that a message names as the ones to get coins. -/
def recipients : Message → List Address
  | .send _ recipient _ => [recipient]
  | .multiSend _ outputs => outputs.map Share.address
  | _ => []

/-- Whether a message takes a name from its owner. -/
def releases : Message → Bool
  | .transferName _ _ _ => true
  | .deleteName _ _ => true
  | _ => false

/-- An account is the only one who acts in a message, and only spends: it gets no coins, gives no
name away, and buys none that belongs to it in the given ledger. -/
structure SpendsFor (payer : Address) (l : Ledger) (m : Message) : Prop where
  actors : ∀ a ∈ m.actors, a = payer
  recipients : payer ∉ m.recipients
  keepsNames : m.releases = false
  sellers : ∀ name buyer, m = .buyName name buyer → ∀ r, l.names.find? name = some r →
    r.owner ≠ payer

end Message

namespace Ledger

/-- The accounts that the prices of names and open orders are paid to. -/
def serviceAccounts : List Address := [nameService, market]

/-- Pricing by an old ledger mirrors the current one: prices and offers are the old ones, and the
counters of the payer are those of the ledger, except that pricing counts names up to one only. -/
structure Mirrors (old : Ledger) (payer : Address) (p : Fee.Payer) (l : Ledger) : Prop where
  pricing : l.pricing = old.pricing
  offers : ∀ name r price, l.names.find? name = some r → r.price = some price →
    ∃ r₀, old.names.find? name = some r₀ ∧ r₀.owner = r.owner ∧ r₀.price = some price
  named : p.ownedNames = 0 ↔ l.ownedNames payer = 0
  credits : p.credits = l.creditsOf payer

/-- In front of the first message, pricing mirrors the ledger that it has been given. -/
theorem Mirrors.refl (l : Ledger) (payer : Address) :
    Mirrors l payer (.ofRegistry l.registry payer) l where
  pricing := rfl
  offers _ r _ hr hprice := ⟨r, hr, rfl, hprice⟩
  named := Iff.rfl
  credits := rfl

/-- A change of balances does not disturb pricing. -/
theorem Mirrors.setBalances {old l : Ledger} {payer : Address} {p : Fee.Payer}
    (h : Mirrors old payer p l) (b : Balances) : Mirrors old payer p { l with balances := b } :=
  ⟨h.pricing, h.offers, h.named, h.credits⟩

section

variable {old l l' : Ledger} {payer : Address} {p q : Fee.Payer} {m : Message} {value : CoinSet}

/-- The price that pricing finds for a name is the one in the ledger, and the seller is not the
payer. -/
theorem Mirrors.offer (h : Mirrors old payer p l) {name : String} {buyer : Address}
    (hsellers : ∀ r, old.names.find? name = some r → r.owner ≠ payer) {r : NameRecord}
    {price : CoinSet} (hr : l.names.find? name = some r) (hprice : r.price = some price) :
    r.owner ≠ payer ∧
      Fee.messageValue old.registry p (.buyName name buyer) =
        .ok (price, p.acquireName old.registry) := by
  -- A price in the ledger is one of the old ledger, from the same owner.
  obtain ⟨r₀, hr₀, howner, hprice₀⟩ := h.offers name r price hr hprice
  refine ⟨howner ▸ hsellers r₀ hr₀, ?_⟩
  have hfound : old.registry.price name = .ok price := by
    show old.priceOf name = .ok price
    unfold priceOf
    rw [hr₀]
    simp only [hprice₀]
  simp only [Fee.messageValue, hfound]

/-- What pricing makes of an acquisition is what the ledger makes of one more name. -/
theorem Mirrors.acquireName (h : Mirrors old payer p l) (hget : Acquired payer l l')
    (hmore : l'.ownedNames payer = l.ownedNames payer + 1) :
    ((p.acquireName old.registry).ownedNames = 0 ↔ l'.ownedNames payer = 0) ∧
      (p.acquireName old.registry).credits = l'.creditsOf payer := by
  have hcredits := hget.credits
  unfold Fee.Payer.acquireName
  split
  · next hzero =>
    -- The first name, in both views: the credits are refilled.
    have hnone : l.ownedNames payer = 0 := h.named.1 hzero
    rw [hmore, hnone, if_pos rfl, h.pricing] at hcredits
    refine ⟨?_, hcredits.symm⟩
    rw [hmore]
    simp
  · next hnamed =>
    have hsome : l.ownedNames payer ≠ 0 := fun hnone => hnamed (h.named.2 hnone)
    rw [if_neg (by omega)] at hcredits
    refine ⟨?_, h.credits.trans hcredits.symm⟩
    rw [hmore]
    simp [hnamed]

end

/-! ## One message -/

section

variable {old l l' : Ledger} {payer : Address} {p q : Fee.Payer} {m : Message} {value : CoinSet}

/-- The counters stay the same through a message with which the payer only spends. -/
theorem Mirrors.counters_apply (h : Mirrors old payer p l) (hspends : m.SpendsFor payer old)
    (hvalue : Fee.messageValue old.registry p m = .ok (value, q))
    (happly : (apply m).run l = (.ok (), l')) :
    (q.ownedNames = 0 ↔ l'.ownedNames payer = 0) ∧ q.credits = l'.creditsOf payer := by
  -- A payment alone changes neither names nor credits, and pricing leaves its counters alone.
  have hpaid : ∀ {source target coins}, l.pay source target coins = .ok l' →
      (p.ownedNames = 0 ↔ l'.ownedNames payer = 0) ∧ p.credits = l'.creditsOf payer := by
    intro source target coins hpay
    obtain ⟨b, -, rfl⟩ := pay_eq_ok_iff.1 hpay
    exact ⟨h.named, h.credits⟩
  cases m with
  | registerName name owner =>
    obtain rfl : owner = payer := hspends.actors owner List.mem_cons_self
    cases hvalue
    have hchange := Attempt.run_change_eq_ok.1 happly
    exact h.acquireName (registerName_acquired hchange) (registerName_owned hchange)
  | buyName name buyer =>
    obtain rfl : buyer = payer := hspends.actors buyer List.mem_cons_self
    have hchange := Attempt.run_change_eq_ok.1 happly
    obtain ⟨r, price, -, hr, hprice, -, -⟩ := buyName_eq_ok hchange
    obtain ⟨hseller, hfound⟩ := h.offer (hspends.sellers name buyer rfl) hr hprice
    cases hfound.symm.trans hvalue
    exact h.acquireName (buyName_acquired hchange) (buyName_owned hr hseller hchange)
  | renewName name owner =>
    cases hvalue
    exact hpaid (renewName_eq_ok (Attempt.run_change_eq_ok.1 happly)).2
  | transferName name owner recipient => cases hspends.keepsNames
  | deleteName name owner => cases hspends.keepsNames
  | registerAddress name owner address =>
    obtain rfl : owner = payer := hspends.actors owner List.mem_cons_self
    cases hvalue
    have hchange := Attempt.run_change_eq_ok.1 happly
    rw [(registerAddress_owned hchange).2, registerAddress_credits hchange, ← h.credits]
    exact ⟨h.named, rfl⟩
  | send sender recipient amount => cases hvalue; exact hpaid (Attempt.run_change_eq_ok.1 happly)
  | createSellOrder seller amount => cases hvalue; exact hpaid (Attempt.run_change_eq_ok.1 happly)
  | multiSend inputs outputs =>
    cases hvalue
    obtain ⟨taken, htaken, rfl⟩ := multiSend_eq_ok happly
    obtain ⟨b, rfl⟩ := debitAll_eq_ok htaken
    exact ⟨h.named, h.credits⟩
  | other typeUrl => cases hvalue; cases happly; exact ⟨h.named, h.credits⟩

/-- Pricing mirrors the ledger behind the message, too. -/
theorem Mirrors.apply (h : Mirrors old payer p l) (hspends : m.SpendsFor payer old)
    (hvalue : Fee.messageValue old.registry p m = .ok (value, q))
    (happly : (Ledger.apply m).run l = (.ok (), l')) : Mirrors old payer q l' where
  pricing := (apply_pricing happly).trans h.pricing
  offers := (apply_keeps (offers_stepsKeep fun name owner price => ∃ r₀,
    old.names.find? name = some r₀ ∧ r₀.owner = owner ∧ r₀.price = some price) m).of_run happly
      h.offers
  named := (h.counters_apply hspends hvalue happly).1
  credits := (h.counters_apply hspends hvalue happly).2

/-- The payer pays the value that the message was priced with. -/
theorem Mirrors.pays (h : Mirrors old payer p l) (hspends : m.SpendsFor payer old)
    (hpayer : payer ∉ serviceAccounts)
    (hvalue : Fee.messageValue old.registry p m = .ok (value, q))
    (happly : (Ledger.apply m).run l = (.ok (), l')) : Pays payer value l l' := by
  -- Fees and orders are paid to accounts other than the payer.
  have hservice : nameService ≠ payer := fun heq => hpayer (by simp [serviceAccounts, heq])
  have hmarket : market ≠ payer := fun heq => hpayer (by simp [serviceAccounts, heq])
  cases m with
  | registerName name owner =>
    obtain rfl : owner = payer := hspends.actors owner List.mem_cons_self
    cases hvalue
    obtain ⟨-, paid, hpay, rfl⟩ := registerName_eq_ok (Attempt.run_change_eq_ok.1 happly)
    rw [h.pricing] at hpay
    exact (Pays.of_pay hservice hpay).congr (by simp)
  | renewName name owner =>
    obtain rfl : owner = payer := hspends.actors owner List.mem_cons_self
    cases hvalue
    obtain ⟨-, hpay⟩ := renewName_eq_ok (Attempt.run_change_eq_ok.1 happly)
    rw [h.pricing] at hpay
    exact Pays.of_pay hservice hpay
  | buyName name buyer =>
    obtain rfl : buyer = payer := hspends.actors buyer List.mem_cons_self
    obtain ⟨r, price, paid, hr, hprice, hpay, rfl⟩ :=
      buyName_eq_ok (Attempt.run_change_eq_ok.1 happly)
    -- The seller is another account, and the price is the one that pricing found.
    obtain ⟨hseller, hfound⟩ := h.offer (hspends.sellers name buyer rfl) hr hprice
    cases hfound.symm.trans hvalue
    exact (Pays.of_pay hseller hpay).congr (by simp)
  | transferName name owner recipient => cases hspends.keepsNames
  | deleteName name owner => cases hspends.keepsNames
  | registerAddress name owner address =>
    obtain rfl : owner = payer := hspends.actors owner List.mem_cons_self
    cases hvalue
    obtain ⟨r, paid, -, hpaid, rfl⟩ := registerAddress_eq_ok (Attempt.run_change_eq_ok.1 happly)
    -- The ledger asks for the fee exactly if pricing does.
    rw [h.credits]
    split at hpaid
    · next hnone =>
      rw [if_pos hnone]
      rw [h.pricing] at hpaid
      exact (Pays.of_pay hservice hpaid).congr (by simp)
    · next hleft =>
      rw [if_neg hleft]
      cases hpaid
      exact Pays.of_balances rfl
  | send sender recipient amount =>
    obtain rfl : sender = payer := hspends.actors sender List.mem_cons_self
    cases hvalue
    have hother : recipient ≠ sender := fun heq => hspends.recipients (heq ▸ List.mem_cons_self)
    exact Pays.of_pay hother (Attempt.run_change_eq_ok.1 happly)
  | createSellOrder seller amount =>
    obtain rfl : seller = payer := hspends.actors seller List.mem_cons_self
    cases hvalue
    exact Pays.of_pay hmarket (Attempt.run_change_eq_ok.1 happly)
  | multiSend inputs outputs =>
    cases hvalue
    obtain ⟨taken, htaken, rfl⟩ := multiSend_eq_ok happly
    have hinputs : ∀ s ∈ inputs, s.address = payer := fun s hs =>
      hspends.actors _ (List.mem_map_of_mem hs)
    intro denom
    show ((taken.balances.creditAll outputs).balance payer).amountOf denom + _ = _
    rw [balance_creditAll_of_not_mem taken.balances hspends.recipients]
    exact Pays.of_debitAll hinputs htaken denom
  | other typeUrl =>
    cases hvalue
    cases happly
    exact Pays.of_balances rfl

end

end Ledger

/-! ## Transactions -/

namespace Chain

/-- Messages with which the payer only spends cost it the sum of their values. -/
theorem applyFrom_pays {schedule : Fee.Schedule} {store : Store} {old l l' : Ledger}
    {payer : Address} {p : Fee.Payer} {messages : List Message} {all : List Fee.Charge}
    {index : Nat} (h : Ledger.Mirrors old payer p l)
    (hspends : ∀ m ∈ messages, m.SpendsFor payer old) (hpayer : payer ∉ Ledger.serviceAccounts)
    (hcharges : Fee.charges schedule store old.registry p messages = .ok all)
    (hrun : (applyFrom index messages).run l = (.ok (), l')) :
    Ledger.Pays payer (CoinSet.sum (all.map Fee.Charge.value)) l l' := by
  -- By induction on the messages: pricing goes on mirroring the ledger behind each of them.
  induction messages generalizing p l all index with
  | nil =>
    cases hcharges
    cases hrun
    exact Ledger.Pays.of_balances rfl
  | cons m rest ih =>
    obtain ⟨value, q, surcharge, others, hvalue, -, hothers, rfl⟩ := Fee.charges_cons_eq_ok hcharges
    obtain ⟨next, happly, hrest⟩ := applyFrom_cons_eq_ok.1 hrun
    have hm := hspends m List.mem_cons_self
    have hfirst := h.pays hm hpayer hvalue happly
    have hsecond := ih (h.apply hm hvalue happly)
      (fun m hm => hspends m (List.mem_cons_of_mem _ hm)) hothers hrest
    rw [List.map_cons, CoinSet.sum_cons]
    exact hfirst.trans hsecond

/-- The payer of an admitted transaction with which it only spends, on any ledger, pays the total
that was assessed: no coin more and no coin less. The payer is none of the accounts that surcharges,
fees and orders are paid to. -/
theorem execute_charges_total {schedule : Fee.Schedule} {store : Store} {tx : Transaction}
    {l l' : Ledger} {a : Fee.Assessment} (hspends : ∀ m ∈ tx.messages, m.SpendsFor tx.feePayer l)
    (hpayer : tx.feePayer ∉ Address.ofModule Fee.collector :: Ledger.serviceAccounts)
    (h : execute schedule store tx l = .ok (a, l')) (denom : String) :
    (l'.balance tx.feePayer).amountOf denom + a.total.amountOf denom =
      (l.balance tx.feePayer).amountOf denom := by
  rw [List.mem_cons, not_or] at hpayer
  obtain ⟨bank, hassess, hmessages⟩ := execute_eq_ok_iff.1 h
  obtain ⟨-, all, hcharges, rfl⟩ := Fee.compute_eq_ok (Fee.assess_eq_ok hassess).1
  obtain ⟨b, htransfer, rfl⟩ := Ledger.transfer_eq_ok_iff.1 (Fee.transfer_of_assess hassess)
  -- Surcharges leave the account first, and then the values.
  have hsurcharges := Ledger.Pays.of_pay (Ne.symm hpayer.1)
    (Ledger.pay_eq_ok_iff.2 ⟨b, htransfer, rfl⟩)
  -- The messages meet a ledger that differs from the one of the pricing in balances only.
  have hmirrors := (Ledger.Mirrors.refl l tx.feePayer).setBalances b
  have hvalues := applyFrom_pays hmirrors hspends hpayer.2 hcharges hmessages
  have htotal := hsurcharges.trans hvalues denom
  rw [CoinSet.amountOf_add] at htotal
  unfold Fee.Assessment.total
  rw [CoinSet.amountOf_add]
  show _ + ((CoinSet.sum (all.map Fee.Charge.value)).amountOf denom +
    (CoinSet.sum (all.map Fee.Charge.surcharge)).amountOf denom) = _
  rw [Nat.add_comm ((CoinSet.sum (all.map Fee.Charge.value)).amountOf denom)]
  exact htotal

namespace Sample

/-- The sample genesis with prices for everything, and a name that another account sells. -/
def marketGenesis : Genesis := { genesis with
  nameService := ⟨coins 3, coins 2, coins 5, 1, [⟨"shop", account 2, some (coins 7)⟩]⟩ }

/-- The account registers its first name with two addresses, the first of them for the credit that
comes along, buys the name that is for sale and pays 20 to the seller. -/
def spree : Transaction :=
  ⟨[.registerName "home" (account 1), .registerAddress "home" (account 1) (account 3),
    .registerAddress "home" (account 1) (account 4), .buyName "shop" (account 1),
    .send (account 1) (account 2) (coins 20)], account 1, ""⟩

/-- All that the account does in its transaction is to spend. -/
theorem spree_spends : ∀ m ∈ spree.messages, m.SpendsFor spree.feePayer marketGenesis.ledger := by
  have hactors : ∀ m ∈ spree.messages, ∀ a ∈ m.actors, a = spree.feePayer := by decide +kernel
  have hrecipients : ∀ m ∈ spree.messages, spree.feePayer ∉ m.recipients := by decide +kernel
  have hkeeps : ∀ m ∈ spree.messages, m.releases = false := by decide +kernel
  refine fun m hm => ⟨hactors m hm, hrecipients m hm, hkeeps m hm, ?_⟩
  rintro name buyer rfl r hr
  obtain ⟨rfl, rfl⟩ : name = "shop" ∧ buyer = account 1 := by simpa [spree] using hm
  have hseller : (marketGenesis.ledger.names.find? "shop").map NameRecord.owner =
      some (account 2) := by decide +kernel
  rw [hr] at hseller
  rw [Option.some.inj hseller]
  decide

end Sample

/-- Values of 35 and five surcharges of one make 40. -/
theorem execute_charges_total_sample :
    ∃ a l', execute Sample.schedule Sample.chain.store Sample.spree Sample.marketGenesis.ledger =
        .ok (a, l') ∧
      a.total.amountOf "utoll" = 40 ∧
      (l'.balance (Sample.account 1)).amountOf "utoll" + a.total.amountOf "utoll" = 1000 := by
  obtain ⟨⟨a, l'⟩, hexecute, htotal⟩ : ∃ r : Fee.Assessment × Ledger,
      execute Sample.schedule Sample.chain.store Sample.spree Sample.marketGenesis.ledger =
        .ok r ∧ r.1.total.amountOf "utoll" = 40 :=
    Except.exists_of_toOption_map (by decide +kernel)
  have hpayer : Sample.spree.feePayer ∉
      Address.ofModule Fee.collector :: Ledger.serviceAccounts := by decide +kernel
  have hbefore : (Sample.marketGenesis.ledger.balance Sample.spree.feePayer).amountOf "utoll" =
      1000 := by decide +kernel
  have hpaid := execute_charges_total Sample.spree_spends hpayer hexecute "utoll"
  rw [hbefore] at hpaid
  exact ⟨a, l', hexecute, htotal, hpaid⟩

end Chain

end ChainEconomy
