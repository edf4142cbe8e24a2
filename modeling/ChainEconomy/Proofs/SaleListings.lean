import ChainEconomy.Proofs.MessageHistory
import ChainEconomy.Proofs.PayerCharge

/-!
# Names for sale

A name can be for sale from the start, and in no other way: every record that a message writes is
one without a price, or the record that was there before with one address more. So the offers of a
ledger are listings of the genesis that nobody has used up yet. A purchase pays what the listing
says to whom it says, and takes the offer away, even if the name is given up and registered again
later on.

## Key results

- `Ledger.apply_offer`: an offer behind a message was an offer in front of it
- `buys_usesUp`: a purchase uses up the offer of its name
- `Genesis.Starts.listings_used_once`: what becomes of the listings of a genesis
-/

namespace ChainEconomy

/-- Whether a message buys the name. -/
def Message.buys (name : String) : Message → Bool
  | .buyName bought _ => bought == name
  | _ => false

/-- The messages that buy a name are the purchases of it. -/
theorem Message.buys_iff {name : String} {m : Message} :
    m.buys name = true ↔ ∃ buyer, m = .buyName name buyer := by
  cases m <;> simp [buys]

namespace Ledger

/-! ## Offers -/

/-- Whether a name is for sale. -/
def isOffered (l : Ledger) (name : String) : Bool :=
  (l.names.find? name).any fun r => r.price.isSome

/-- A name is for sale if its record has a price. -/
theorem isOffered_iff {l : Ledger} {name : String} :
    l.isOffered name = true ↔ ∃ r price, l.names.find? name = some r ∧ r.price = some price := by
  simp [isOffered, Option.any_eq_true, Option.isSome_iff_exists]

/-- No message, whatever its outcome, puts a name up for sale: the name was for sale before, from
the same owner and at the same price. -/
theorem apply_offer {m : Message} {l l' : Ledger} {outcome : Except Error Unit}
    (h : (apply m).run l = (outcome, l')) {name : String} {r : NameRecord} {price : CoinSet}
    (hr : l'.names.find? name = some r) (hprice : r.price = some price) :
    ∃ before, l.names.find? name = some before ∧ before.owner = r.owner ∧
      before.price = some price := by
  have hkeep := apply_keeps (offers_stepsKeep fun name owner price =>
    ∃ before, l.names.find? name = some before ∧ before.owner = owner ∧
      before.price = some price) m
  exact hkeep.of_run h (fun name r price hr hprice => ⟨r, hr, rfl, hprice⟩) name r price hr hprice

/-- A purchase pays the price of the offer to its owner, and leaves no offer of the name. -/
theorem buyName_uses_offer {name : String} {buyer : Address} {l l' : Ledger}
    (h : buyName name buyer l = .ok l') :
    (∃ r price, l.names.find? name = some r ∧ r.price = some price ∧
      l.balances.transfer buyer r.owner price = .ok l'.balances) ∧ l'.isOffered name = false := by
  obtain ⟨r, price, paid, hr, hprice, hpay, rfl⟩ := buyName_eq_ok h
  obtain ⟨b, hb, rfl⟩ := pay_eq_ok_iff.1 hpay
  refine ⟨⟨r, price, hr, hprice, ?_⟩, ?_⟩
  · rw [hb, handOver_balances]
  · simp [isOffered, handOver, putName, OrderedMap.find?_insert_self]

end Ledger

namespace Chain

/-- Moving coins leaves the offers alone, and so does every message but a purchase. -/
theorem buys_usesUp (name : String) :
    UsesUp (Message.buys name) fun l => (l.isOffered name).toNat where
  transfer h := by
    obtain ⟨b, -, rfl⟩ := Ledger.transfer_eq_ok_iff.1 h
    exact Nat.le_refl _
  mint _ _ := Nat.le_refl _
  message {m l l'} _ h := by
    -- A purchase takes the one offer away. Any other message can only have kept it.
    cases hbuys : m.buys name with
    | true =>
      obtain ⟨buyer, rfl⟩ := Message.buys_iff.1 hbuys
      obtain ⟨⟨r, price, hr, hprice, -⟩, hgone⟩ :=
        Ledger.buyName_uses_offer (Attempt.run_change_eq_ok.1 h)
      rw [Ledger.isOffered_iff.2 ⟨r, price, hr, hprice⟩, hgone]
      decide
    | false =>
      have hkept : l'.isOffered name = true → l.isOffered name = true := fun hoffered => by
        obtain ⟨r, price, hr, hprice⟩ := Ledger.isOffered_iff.1 hoffered
        obtain ⟨before, hbefore, -, hsame⟩ := Ledger.apply_offer h hr hprice
        exact Ledger.isOffered_iff.2 ⟨before, price, hbefore, hsame⟩
      rw [if_neg Bool.false_ne_true, Nat.zero_add]
      exact Bool.toNat_le_toNat hkept

/-! ## The listings of a genesis -/

/-- Whatever can be said about the offers in a ledger can be said about them afterwards. -/
theorem offers_keep (Q : String → Address → CoinSet → Prop) :
    LedgerKeeps fun l => ∀ name r price, l.names.find? name = some r → r.price = some price →
      Q name r.owner price where
  transfer h hl := by
    obtain ⟨b, -, rfl⟩ := Ledger.transfer_eq_ok_iff.1 h
    exact hl
  message _ h hl := (Ledger.apply_keeps (Ledger.offers_stepsKeep Q) _).of_run h hl
  mint _ _ hl := hl

/-- The first ledger offers what the genesis lists. -/
theorem Genesis.ledger_offers (g : Genesis) {name : String} {r : NameRecord} {price : CoinSet}
    (hr : g.ledger.names.find? name = some r) (hprice : r.price = some price) :
    ⟨name, r.owner, some price⟩ ∈ g.nameService.names := by
  -- The names of the genesis are registered one after the other, each as it is listed.
  refine List.foldlRecOn (motive := fun l : Ledger => ∀ name r price,
    l.names.find? name = some r → r.price = some price →
      ⟨name, r.owner, some price⟩ ∈ g.nameService.names) g.nameService.names addName
        (fun _ _ _ hr _ => by cases hr) (fun l hl n hn name r price hr hprice => ?_)
          name r price hr hprice
  rw [addName_names, OrderedMap.find?_insert] at hr
  split at hr
  · next heq =>
    cases hr
    rw [heq, ← hprice]
    exact hn
  · exact hl name r price hr hprice

/-- The listings of a genesis are used at most once, and only as they are listed. Each name for sale
is one that the genesis lists, with its owner and its price. No message puts a name up for sale.
Every purchase that is made pays the listed price to the listed owner, even if its transaction is
turned down afterwards. Of each name, at most one purchase lasts. -/
theorem Genesis.Starts.listings_used_once {g : Genesis} {start : Chain} (hstart : g.Starts start)
    (steps : List Step) :
    (∀ name r price, (start.after steps).ledger.names.find? name = some r →
      r.price = some price → ⟨name, r.owner, some price⟩ ∈ g.nameService.names) ∧
    (∀ (m : Message) (l : Ledger) name r price,
      ((Ledger.apply m).run l).2.names.find? name = some r → r.price = some price →
        ∃ before, l.names.find? name = some before ∧ before.owner = r.owner ∧
          before.price = some price) ∧
    (∀ d ∈ start.history steps, ∀ name buyer, d.message = .buyName name buyer →
      ∃ seller price, ⟨name, seller, some price⟩ ∈ g.nameService.names ∧
        d.before.balances.transfer buyer seller price = .ok d.after.balances) ∧
    ∀ name, (lasting (start.history steps)).countP (Message.buys name) ≤ 1 := by
  have hkeep := offers_keep fun name owner price => ⟨name, owner, some price⟩ ∈ g.nameService.names
  have hfirst : ∀ name r price, start.ledger.names.find? name = some r → r.price = some price →
      ⟨name, r.owner, some price⟩ ∈ g.nameService.names := fun name r price hr hprice => by
    rw [hstart.ledger] at hr
    exact g.ledger_offers hr hprice
  refine ⟨after_keeps hkeep start steps hfirst, fun m l name r price hr hprice =>
    Ledger.apply_offer rfl hr hprice, fun d hd name buyer hmessage => ?_, fun name => ?_⟩
  · -- The purchase was made on a ledger whose offers are listings of the genesis.
    have hdone := history_done hkeep hfirst steps d hd
    have hrun := hdone.run
    rw [hmessage] at hrun
    obtain ⟨⟨r, price, hr, hprice, hpaid⟩, -⟩ :=
      Ledger.buyName_uses_offer (Attempt.run_change_eq_ok.1 hrun)
    exact ⟨r.owner, price, hdone.before name r price hr hprice, hpaid⟩
  · -- There is one offer of the name at most, and each purchase uses one up.
    have hused := (buys_usesUp name).history start steps
    have hone := (start.ledger.isOffered name).toNat_le
    omega

namespace Sample

/-- The chain on which the shop is for sale. -/
def marketChain : Chain :=
  ⟨(marketGenesis.economy.init.run (Store.empty .sound)).2, marketGenesis.ledger⟩

/-- The market is started by its genesis. -/
theorem marketChain_starts : marketGenesis.Starts marketChain where
  checked := Except.eq_ok_of_isOk (by decide +kernel)
  store := ⟨.empty .sound, Prod.ext (Except.eq_ok_of_isOk (by decide +kernel)) rfl⟩
  ledger := rfl

/-- The shop is bought, given up and registered again, and then its first owner wants to buy it. -/
def sales : List Step :=
  [.block 1 ⟨0⟩ [spree],
    .block 2 ⟨1⟩ [
      ⟨[.deleteName "shop" (account 1), .registerName "shop" (account 1)], account 1, ""⟩,
      ⟨[.buyName "shop" (account 2)], account 2, ""⟩]]

end Sample

/-- The first purchase pays 7 to the listed owner, and there is no second one. -/
theorem Genesis.Starts.listings_used_once_sample :
    Sample.marketGenesis.Starts Sample.marketChain ∧
      (lasting (Sample.marketChain.history Sample.sales)).countP (Message.buys "shop") = 1 ∧
      ∃ d ∈ Sample.marketChain.history Sample.sales,
        d.message = .buyName "shop" (Sample.account 1) ∧
        d.before.balances.transfer (Sample.account 1) (Sample.account 2) (Sample.coins 7) =
          .ok d.after.balances := by
  obtain ⟨-, -, hpays, honce⟩ := Sample.marketChain_starts.listings_used_once Sample.sales
  obtain ⟨hsome, hfound⟩ : 1 ≤ (lasting (Sample.marketChain.history Sample.sales)).countP
        (Message.buys "shop") ∧
      .buyName "shop" (Sample.account 1) ∈
        (Sample.marketChain.history Sample.sales).map Deed.message := by decide +kernel
  obtain ⟨d, hd, hmessage⟩ := List.mem_map.1 hfound
  obtain ⟨seller, price, hlisted, hpaid⟩ := hpays d hd "shop" (Sample.account 1) hmessage
  -- The genesis lists nothing else.
  cases List.mem_singleton.1 hlisted
  exact ⟨Sample.marketChain_starts, Nat.le_antisymm (honce "shop") hsome, d, hd, hmessage, hpaid⟩

end Chain

end ChainEconomy
