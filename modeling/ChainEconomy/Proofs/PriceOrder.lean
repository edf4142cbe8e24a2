import ChainEconomy.Proofs.PayerCharge
import ChainEconomy.Proofs.PriceItems

/-!
# Prices without regard to order

Pricing goes through the messages of a transaction in their order, and what one message costs may
depend on those in front of it. As long as no name changes hands, all that is handed on from message
to message are the credits of the payer, and only registrations of addresses use them up. The order
then decides which registrations are free. It does not decide how many are, and one registration is
as good as another: the surcharge depends on the type and on the value alone.

## Key results

- `creditItems`, `itemsOf_eq_creditItems`: the items of messages that trade no names
- `creditItems_perm`: another order of the messages gives the same items in another order
- `sum_creditItems`: what the values add up to
- `price_regardless_of_order`: the price of a transaction that trades no names
-/

namespace ChainEconomy

namespace Message

/-- Whether a name changes hands, or is given out or dropped. -/
def tradesName (m : Message) : Bool := m.acquires || m.releases

/-- Whether a message registers an address under a name. -/
def registersAddress : Message → Bool
  | .registerAddress _ _ _ => true
  | _ => false

/-- All registrations of addresses are of one type. -/
theorem typeUrl_of_registersAddress {m : Message} (h : m.registersAddress = true) :
    m.typeUrl = "names/RegisterAddress" := by
  cases m with
  | registerAddress name owner address => rfl
  | _ => cases h

end Message

namespace Transaction

/-- Rearranged messages make a transaction as well formed as before. -/
theorem check_of_perm {tx : Transaction} {messages : List Message}
    (hperm : messages.Perm tx.messages) (h : tx.check = .ok ()) :
    ({ tx with messages := messages } : Transaction).check = .ok () := by
  obtain ⟨hsome, hpayer, hmemo, hall⟩ := check_eq_ok_iff.1 h
  have hmessages : messages ≠ [] := by
    rintro rfl
    exact hsome (List.nil_perm.1 hperm)
  exact check_eq_ok_iff.2
    ⟨hmessages, hpayer, hmemo, fun m hm => hall m (hperm.mem_iff.1 hm)⟩

end Transaction

namespace Fee

variable {schedule : Schedule} {store : Store} {names : NameRegistry}

/-! ## Credits -/

/-- A credit that is there is spent. -/
theorem spendCredit_of_pos {credits : Int} (h : 0 < credits) :
    spendCredit credits = credits - 1 := by
  have hlowest := lowestCredits_neg
  unfold spendCredit
  rw [if_neg (by omega)]

/-- Of so many registrations of addresses, those that the credits do not suffice for. -/
def beyondCredits (credits : Int) (registrations : Nat) : Nat :=
  ((registrations : Int) - max credits 0).toNat

/-- Without credits, a registration is one more of those to be paid for. -/
theorem beyondCredits_succ_of_nonpos {credits : Int} (h : credits ≤ 0) (registrations : Nat) :
    beyondCredits credits (registrations + 1) =
      beyondCredits (spendCredit credits) registrations + 1 := by
  have hspent := spendCredit_le h (Int.le_refl 0)
  unfold beyondCredits
  omega

/-- With credits, a registration costs one of them and nothing else. -/
theorem beyondCredits_succ_of_pos {credits : Int} (h : 0 < credits) (registrations : Nat) :
    beyondCredits credits (registrations + 1) =
      beyondCredits (spendCredit credits) registrations := by
  have hspent := spendCredit_of_pos h
  unfold beyondCredits
  omega

/-! ## Items -/

/-- The value of a message that neither trades a name nor registers an address: the coins that it
moves, or the fee for a renewal. -/
def standingValue (names : NameRegistry) : Message → CoinSet
  | .send _ _ amount => amount
  | .createSellOrder _ amount => amount
  | .multiSend inputs _ => Message.total inputs
  | .renewName _ _ => names.renewalFee
  | _ => CoinSet.empty

/-- The items of messages that trade no names, for a payer with some credits. -/
def creditItems (names : NameRegistry) : Int → List Message → List Item
  | _, [] => []
  | credits, m :: rest =>
    if m.registersAddress then
      ⟨m.typeUrl, if credits ≤ 0 then names.addressFee else CoinSet.empty⟩ ::
        creditItems names (spendCredit credits) rest
    else ⟨m.typeUrl, standingValue names m⟩ :: creditItems names credits rest

/-- Messages that trade no names all have values, whatever names the payer owns. -/
theorem itemsOf_eq_creditItems {messages : List Message}
    (h : ∀ m ∈ messages, m.tradesName = false) (p : Payer) :
    itemsOf names p messages = .ok (creditItems names p.credits messages) := by
  -- By induction on the messages, for any payer.
  induction messages generalizing p with
  | nil => rfl
  | cons m rest ih =>
    obtain ⟨hm, hrest⟩ := List.forall_mem_cons.1 h
    unfold itemsOf
    cases m with
    | registerName name owner => cases hm
    | buyName name buyer => cases hm
    | transferName name owner recipient => cases hm
    | deleteName name owner => cases hm
    | registerAddress name owner address =>
      -- The only message that leaves the payer changed.
      dsimp only [messageValue]
      rw [ih hrest]
      rfl
    | _ =>
      dsimp only [messageValue]
      rw [ih hrest]
      rfl

/-- Rearranged messages have the same items, rearranged. -/
theorem creditItems_perm {messages others : List Message} (h : messages.Perm others)
    (credits : Int) :
    (creditItems names credits messages).Perm (creditItems names credits others) := by
  induction h generalizing credits with
  | nil => exact List.Perm.refl _
  -- By induction on the rearrangement, for any credits.
  | cons m _ ih =>
    unfold creditItems
    split
    · exact (ih (spendCredit credits)).cons _
    · exact (ih credits).cons _
  | swap m m' rest =>
    cases hm : m.registersAddress with
    | false =>
      -- The credits are the same in front of the message and behind it.
      simp only [creditItems, hm, Bool.false_eq_true, if_false]
      split
      · exact List.Perm.swap _ _ _
      · exact List.Perm.swap _ _ _
    | true =>
      cases hm' : m'.registersAddress with
      | false =>
        simp only [creditItems, hm, hm', Bool.false_eq_true, if_true, if_false]
        exact List.Perm.swap _ _ _
      | true =>
        -- Whichever of two registrations comes first uses the credit.
        simp only [creditItems, hm, hm', if_true]
        rw [Message.typeUrl_of_registersAddress hm, Message.typeUrl_of_registersAddress hm']
  | trans _ _ ihfirst ihsecond => exact (ihfirst credits).trans (ihsecond credits)

/-- The values add up to those of the messages by themselves, and a fee for each address beyond the
credits. -/
theorem sum_creditItems (names : NameRegistry) (credits : Int) (messages : List Message) :
    CoinSet.sum ((creditItems names credits messages).map Item.value) =
      (CoinSet.sum (messages.map (standingValue names))).add
        (CoinSet.sum (List.replicate
          (beyondCredits credits (messages.countP Message.registersAddress))
          names.addressFee)) := by
  -- By induction on the messages, for any credits.
  induction messages generalizing credits with
  | nil =>
    have hnone : beyondCredits credits 0 = 0 := by
      unfold beyondCredits
      omega
    show CoinSet.empty = (CoinSet.sum []).add (CoinSet.sum (List.replicate (beyondCredits _ 0) _))
    rw [hnone]
    rfl
  | cons m rest ih =>
    unfold creditItems
    rw [List.map_cons, CoinSet.sum_cons]
    split
    · next hm =>
      -- A registration has no value by itself, and is one more of those to be counted.
      have hvalue : standingValue names m = CoinSet.empty := by
        cases m with
        | registerAddress name owner address => rfl
        | _ => cases hm
      rw [hvalue, CoinSet.empty_add, List.countP_cons_of_pos hm, List.map_cons, CoinSet.sum_cons,
        ih]
      by_cases hcredits : credits ≤ 0
      · rw [if_pos hcredits, beyondCredits_succ_of_nonpos hcredits, List.replicate_succ,
          CoinSet.sum_cons]
        apply CoinSet.ext_amountOf
        intro denom
        simp only [CoinSet.amountOf_add]
        omega
      · rw [if_neg hcredits, beyondCredits_succ_of_pos (by omega), CoinSet.empty_add]
    · next hm =>
      rw [List.countP_cons_of_neg hm, List.map_cons, CoinSet.sum_cons, ih]
      apply CoinSet.ext_amountOf
      intro denom
      simp only [CoinSet.amountOf_add]
      omega

/-! ## Prices -/

/-- The order of items makes no difference to a price. -/
theorem Assessment.ofItems_perm {items others : List Item} (h : items.Perm others) :
    ofItems schedule store items = ofItems schedule store others := by
  have hvalues := CoinSet.sum_perm (h.map Item.value)
  have hsurcharges := CoinSet.sum_perm
    ((h.filter fun i => isCharged store i.typeUrl).map fun i => schedule.charged i.value)
  unfold ofItems
  rw [hvalues, hsurcharges]

/-- A well-formed transaction that trades no names has a price, whatever credits its payer has, if
the types of its messages can be looked up. Its values are the coins that its messages move, a fee
for each renewal, and one for each registration of an address that is beyond the credits. The
same messages in any other order have the same price. -/
theorem price_regardless_of_order (schedule : Schedule) (store : Store) (names : NameRegistry)
    {tx : Transaction} (hcheck : tx.check = .ok ())
    (hkeeps : ∀ m ∈ tx.messages, m.tradesName = false)
    (hreadable : TypesReadable store tx.messages) :
    ∃ a, compute schedule store names tx = .ok a ∧
      a.txFees = (CoinSet.sum (tx.messages.map (standingValue names))).add
        (CoinSet.sum (List.replicate
          (beyondCredits (names.credits tx.feePayer)
            (tx.messages.countP Message.registersAddress)) names.addressFee)) ∧
      ∀ messages, messages.Perm tx.messages →
        compute schedule store names { tx with messages := messages } = .ok a := by
  refine ⟨Assessment.ofItems schedule store
    (creditItems names (names.credits tx.feePayer) tx.messages), ?_, ?_, ?_⟩
  · exact compute_eq_ok_iff.2 ⟨hcheck, hreadable, _, itemsOf_eq_creditItems hkeeps _, rfl⟩
  · exact sum_creditItems names (names.credits tx.feePayer) tx.messages
  · intro messages hperm
    -- Rearranged messages are of the same kinds and types.
    have hkeeps' : ∀ m ∈ messages, m.tradesName = false := fun m hm =>
      hkeeps m (hperm.mem_iff.1 hm)
    have hreadable' : TypesReadable store messages := fun m hm =>
      hreadable m (hperm.mem_iff.1 hm)
    exact compute_eq_ok_iff.2 ⟨Transaction.check_of_perm hperm hcheck, hreadable', _,
      itemsOf_eq_creditItems hkeeps' _, Assessment.ofItems_perm (creditItems_perm hperm _)⟩

open Chain.Sample (account coins)

/-- The owner of the name that is for sale in the sample looks after it: two addresses, one of them
for the credit that came along with the name, a renewal, and a payment. -/
def Sample.upkeep : Transaction :=
  ⟨[.registerAddress "shop" (account 2) (account 3), .renewName "shop" (account 2),
    .send (account 2) (account 1) (coins 20), .registerAddress "shop" (account 2) (account 4)],
    account 2, ""⟩

/-- The values are two coins for the renewal, the payment of 20 and five coins for one of the
addresses, also if the messages are turned around. -/
theorem price_regardless_of_order_sample :
    ∃ a, compute Chain.Sample.schedule Chain.Sample.chain.store
        Chain.Sample.marketGenesis.ledger.registry Sample.upkeep = .ok a ∧
      a.txFees.amountOf "utoll" = 27 ∧
      compute Chain.Sample.schedule Chain.Sample.chain.store
        Chain.Sample.marketGenesis.ledger.registry
        { Sample.upkeep with messages := Sample.upkeep.messages.reverse } = .ok a := by
  have hcheck : Sample.upkeep.check = .ok () := Except.eq_ok_of_isOk (by decide +kernel)
  have hkeeps : ∀ m ∈ Sample.upkeep.messages, m.tradesName = false := by decide +kernel
  have hreadable : TypesReadable Chain.Sample.chain.store Sample.upkeep.messages :=
    .of_sound rfl _
  obtain ⟨a, ha, hvalues, horder⟩ := price_regardless_of_order Chain.Sample.schedule
    Chain.Sample.chain.store Chain.Sample.marketGenesis.ledger.registry hcheck hkeeps hreadable
  refine ⟨a, ha, ?_, horder _ (List.reverse_perm _)⟩
  rw [hvalues]
  decide +kernel

end Fee

end ChainEconomy
