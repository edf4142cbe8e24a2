import ChainEconomy.CoinSet.Text
import ChainEconomy.Json.Document
import ChainEconomy.Proofs.CoinSetAlgebra

/-!
# Which coins make a set

A list of coins is made a set of coin by coin, and a coin of a denomination that is already held is
refused. A coin of amount zero is not put into the set, so that it is not held afterwards: behind
another coin of its denomination it is refused as a repetition, and in front of one it goes
unnoticed. The order of the coins therefore makes no difference to the set, and makes one to whether
there is a set at all.

## Key results

- `accepted_in_some_order_iff`, `accepted_in_every_order_iff`: the lists that make a set in one
  order or in all
- `refuses_repetitions_iff`: the lists of which every order makes a set exactly if no denomination
  is repeated
- `coins_decide`: where the order matters, and what is read from lists, documents and texts
- `zero_hides_repetition`: a repetition that goes unnoticed
-/

namespace ChainEconomy

/-- A document is decoded if it starts with a value that is, and nothing follows. -/
theorem Json.decodeChars_eq_ok_iff {α : Type} {decode : Json → Except Json.Fault α} {cs : List Char}
    {a : α} : Json.decodeChars decode cs = .ok a ↔
      ∃ j rest, Json.readFirst? cs = some (j, rest) ∧ Json.skipSpace rest = [] ∧
        decode j = .ok a := by
  unfold Json.decodeChars
  -- The value is read first, then its end is looked for, and only then is it decoded.
  cases Json.readFirst? cs with
  | none => simp
  | some p =>
    obtain ⟨j, rest⟩ := p
    cases hdecode : decode j with
    | error f => simp [hdecode]
    | ok b => cases hrest : Json.skipSpace rest <;> simp [hdecode, hrest]

namespace CoinSet

/-! ## Order -/

/-- What coins amount to does not depend on their order. -/
theorem totalOf_perm {coins others : List Coin} (h : coins.Perm others) (denom : String) :
    totalOf coins denom = totalOf others denom :=
  ((h.filter _).map _).sum_eq

/-- All denominations are proper, and no denomination comes twice. -/
def Distinct (coins : List Coin) : Prop :=
  (∀ c ∈ coins, Denom.check c.denom = .ok ()) ∧ (coins.map Coin.denom).Nodup

/-- Of two coins of one denomination, one has amount zero. -/
abbrev AcceptableInSomeOrder (coins : List Coin) : Prop :=
  Repeating (fun c d => c.amount = 0 ∨ d.amount = 0) coins

/-- Two coins of one denomination both have amount zero. -/
abbrev AcceptableInEveryOrder (coins : List Coin) : Prop :=
  Repeating (fun c d => c.amount = 0 ∧ d.amount = 0) coins

namespace Repeating

variable {allowed also : Coin → Coin → Prop} {coins others : List Coin}

/-- What is allowed more generally is allowed all the more. -/
theorem imp (himp : ∀ c d, allowed c d → also c d) (h : Repeating allowed coins) :
    Repeating also coins :=
  ⟨h.proper, h.repeats.imp fun hrepeats heq => himp _ _ (hrepeats heq)⟩

/-- What is asked of two coins in whatever order is asked of the coins in whatever order. -/
theorem of_perm (hperm : coins.Perm others) (hsymm : ∀ c d, allowed c d → allowed d c)
    (h : Repeating allowed coins) : Repeating allowed others where
  proper c hc := h.proper c (hperm.mem_iff.2 hc)
  repeats := hperm.pairwise h.repeats fun hrepeats heq => hsymm _ _ (hrepeats heq.symm)

end Repeating

/-- Coins are distinct if none of them may be repeated. -/
theorem distinct_iff {coins : List Coin} : Distinct coins ↔ Repeating (fun _ _ => False) coins := by
  unfold Distinct
  rw [List.Nodup, List.pairwise_map]
  exact ⟨fun ⟨hproper, hdistinct⟩ => ⟨hproper, hdistinct⟩, fun h => ⟨h.proper, h.repeats⟩⟩

/-- Distinct coins are distinct in every order. -/
theorem Distinct.of_perm {coins others : List Coin} (hperm : coins.Perm others)
    (h : Distinct coins) : Distinct others :=
  distinct_iff.2 ((distinct_iff.1 h).of_perm hperm fun _ _ => False.elim)

/-- Coins make a set in some order exactly if the coins of amount zero may come first. -/
theorem accepted_in_some_order_iff {coins : List Coin} :
    (∃ others, coins.Perm others ∧ ∃ s, ofCoins others = .ok s) ↔
      AcceptableInSomeOrder coins := by
  simp only [exists_ofCoins_iff]
  constructor
  · rintro ⟨others, hperm, hothers⟩
    exact (hothers.imp fun _ _ => Or.inl).of_perm hperm.symm fun _ _ => Or.symm
  · intro h
    -- The coins of amount zero are moved to the front, and keep their order, as the others do.
    let zero : Coin → Bool := fun c => c.amount = 0
    refine ⟨coins.filter zero ++ coins.filter fun c => !zero c,
      (List.filter_append_perm zero coins).symm, ⟨fun c hc => ?_, ?_⟩⟩
    · -- Either part is taken from the coins, whose denominations are proper.
      rcases List.mem_append.1 hc with hc | hc <;> exact h.proper c (List.mem_of_mem_filter hc)
    · have hzero : ∀ c ∈ coins.filter zero, c.amount = 0 := fun c hc =>
        of_decide_eq_true (List.mem_filter.1 hc).2
      refine List.pairwise_append.2 ⟨?_, ?_, fun c hc _ _ _ => hzero c hc⟩
      · -- Among the coins of amount zero, every repetition is behind one of them.
        exact (h.repeats.filter _).imp_of_mem fun hc _ _ _ => hzero _ hc
      · -- Behind the coins of amount zero, a repetition is left to none.
        refine (h.repeats.filter _).imp_of_mem fun hc hd hrepeats heq => ?_
        have hleft := (List.mem_filter.1 hd).2
        exact (hrepeats heq).resolve_right (by simpa [zero] using hleft)

/-- Coins make a set in every order exactly if only coins of amount zero share a denomination. -/
theorem accepted_in_every_order_iff {coins : List Coin} :
    (∀ others, coins.Perm others → ∃ s, ofCoins others = .ok s) ↔
      AcceptableInEveryOrder coins := by
  simp only [exists_ofCoins_iff]
  constructor
  · intro h
    obtain ⟨hproper, hrepeats⟩ := h coins (List.Perm.refl coins)
    -- In the opposite order, the other one of two coins comes first.
    have hreverse := List.pairwise_reverse.1 (h coins.reverse coins.reverse_perm.symm).repeats
    exact ⟨hproper, (hrepeats.and hreverse).imp fun ⟨hfirst, hsecond⟩ heq =>
      ⟨hfirst heq, hsecond heq.symm⟩⟩
  · exact fun h others hperm =>
      (h.of_perm hperm fun _ _ => And.symm).imp fun _ _ => And.left

/-- Repetitions are refused in every order of some coins exactly if no order of coins that are not
distinct is acceptable. -/
theorem refuses_repetitions_iff {coins : List Coin} :
    (∀ others, coins.Perm others → ((∃ s, ofCoins others = .ok s) ↔ Distinct others)) ↔
      (AcceptableInSomeOrder coins → Distinct coins) := by
  constructor
  · -- Coins that are acceptable in some order make a set in this order, and so are distinct.
    intro h hsome
    obtain ⟨others, hperm, hset⟩ := accepted_in_some_order_iff.2 hsome
    exact ((h others hperm).1 hset).of_perm hperm.symm
  · intro h others hperm
    constructor
    · intro hset
      exact (h (accepted_in_some_order_iff.1 ⟨others, hperm, hset⟩)).of_perm hperm
    · exact fun hdistinct =>
        exists_ofCoins_iff.2 ((distinct_iff.1 hdistinct).imp fun _ _ => False.elim)

/-- Either every order of some coins makes a set or none does, exactly if coins that are acceptable
in some order are so in every order. -/
theorem accepted_alike_iff {coins : List Coin} :
    (∀ others, coins.Perm others →
      ((∃ s, ofCoins coins = .ok s) ↔ ∃ s, ofCoins others = .ok s)) ↔
      (AcceptableInSomeOrder coins → AcceptableInEveryOrder coins) := by
  constructor
  · intro h hsome
    -- Some order makes a set. By assumption every other one does, and then all of them are
    -- acceptable.
    obtain ⟨others, hperm, hset⟩ := accepted_in_some_order_iff.2 hsome
    have hcoins := (h others hperm).2 hset
    exact accepted_in_every_order_iff.1 fun _ hanother => (h _ hanother).1 hcoins
  · intro h others hperm
    have hevery := fun hsome => accepted_in_every_order_iff.2 (h hsome)
    constructor
    · intro hset
      exact hevery (accepted_in_some_order_iff.1 ⟨coins, List.Perm.refl coins, hset⟩) others hperm
    · intro hset
      exact hevery (accepted_in_some_order_iff.1 ⟨others, hperm, hset⟩) coins (List.Perm.refl coins)

/-! ## Readers -/

/-- The coins decide what is read as a set: there is one exactly if the coins can be read and are
acceptable, and it holds what they amount to, whatever their order. -/
structure CoinsDecide {σ ε : Type} (coinsOf : σ → Except ε (List Coin))
    (setOf : σ → Except ε CoinSet) (x : σ) : Prop where
  read_iff : ∀ s, setOf x = .ok s ↔ ∃ coins, coinsOf x = .ok coins ∧ Acceptable coins ∧
    ∀ denom, s.amountOf denom = totalOf coins denom
  same : ∀ y coins others, coinsOf x = .ok coins → coinsOf y = .ok others →
    coins.Perm others → ∀ s t, setOf x = .ok s → setOf y = .ok t → s = t

/-- It is enough that a set is made of the coins that are read. -/
theorem CoinsDecide.of_ofCoins {σ ε : Type} {coinsOf : σ → Except ε (List Coin)}
    {setOf : σ → Except ε CoinSet}
    (h : ∀ x s, setOf x = .ok s ↔ ∃ coins, coinsOf x = .ok coins ∧ ofCoins coins = .ok s) (x : σ) :
    CoinsDecide coinsOf setOf x where
  read_iff s := by
    rw [h]
    exact exists_congr fun coins => and_congr_right fun _ => ofCoins_eq_ok_iff
  same y coins others hx hy hperm s t hs ht := by
    -- Both readers have found the coins that are given, and have made the sets of them.
    obtain ⟨coins', hcoins, hs⟩ := (h x s).1 hs
    obtain ⟨others', hothers, ht⟩ := (h y t).1 ht
    obtain rfl := Except.ok.inj (hx.symm.trans hcoins)
    obtain rfl := Except.ok.inj (hy.symm.trans hothers)
    apply ext_amountOf
    intro denom
    rw [(ofCoins_eq_ok_iff.1 hs).2, (ofCoins_eq_ok_iff.1 ht).2, totalOf_perm hperm]

/-- The coins that a text lists: none, if there is nothing but white space. -/
def listedIn (cs : List Char) : Except CoinError (List Coin) :=
  if Text.allBlank cs then .ok [] else parseCoins (Text.split ',' cs)

/-- A text is read as a set if the coins that it lists make one. -/
theorem parse_eq_ok_iff {cs : List Char} {s : CoinSet} :
    parse cs = .ok s ↔ ∃ coins, listedIn cs = .ok coins ∧ ofCoins coins = .ok s := by
  unfold parse listedIn
  -- A blank text lists no coins, and they make the empty set.
  split
  · have hnone : ofCoins [] = .ok empty := rfl
    simp [hnone]
  · cases parseCoins (Text.split ',' cs) <;> simp

/-- A value is read as a set if the coins in it make one. -/
theorem ofJson_eq_ok_iff {j : Json} {s : CoinSet} :
    ofJson j = .ok s ↔ ∃ coins, Json.toList Coin.ofJson j = .ok coins ∧ ofCoins coins = .ok s := by
  unfold ofJson
  cases Json.toList Coin.ofJson j with
  | error f => simp
  | ok coins => cases hset : ofCoins coins <;> simp [hset]

/-- A document is read as a set if the coins in it make one. -/
theorem decodeChars_ofJson_eq_ok_iff {cs : List Char} {s : CoinSet} :
    Json.decodeChars ofJson cs = .ok s ↔
      ∃ coins, Json.decodeChars (Json.toList Coin.ofJson) cs = .ok coins ∧
        ofCoins coins = .ok s := by
  simp only [Json.decodeChars_eq_ok_iff, ofJson_eq_ok_iff]
  constructor
  · rintro ⟨j, rest, hread, hend, coins, hcoins, hset⟩
    exact ⟨coins, ⟨j, rest, hread, hend, hcoins⟩, hset⟩
  · rintro ⟨coins, ⟨j, rest, hread, hend, hcoins⟩, hset⟩
    exact ⟨j, rest, hread, hend, coins, hcoins, hset⟩

/-- Coins make a set, in every order, exactly if their denominations are proper and none comes
twice: this holds unless some do come twice and one of any two coins that share one has amount zero.
Whether there is a set does not depend on the order, unless moreover the other one of two such coins
has not. However they come, as a list, in a document or in a text, coins make a set exactly if their
denominations are proper and repeated only behind coins of amount zero, and it is the same set in
every order in which they make one. -/
theorem coins_decide (coins : List Coin) (document text : List Char) :
    ((∀ others, coins.Perm others → ((∃ s, ofCoins others = .ok s) ↔ Distinct others)) ↔
        (AcceptableInSomeOrder coins → Distinct coins)) ∧
      ((∀ others, coins.Perm others →
          ((∃ s, ofCoins coins = .ok s) ↔ ∃ s, ofCoins others = .ok s)) ↔
        (AcceptableInSomeOrder coins → AcceptableInEveryOrder coins)) ∧
      CoinsDecide Except.ok ofCoins coins ∧
      CoinsDecide (Json.decodeChars (Json.toList Coin.ofJson)) (Json.decodeChars ofJson) document ∧
      CoinsDecide listedIn parse text := by
  refine ⟨refuses_repetitions_iff, accepted_alike_iff, .of_ofCoins (fun _ s => ?_) coins,
    .of_ofCoins (fun _ _ => decodeChars_ofJson_eq_ok_iff) document,
    .of_ofCoins (fun _ _ => parse_eq_ok_iff) text⟩
  simp

/-- Two coins of one denomination, the first of amount zero, make a set. The other way round they
are refused. -/
theorem zero_hides_repetition :
    (ofCoins [⟨"utoll", 0⟩, ⟨"utoll", 5⟩]).isOk = true ∧
      ofCoins [⟨"utoll", 5⟩, ⟨"utoll", 0⟩] = .error (.duplicateDenom "utoll") := by
  decide

end CoinSet

end ChainEconomy
