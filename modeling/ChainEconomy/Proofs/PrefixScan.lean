import ChainEconomy.Store.Basic

/-!
# Searches by the start of a key

The keys with a common start are neighbours in the order of keys: a key that starts with given bytes
does not stand before them, and what stands between such a key and the bytes themselves starts with
them too. A search that skips the smaller keys and ends at the first one that does not match
therefore finds all the keys that do.

## Key results

- `startsWith_of_before`: keys with a common start are neighbours
- `entriesUnder_eq_filter`: the search finds what a test of every key would find
-/

namespace ChainEconomy.Store

open KeyOrder

/-- A key stands behind the bytes that it starts with, unless it is those bytes. -/
theorem not_before_of_startsWith {start key : Bytes} (h : startsWith start key = true) :
    ¬ Before key start := by
  obtain ⟨rest, rfl⟩ := List.isPrefixOf_iff_prefix.1 h
  -- By induction on the bytes that the key starts with: a byte is not smaller than itself.
  induction start with
  | nil => cases rest <;> exact (nomatch ·)
  | cons b start ih =>
    intro hbefore
    have hcmp : (KeyOrder.cmp b b).then (KeyOrder.cmp (start ++ rest) start) = .lt := hbefore
    rw [cmp_self] at hcmp
    exact ih (List.isPrefixOf_iff_prefix.2 ⟨rest, rfl⟩) hcmp

/-- What stands between given bytes and a key that starts with them starts with them as well. -/
theorem startsWith_of_before {start key later : Bytes} (hlow : ¬ Before key start)
    (hbefore : Before key later) (hlater : startsWith start later = true) :
    startsWith start key = true := by
  -- By induction on the bytes in question, along with both keys.
  induction start generalizing key later with
  | nil => rfl
  | cons b start ih =>
    obtain ⟨rest, rfl⟩ := List.isPrefixOf_iff_prefix.1 hlater
    cases key with
    | nil => exact absurd rfl hlow
    | cons k key =>
      have hcmp : (KeyOrder.cmp k b).then (KeyOrder.cmp key (start ++ rest)) = .lt := hbefore
      have hnot : ¬ (KeyOrder.cmp k b).then (KeyOrder.cmp key start) = .lt := hlow
      -- The first byte of the key cannot differ: it is neither smaller nor larger.
      cases hk : KeyOrder.cmp k b with
      | lt => exact absurd (by rw [hk]; rfl) hnot
      | gt => rw [hk] at hcmp; cases hcmp
      | eq =>
        rw [hk] at hcmp hnot
        have htail := ih hnot hcmp (List.isPrefixOf_iff_prefix.2 ⟨rest, rfl⟩)
        rw [eq_of_cmp hk]
        exact List.isPrefixOf_iff_prefix.2
          ((List.prefix_cons_inj b).2 (List.isPrefixOf_iff_prefix.1 htail))

section

variable {start : Bytes} {l : List (Bytes × Bytes)}

/-- Behind the smaller keys, the first one that does not match ends the matching ones. -/
private theorem takeWhile_eq_filter (hasc : l.Pairwise fun a b => Before a.1 b.1)
    (hlow : ∀ e ∈ l, ¬ Before e.1 start) :
    (l.takeWhile fun e => startsWith start e.1) = l.filter fun e => startsWith start e.1 := by
  -- By induction on the entries. Behind the first one that does not match, none does.
  induction l with
  | nil => rfl
  | cons e rest ih =>
    obtain ⟨he, hrest⟩ := List.pairwise_cons.1 hasc
    rw [List.takeWhile_cons, List.filter_cons]
    split
    · rw [ih hrest fun d hd => hlow d (List.mem_cons_of_mem _ hd)]
    · next hstart =>
      rw [eq_comm, List.filter_eq_nil_iff]
      exact fun d hd hlater =>
        hstart (startsWith_of_before (hlow e List.mem_cons_self) (he d hd) hlater)

/-- Behind the smaller keys, the matching ones come first. The ones that are skipped match nothing.
-/
private theorem search_eq_filter (hasc : l.Pairwise fun a b => Before a.1 b.1) :
    ((l.dropWhile fun e => decide (Before e.1 start)).takeWhile fun e => startsWith start e.1) =
      l.filter fun e => startsWith start e.1 := by
  -- By induction on the entries.
  induction l with
  | nil => rfl
  | cons e rest ih =>
    obtain ⟨he, hrest⟩ := List.pairwise_cons.1 hasc
    rw [List.dropWhile_cons]
    split
    · next hbefore =>
      have hstart : ¬ startsWith start e.1 = true := fun h =>
        not_before_of_startsWith h (of_decide_eq_true hbefore)
      rw [ih hrest, List.filter_cons, if_neg hstart]
    · next hbefore =>
      -- The first key that is not smaller: no later one is.
      refine takeWhile_eq_filter hasc fun d hd hd' => hbefore (decide_eq_true ?_)
      rcases List.mem_cons.1 hd with rfl | hd
      · exact hd'
      · exact (he d hd).trans hd'

end

/-- The search finds the entries whose keys start with the given bytes. -/
theorem entriesUnder_eq_filter (start : Bytes) (m : OrderedMap Bytes Bytes) :
    entriesUnder start m = m.entries.filter fun e => startsWith start e.1 :=
  search_eq_filter m.ascending

end ChainEconomy.Store
