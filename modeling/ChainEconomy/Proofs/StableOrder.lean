import Mathlib

/-!
# Stable order

A list is sorted by a key in a stable way if its keys ascend and the items of each key stand as they
did before. No two lists have this in common, so that there is one such order. It is what sorting
gives, and also what one gets by taking the items key by key.

## Key results

- `eq_of_pairwise_of_filter`: lists are equal if their keys ascend and the items of each key agree
- `filter_mergeSort`: sorting leaves the items of each key as they are
- `flatMap_filter_eq_mergeSort`: items that are taken key by key are sorted
-/

namespace ChainEconomy

variable {α : Type} {key : α → UInt64}

/-- The first key is the least of those that ascend. -/
theorem key_le_of_mem {a x : α} {as : List α}
    (h : (a :: as).Pairwise fun a b => key a ≤ key b) (hx : x ∈ a :: as) : key a ≤ key x := by
  rcases List.mem_cons.1 hx with rfl | hx
  · exact UInt64.le_refl _
  · exact (List.pairwise_cons.1 h).1 x hx

/-- Lists with the same items of each key have the same items. -/
theorem mem_iff_of_filter {as bs : List α}
    (h : ∀ k, as.filter (key · = k) = bs.filter (key · = k)) (x : α) : x ∈ as ↔ x ∈ bs := by
  have hx : x ∈ as.filter (key · = key x) ↔ x ∈ bs.filter (key · = key x) := by rw [h]
  simpa only [List.mem_filter, decide_true, and_true] using hx

/-- Lists whose keys ascend are equal if they have the same items of each key in the same order. -/
theorem eq_of_pairwise_of_filter {as bs : List α} (ha : as.Pairwise fun a b => key a ≤ key b)
    (hb : bs.Pairwise fun a b => key a ≤ key b)
    (h : ∀ k, as.filter (key · = k) = bs.filter (key · = k)) : as = bs := by
  -- By induction on the first list, for any second one.
  induction as generalizing bs with
  | nil =>
    have hnone : ∀ x, x ∉ bs := fun x hx => nomatch (mem_iff_of_filter h x).2 hx
    exact (List.eq_nil_iff_forall_not_mem.2 hnone).symm
  | cons a as ih =>
    have hmem := mem_iff_of_filter h
    cases bs with
    | nil => exact nomatch (hmem a).1 List.mem_cons_self
    | cons b bs =>
      -- Each first item is in the other list, where no key is smaller than the first one.
      have hkey : key b = key a :=
        UInt64.le_antisymm (key_le_of_mem hb ((hmem a).1 List.mem_cons_self))
          (key_le_of_mem ha ((hmem b).2 List.mem_cons_self))
      have hfirst := h (key a)
      simp only [List.filter_cons, hkey, decide_true, if_true] at hfirst
      obtain rfl : a = b := (List.cons_eq_cons.1 hfirst).1
      have hrest : ∀ k, as.filter (key · = k) = bs.filter (key · = k) := fun k => by
        have hk := h k
        rw [List.filter_cons, List.filter_cons] at hk
        split at hk
        · exact (List.cons_eq_cons.1 hk).2
        · exact hk
      rw [ih (List.pairwise_cons.1 ha).2 (List.pairwise_cons.1 hb).2 hrest]

/-- The order by keys is transitive. -/
theorem le_key_trans (a b c : α) (hab : decide (key a ≤ key b) = true)
    (hbc : decide (key b ≤ key c) = true) : decide (key a ≤ key c) = true :=
  decide_eq_true (UInt64.le_trans (of_decide_eq_true hab) (of_decide_eq_true hbc))

/-- Any two items are in order by their keys, in one way or the other. -/
theorem le_key_total (a b : α) : (decide (key a ≤ key b) || decide (key b ≤ key a)) = true := by
  simpa only [Bool.or_eq_true, decide_eq_true_eq] using UInt64.le_total (key a) (key b)

/-- Sorting puts the keys in order. -/
theorem mergeSort_ascending (items : List α) :
    (items.mergeSort (key · ≤ key ·)).Pairwise fun a b => key a ≤ key b :=
  (List.pairwise_mergeSort le_key_trans le_key_total items).imp of_decide_eq_true

/-- Items of one key are in every order by key. -/
theorem filter_ascending (items : List α) (k : UInt64) :
    (items.filter (key · = k)).Pairwise fun a b => key a ≤ key b := by
  refine List.pairwise_of_forall_mem_list fun a ha b hb => ?_
  rw [of_decide_eq_true (List.mem_filter.1 ha).2, of_decide_eq_true (List.mem_filter.1 hb).2]
  exact UInt64.le_refl k

/-- Sorting by a key leaves the items of each key as they are. -/
theorem filter_mergeSort (items : List α) (k : UInt64) :
    (items.mergeSort (key · ≤ key ·)).filter (key · = k) = items.filter (key · = k) := by
  have hkept : (items.filter (key · = k)).Sublist (items.mergeSort (key · ≤ key ·)) :=
    List.sublist_mergeSort le_key_trans le_key_total
      ((filter_ascending items k).imp decide_eq_true) List.filter_sublist
  have hfilter := hkept.filter (key · = k)
  rw [List.filter_filter] at hfilter
  simp only [Bool.and_self] at hfilter
  exact (hfilter.eq_of_length ((List.mergeSort_perm items _).filter _).length_eq.symm).symm

/-- Of the items taken key by key, those of one key are taken together, and once. -/
theorem filter_flatMap_filter {ks : List UInt64} (hnodup : ks.Nodup) (items : List α) (k : UInt64) :
    (ks.flatMap fun k' => items.filter (key · = k')).filter (key · = k) =
      if k ∈ ks then items.filter (key · = k) else [] := by
  -- By induction on the keys, none of which comes twice.
  induction ks with
  | nil => rfl
  | cons k' ks ih =>
    obtain ⟨hnew, hnodup⟩ := List.nodup_cons.1 hnodup
    rw [List.flatMap_cons, List.filter_append, ih hnodup, List.filter_filter]
    by_cases heq : k = k'
    · subst heq
      simp [hnew]
    · have hnone : ∀ a ∈ items, ¬ (decide (key a = k) && decide (key a = k')) = true := by
        intro a _ hboth
        simp only [Bool.and_eq_true, decide_eq_true_eq] at hboth
        exact heq (hboth.1.symm.trans hboth.2)
      rw [List.filter_eq_nil_iff.2 hnone, List.nil_append]
      simp [heq]

/-- Taken key by key, in the order of the keys, the items are sorted. -/
theorem flatMap_filter_eq_mergeSort {ks : List UInt64} (hks : ks.Pairwise (· < ·)) {items : List α}
    (hitems : ∀ a ∈ items, key a ∈ ks) :
    (ks.flatMap fun k => items.filter (key · = k)) = items.mergeSort (key · ≤ key ·) := by
  -- The keys ascend on both sides, so that it is enough to compare the items of each key.
  refine eq_of_pairwise_of_filter ?_ (mergeSort_ascending items) fun k => ?_
  · refine List.pairwise_flatMap.2
      ⟨fun k _ => filter_ascending items k, hks.imp fun hlt a ha b hb => ?_⟩
    rw [of_decide_eq_true (List.mem_filter.1 ha).2, of_decide_eq_true (List.mem_filter.1 hb).2]
    exact UInt64.le_of_lt hlt
  · rw [filter_flatMap_filter (hks.imp UInt64.ne_of_lt), filter_mergeSort]
    split
    · rfl
    · next hk =>
      refine (List.filter_eq_nil_iff.2 fun a ha hkey => hk ?_).symm
      rw [← of_decide_eq_true hkey]
      exact hitems a ha

end ChainEconomy
