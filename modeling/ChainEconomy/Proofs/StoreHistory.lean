import ChainEconomy.Proofs.AttemptRules
import ChainEconomy.Proofs.PrefixScan
import ChainEconomy.Proofs.RecordRoundTrip

/-!
# Searches after a history of changes

A store in memory takes every change. What it holds afterwards under a key is what the last change
of that key says, and without such a change what it has held before. A search by the start of a key
gives the part of these contents that it asks for, once each and in the order of the bytes; there is
one list only that does so.

## Key results

- `before_iff_lt`: the order of keys is the lexicographic one
- `Change.find?_of_on`, `Change.find?_of_allOn`: what one change does to the contents, and what many
  do
- `IsScan.unique`, `scan_eq_ok_iff`: searches, without the way they are made
- `scan_after_changes`: searches behind any history
-/

namespace ChainEconomy.Store

open KeyOrder

/-- A store in memory, which never fails. -/
def memory (m : OrderedMap Bytes Bytes) : Store := ⟨m, .sound⟩

/-! ## Contents after changes -/

/-- A change of what is stored under a key. -/
inductive Change where
  | set (key value : Bytes)
  | delete (key : Bytes)

namespace Change

/-- The key that is changed. -/
def key : Change → Bytes
  | .set key _ => key
  | .delete key => key

/-- What is stored under the key afterwards, if anything is. -/
def value? : Change → Option Bytes
  | .set _ value => some value
  | .delete _ => none

/-- Makes a change. -/
def on : Change → Store → Except StorageError Store
  | .set key value, s => s.set key value
  | .delete key, s => s.delete key

/-- Makes changes, one after the other. -/
def allOn : List Change → Store → Except StorageError Store
  | [], s => .ok s
  | c :: rest, s => do
    let s ← c.on s
    allOn rest s

/-- The last change of a key. -/
def last? (key : Bytes) (changes : List Change) : Option Change :=
  changes.reverse.find? fun c => c.key = key

/-- What is stored under each key after changes: what the last change of the key says, or what has
been there before. -/
def contentsAfter (changes : List Change) (contents : Bytes → Option Bytes) (key : Bytes) :
    Option Bytes :=
  match last? key changes with
  | none => contents key
  | some c => c.value?

/-- The last change of a key is among the later ones, if any of them is about it. -/
theorem last?_cons (key : Bytes) (c : Change) (rest : List Change) :
    last? key (c :: rest) = (last? key rest).or (if c.key = key then some c else none) := by
  rw [last?, List.reverse_cons, List.find?_append, List.find?_singleton]
  simp only [decide_eq_true_eq]
  rfl

/-- Later changes start from the contents that the first one leaves behind. -/
theorem contentsAfter_cons (c : Change) (rest : List Change) (contents : Bytes → Option Bytes) :
    contentsAfter (c :: rest) contents =
      contentsAfter rest (Function.update contents c.key c.value?) := by
  funext key
  rw [contentsAfter, contentsAfter, last?_cons]
  cases last? key rest with
  | some later => rfl
  | none =>
    -- Nothing after the first change is about the key.
    rw [Option.none_or, Function.update_apply]
    by_cases h : c.key = key
    · rw [if_pos h, if_pos h.symm]
    · rw [if_neg h, if_neg (Ne.symm h)]

/-- A change is made, and changes what is stored under its key. -/
theorem find?_of_on (c : Change) (m : OrderedMap Bytes Bytes) :
    ∃ after, c.on (memory m) = .ok (memory after) ∧
      after.find? = Function.update m.find? c.key c.value? := by
  cases c with
  | set key value =>
    have hset : (memory m).set key value = .ok (memory (m.insert key value)) :=
      set_eq_ok_iff.2 ⟨rfl, rfl⟩
    refine ⟨_, hset, funext fun x => ?_⟩
    rw [OrderedMap.find?_insert, Function.update_apply]
    rfl
  | delete key =>
    have hdelete : (memory m).delete key = .ok (memory (m.erase key)) :=
      delete_eq_ok_iff.2 ⟨rfl, rfl⟩
    refine ⟨_, hdelete, funext fun x => ?_⟩
    rw [OrderedMap.find?_erase, Function.update_apply]
    rfl

/-- Changes are all made, and leave the contents behind that the last ones of each key say. -/
theorem find?_of_allOn (changes : List Change) (m : OrderedMap Bytes Bytes) :
    ∃ after, allOn changes (memory m) = .ok (memory after) ∧
      after.find? = contentsAfter changes m.find? := by
  -- By induction on the changes, for any contents to start from.
  induction changes generalizing m with
  | nil => exact ⟨m, rfl, rfl⟩
  | cons c rest ih =>
    obtain ⟨first, hfirst, hcontents⟩ := find?_of_on c m
    obtain ⟨after, hrest, hafter⟩ := ih first
    refine ⟨after, Except.bind_eq_ok_iff.2 ⟨_, hfirst, hrest⟩, ?_⟩
    rw [hafter, hcontents, contentsAfter_cons]

end Change

/-- To drop a key that is absent changes nothing. -/
theorem delete_absent {m : OrderedMap Bytes Bytes} {key : Bytes} (h : m.find? key = none) :
    (memory m).delete key = .ok (memory m) := by
  have hsame : m.erase key = m := by
    refine OrderedMap.ext_find? fun x => ?_
    rw [OrderedMap.find?_erase]
    split
    · next hx => rw [hx, h]
    · rfl
  exact delete_eq_ok_iff.2 ⟨rfl, congrArg memory hsame⟩

/-! ## Searches -/

/-- Keys are compared at the first byte where they differ; a key that stops first comes first. -/
theorem before_iff_lt {a b : Bytes} : Before a b ↔ a < b := by
  -- By induction on both keys: they are compared byte by byte.
  induction a generalizing b with
  | nil => cases b <;> simp [Before, KeyOrder.cmp, cmpList]
  | cons x a ih =>
    cases b with
    | nil => simp [Before, KeyOrder.cmp, cmpList]
    | cons y b =>
      have hbyte : KeyOrder.cmp x y = .lt ↔ x < y := cmpNat_eq_lt
      calc Before (x :: a) (y :: b)
          ↔ (KeyOrder.cmp x y).then (KeyOrder.cmp a b) = .lt := Iff.rfl
        _ ↔ x < y ∨ x = y ∧ a < b := by rw [Ordering.then_eq_lt, hbyte, cmp_eq_iff, ← ih]; rfl
        _ ↔ x :: a < y :: b := List.cons_lt_cons_iff.symm

/-- The part of some contents whose keys start with given bytes, once each and in the order of the
bytes. -/
structure IsScan (contents : Bytes → Option Bytes) (start : Bytes) (found : List (Bytes × Bytes)) :
    Prop where
  ascending : (found.map Prod.fst).Pairwise (· < ·)
  once : (found.map Prod.fst).Nodup
  mem_iff : ∀ key value, (key, value) ∈ found ↔ start <+: key ∧ contents key = some value

variable {contents : Bytes → Option Bytes} {start : Bytes} {found others : List (Bytes × Bytes)}

/-- The keys of a search are in the order of the store. -/
theorem IsScan.pairwise_before (h : IsScan contents start found) :
    found.Pairwise fun a b => Before a.1 b.1 :=
  (List.pairwise_map.1 h.ascending).imp before_iff_lt.2

/-- There is one such list only. -/
theorem IsScan.unique (h : IsScan contents start found) (h' : IsScan contents start others) :
    found = others := by
  -- Both lists are the entries of a map, and maps are equal if their look-ups are.
  have hmaps : (⟨found, h.pairwise_before⟩ : OrderedMap Bytes Bytes) =
      ⟨others, h'.pairwise_before⟩ := by
    refine OrderedMap.ext_find? fun key => Option.ext fun value => ?_
    rw [OrderedMap.find?_eq_some_iff, OrderedMap.find?_eq_some_iff, h.mem_iff, h'.mem_iff]
  exact congrArg OrderedMap.entries hmaps

/-- What a store looks up under a start is a search. -/
theorem isScan_entriesUnder (start : Bytes) (m : OrderedMap Bytes Bytes) :
    IsScan m.find? start (entriesUnder start m) := by
  -- Both the order and the contents are those of the map.
  have hascending : ((entriesUnder start m).map Prod.fst).Pairwise fun a b => Before a b := by
    rw [entriesUnder_eq_filter]
    exact List.pairwise_map.2 (m.ascending.filter _)
  refine ⟨hascending.imp before_iff_lt.1, hascending.imp Before.ne, fun key value => ?_⟩
  rw [entriesUnder_eq_filter, List.mem_filter, startsWith, List.isPrefixOf_iff_prefix,
    OrderedMap.find?_eq_some_iff, and_comm]

/-- A search in memory succeeds, and finds what it asks for. -/
theorem scan_eq_ok_iff {m : OrderedMap Bytes Bytes} :
    (memory m).scan start = .ok found ↔ IsScan m.find? start found := by
  have hscan : (memory m).scan start = .ok (entriesUnder start m) := rfl
  rw [hscan]
  constructor
  · intro h
    cases h
    exact isScan_entriesUnder start m
  · intro h
    rw [h.unique (isScan_entriesUnder start m)]

/-- Whatever a store in memory holds, it takes any changes. Afterwards the last change of a key says
what is under it, and a search finds the keys with a given start, each once, with what is under it,
in ascending order. To drop a key that is absent changes nothing. -/
theorem scan_after_changes (m : OrderedMap Bytes Bytes) (changes : List Change) :
    (∃ after, Change.allOn changes (memory m) = .ok (memory after) ∧
      (∀ key, (memory after).get key = .ok (Change.contentsAfter changes m.find? key)) ∧
      ∀ start, (∃ found, (memory after).scan start = .ok found) ∧
        ∀ found, (memory after).scan start = .ok found ↔
          IsScan (Change.contentsAfter changes m.find?) start found) ∧
    ∀ key, m.find? key = none → (memory m).delete key = .ok (memory m) := by
  obtain ⟨after, hafter, hcontents⟩ := Change.find?_of_allOn changes m
  refine ⟨⟨after, hafter, fun key => ?_, fun start => ⟨?_, fun found => ?_⟩⟩, fun key =>
    delete_absent⟩
  · rw [get_of_sound rfl, ← hcontents]
    rfl
  · exact ⟨_, scan_eq_ok_iff.2 (isScan_entriesUnder start after)⟩
  · rw [scan_eq_ok_iff, hcontents]

/-- Changes of keys around a start that ends in the largest byte: one key is written twice, and
another one is dropped that is absent. -/
def Change.Sample.changes : List Change :=
  [.set [1, 0xff] [1], .set [2] [3], .delete [7], .set [1, 0xff, 0] [2], .set [1, 0xff] [4]]

/-- What has been written twice is found as it was written last, and a key behind the start is not
found. -/
theorem scan_after_changes_sample :
    ∃ after found, Change.allOn Change.Sample.changes (memory .empty) = .ok after ∧
      after.scan [1, 0xff] = .ok found ∧ (found.map Prod.fst).Pairwise (· < ·) ∧
      ([1, 0xff], [4]) ∈ found ∧ ([1, 0xff], [1]) ∉ found ∧ ([1, 0xff, 0], [2]) ∈ found ∧
      ([2], [3]) ∉ found ∧ (memory .empty).delete [7] = .ok (memory .empty) := by
  obtain ⟨⟨after, hafter, -, hscan⟩, hdelete⟩ := scan_after_changes .empty Change.Sample.changes
  obtain ⟨⟨found, hfound⟩, hiff⟩ := hscan [1, 0xff]
  have hspec := (hiff found).1 hfound
  refine ⟨_, found, hafter, hfound, hspec.ascending, ?_, ?_, ?_, ?_, hdelete [7] rfl⟩ <;>
    rw [hspec.mem_iff] <;> decide +kernel

end ChainEconomy.Store
