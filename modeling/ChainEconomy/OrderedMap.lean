import ChainEconomy.KeyOrder

/-! # Ordered maps

A finite map kept as a list of entries whose keys strictly ascend. Two maps with the same entries
are therefore equal, and listing a map needs no sorting. `find?` is the view: every operation is
described by what it does to look-ups, and `ext_find?` says that look-ups determine the map. -/

namespace ChainEconomy

open KeyOrder

/-- A finite map: entries in strictly ascending order of their keys. -/
structure OrderedMap (κ υ : Type) [KeyOrder κ] where
  entries : List (κ × υ)
  ascending : entries.Pairwise fun a b => Before a.1 b.1

namespace OrderedMap

variable {κ υ : Type} [KeyOrder κ]

/-! ## Operations on ascending entries -/

/-- The value under a key; the search stops at the first larger key. -/
def findIn (k : κ) : List (κ × υ) → Option υ
  | [] => none
  | e :: rest =>
    match cmp k e.1 with
    -- All keys from here on are larger.
    | .lt => none
    | .eq => some e.2
    | .gt => findIn k rest

/-- Puts a value under a key, in place of the old one if there is one. -/
def insertIn (k : κ) (v : υ) : List (κ × υ) → List (κ × υ)
  | [] => [(k, v)]
  | e :: rest =>
    match cmp k e.1 with
    | .lt => (k, v) :: e :: rest
    | .eq => (k, v) :: rest
    | .gt => e :: insertIn k v rest

/-- Drops a key and its value. -/
def eraseIn (k : κ) : List (κ × υ) → List (κ × υ)
  | [] => []
  | e :: rest =>
    match cmp k e.1 with
    | .lt => e :: rest
    | .eq => rest
    | .gt => e :: eraseIn k rest

/-- An entry after an insertion is the new one or was there before. -/
theorem mem_insertIn {k : κ} {v : υ} {l : List (κ × υ)} {e : κ × υ} (h : e ∈ insertIn k v l) :
    e = (k, v) ∨ e ∈ l := by
  induction l with
  | nil => simpa [insertIn] using h
  | cons d rest ih =>
    simp only [insertIn] at h
    split at h
    · simpa using h
    · rcases List.mem_cons.1 h with h | h
      · exact .inl h
      · exact .inr (List.mem_cons_of_mem _ h)
    · rcases List.mem_cons.1 h with h | h
      · exact .inr (h ▸ List.mem_cons_self)
      · exact (ih h).imp_right (List.mem_cons_of_mem _)

/-- An entry left by an erasure was there before. -/
theorem mem_of_mem_eraseIn {k : κ} {l : List (κ × υ)} {e : κ × υ} (h : e ∈ eraseIn k l) :
    e ∈ l := by
  induction l with
  | nil => simp [eraseIn] at h
  | cons d rest ih =>
    simp only [eraseIn] at h
    split at h
    · exact h
    · exact List.mem_cons_of_mem _ h
    · rcases List.mem_cons.1 h with h | h
      · exact h ▸ List.mem_cons_self
      · exact List.mem_cons_of_mem _ (ih h)

/-- Inserting keeps the keys strictly ascending. -/
theorem insertIn_ascending (k : κ) (v : υ) {l : List (κ × υ)}
    (h : l.Pairwise fun a b => Before a.1 b.1) :
    (insertIn k v l).Pairwise fun a b => Before a.1 b.1 := by
  induction l with
  | nil => simp [insertIn]
  | cons e rest ih =>
    obtain ⟨he, hrest⟩ := List.pairwise_cons.1 h
    simp only [insertIn]
    split
    · next hc =>
      refine List.pairwise_cons.2 ⟨fun d hd => ?_, h⟩
      rcases List.mem_cons.1 hd with rfl | hd
      · exact hc
      · exact Before.trans hc (he d hd)
    · next hc =>
      -- The key is there already; the new entry takes the place of the old one.
      rw [eq_of_cmp hc]
      exact List.pairwise_cons.2 ⟨he, hrest⟩
    · next hc =>
      refine List.pairwise_cons.2 ⟨fun d hd => ?_, ih hrest⟩
      rcases mem_insertIn hd with rfl | hd
      · exact cmp_gt_iff.1 hc
      · exact he d hd

/-- Erasing keeps the keys strictly ascending. -/
theorem eraseIn_ascending (k : κ) {l : List (κ × υ)}
    (h : l.Pairwise fun a b => Before a.1 b.1) :
    (eraseIn k l).Pairwise fun a b => Before a.1 b.1 := by
  induction l with
  | nil => simp [eraseIn]
  | cons e rest ih =>
    obtain ⟨he, hrest⟩ := List.pairwise_cons.1 h
    simp only [eraseIn]
    split
    · exact h
    · exact hrest
    · exact List.pairwise_cons.2 ⟨fun d hd => he d (mem_of_mem_eraseIn hd), ih hrest⟩

/-- A key smaller than all others is not found. -/
theorem findIn_eq_none {k : κ} {l : List (κ × υ)} (h : ∀ e ∈ l, Before k e.1) :
    findIn k l = none := by
  cases l with
  | nil => rfl
  | cons e rest =>
    have : cmp k e.1 = .lt := h e List.mem_cons_self
    simp [findIn, this]

/-- An insertion is seen under its own key and under no other, whether or not the keys ascend. -/
theorem findIn_insertIn [DecidableEq κ] (k : κ) (v : υ) (x : κ) (l : List (κ × υ)) :
    findIn x (insertIn k v l) = if x = k then some v else findIn x l := by
  induction l with
  | nil =>
    by_cases h : x = k
    · subst h; simp [insertIn, findIn, cmp_self]
    · simp only [insertIn, findIn, h, if_false]
      split
      · rfl
      · next hc => exact absurd (eq_of_cmp hc) h
      · rfl
  | cons e rest ih =>
    simp only [insertIn]
    split
    · next hc =>
      -- The new entry goes in front of `e`; a search for a smaller key stops at it, and would have
      -- stopped at `e`.
      by_cases h : x = k
      · subst h; simp [findIn, cmp_self]
      · rw [if_neg h, findIn]
        split
        · next hx => rw [findIn, show cmp x e.1 = .lt from lt_trans hx hc]
        · next hx => exact absurd (eq_of_cmp hx) h
        · rfl
    · next hc =>
      -- `e` is replaced, and its key compares with `x` as `k` does.
      by_cases h : x = k
      · subst h; simp [findIn, cmp_self]
      · simp only [if_neg h, findIn, ← eq_of_cmp hc]
        cases hx : cmp x k with
        | lt => rfl
        | eq => exact absurd (eq_of_cmp hx) h
        | gt => rfl
    · next hc =>
      by_cases h : x = k
      · subst h; simp [findIn, hc, ih]
      · simp only [findIn, ih, h, if_false]

/-- An erasure is seen under its own key and under no other. The keys have to ascend: a second entry
under the key would come to light. -/
theorem findIn_eraseIn [DecidableEq κ] (k x : κ) {l : List (κ × υ)}
    (hl : l.Pairwise fun a b => Before a.1 b.1) :
    findIn x (eraseIn k l) = if x = k then none else findIn x l := by
  induction l with
  | nil => simp [eraseIn, findIn]
  | cons e rest ih =>
    obtain ⟨he, hrest⟩ := List.pairwise_cons.1 hl
    simp only [eraseIn]
    split
    · next hc =>
      -- The search for `k` stopped at a larger key, so `k` is not there.
      by_cases h : x = k
      · subst h; simp [findIn, hc]
      · rw [if_neg h]
    · next hc =>
      -- `e` is dropped; the keys behind it are larger, so `k` is not found among them.
      have hk := eq_of_cmp hc
      by_cases h : x = k
      · subst h
        rw [if_pos rfl]
        exact findIn_eq_none fun d hd => hk ▸ he d hd
      · rw [if_neg h, findIn]
        split
        · next hx => exact findIn_eq_none fun d hd => Before.trans hx (he d hd)
        · next hx => exact absurd ((eq_of_cmp hx).trans hk.symm) h
        · rfl
    · next hc =>
      by_cases h : x = k
      · subst h; simp [findIn, hc, ih hrest]
      · simp only [findIn, ih hrest, h, if_false]

/-- In ascending entries what is found under a key is what stands there. -/
theorem findIn_eq_some_iff [DecidableEq κ] {k : κ} {v : υ} {l : List (κ × υ)}
    (hl : l.Pairwise fun a b => Before a.1 b.1) : findIn k l = some v ↔ (k, v) ∈ l := by
  induction l with
  | nil => simp [findIn]
  | cons e rest ih =>
    obtain ⟨he, hrest⟩ := List.pairwise_cons.1 hl
    -- A key before that of `e` is not in the rest, whose keys come after that of `e`.
    have smaller : ∀ {a : κ}, cmp k a = .lt → Before a e.1 ∨ a = e.1 → (k, v) ∉ rest := by
      intro a ha hae hmem
      have hke : Before k e.1 := by
        rcases hae with h | h
        · exact Before.trans ha h
        · exact h ▸ ha
      exact not_before_self k (Before.trans hke (he _ hmem))
    rw [findIn, List.mem_cons]
    split
    · next hc =>
      refine ⟨by simp, ?_⟩
      rintro (rfl | h)
      · exact absurd hc (by simp [cmp_self])
      · exact absurd h (smaller hc (.inr rfl))
    · next hc =>
      have hk := eq_of_cmp hc
      constructor
      · intro h
        refine .inl ?_
        rw [hk, ← Option.some.inj h]
      · rintro (rfl | h)
        · rfl
        · exact absurd (he _ h) (by rw [← hk]; exact not_before_self k)
    · next hc =>
      rw [ih hrest]
      refine ⟨.inr, ?_⟩
      rintro (rfl | h)
      · exact absurd hc (by simp [cmp_self])
      · exact h

/-! ## Maps -/

/-- The map without entries. -/
def empty : OrderedMap κ υ := ⟨[], .nil⟩

instance : EmptyCollection (OrderedMap κ υ) := ⟨empty⟩

instance : Inhabited (OrderedMap κ υ) := ⟨empty⟩

instance [DecidableEq κ] [DecidableEq υ] : DecidableEq (OrderedMap κ υ) := fun a b =>
  decidable_of_iff (a.entries = b.entries) (by cases a; cases b; simp)

/-- The value under a key. -/
def find? (m : OrderedMap κ υ) (k : κ) : Option υ := findIn k m.entries

/-- Whether a key has a value. -/
def contains (m : OrderedMap κ υ) (k : κ) : Bool := (m.find? k).isSome

/-- Puts a value under a key, in place of the old one if there is one. -/
def insert (m : OrderedMap κ υ) (k : κ) (v : υ) : OrderedMap κ υ :=
  ⟨insertIn k v m.entries, insertIn_ascending k v m.ascending⟩

/-- Drops a key and its value; a key that is absent is no loss. -/
def erase (m : OrderedMap κ υ) (k : κ) : OrderedMap κ υ :=
  ⟨eraseIn k m.entries, eraseIn_ascending k m.ascending⟩

/-- The entries whose key and value pass a test. -/
def filter (m : OrderedMap κ υ) (p : κ × υ → Bool) : OrderedMap κ υ :=
  ⟨m.entries.filter p, m.ascending.filter p⟩

/-- The number of entries. -/
def size (m : OrderedMap κ υ) : Nat := m.entries.length

/-- The keys, ascending. -/
def keys (m : OrderedMap κ υ) : List κ := m.entries.map Prod.fst

/-- The values, in the order of their keys. -/
def values (m : OrderedMap κ υ) : List υ := m.entries.map Prod.snd

/-! ## Look-ups determine the map -/

@[simp] theorem find?_empty (k : κ) : (empty : OrderedMap κ υ).find? k = none := rfl

/-- Look-ups after an insertion. -/
theorem find?_insert [DecidableEq κ] (m : OrderedMap κ υ) (k x : κ) (v : υ) :
    (m.insert k v).find? x = if x = k then some v else m.find? x :=
  findIn_insertIn k v x m.entries

@[simp] theorem find?_insert_self [DecidableEq κ] (m : OrderedMap κ υ) (k : κ) (v : υ) :
    (m.insert k v).find? k = some v := by
  simp [find?_insert]

/-- An insertion is not seen under other keys. -/
theorem find?_insert_of_ne [DecidableEq κ] (m : OrderedMap κ υ) {k x : κ} (v : υ) (h : x ≠ k) :
    (m.insert k v).find? x = m.find? x := by
  simp [find?_insert, h]

/-- Look-ups after an erasure. -/
theorem find?_erase [DecidableEq κ] (m : OrderedMap κ υ) (k x : κ) :
    (m.erase k).find? x = if x = k then none else m.find? x :=
  findIn_eraseIn k x m.ascending

/-- What is found under a key is the entry with that key. -/
theorem find?_eq_some_iff [DecidableEq κ] {m : OrderedMap κ υ} {k : κ} {v : υ} :
    m.find? k = some v ↔ (k, v) ∈ m.entries :=
  findIn_eq_some_iff m.ascending

/-- An entry after an insertion is the new one or was there before. -/
theorem mem_entries_insert {m : OrderedMap κ υ} {k : κ} {v : υ} {e : κ × υ}
    (h : e ∈ (m.insert k v).entries) : e = (k, v) ∨ e ∈ m.entries := mem_insertIn h

/-- An entry left by an erasure was there before. -/
theorem mem_entries_of_mem_erase {m : OrderedMap κ υ} {k : κ} {e : κ × υ}
    (h : e ∈ (m.erase k).entries) : e ∈ m.entries := mem_of_mem_eraseIn h

/-- Two maps that answer every look-up alike are equal. -/
theorem ext_find? [DecidableEq κ] {a b : OrderedMap κ υ} (h : ∀ k, a.find? k = b.find? k) :
    a = b := by
  have mem : ∀ e, e ∈ a.entries ↔ e ∈ b.entries := fun e => by
    rw [← find?_eq_some_iff (k := e.1) (v := e.2), ← find?_eq_some_iff (k := e.1) (v := e.2), h]
  -- Ascending entries do not repeat, so two such lists with the same members are permutations of
  -- each other, and there is only one ascending arrangement.
  have nodup : ∀ m : OrderedMap κ υ, m.entries.Nodup := fun m =>
    m.ascending.imp fun hab => fun heq => not_before_self _ (heq ▸ hab)
  have perm : a.entries.Perm b.entries :=
    (List.perm_ext_iff_of_nodup (nodup a) (nodup b)).2 mem
  have eq : a.entries = b.entries :=
    perm.eq_of_pairwise
      (fun x y _ _ hxy hyx => absurd (Before.trans hxy hyx) (not_before_self x.1))
      a.ascending b.ascending
  cases a; cases b; cases eq; rfl

end OrderedMap

end ChainEconomy
