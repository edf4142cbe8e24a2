/-! # Splitting text

Text cut at every occurrence of a character, or at the first one only. -/

namespace ChainEconomy.Text

/-- The parts between the occurrences of a separator; there is always at least one part. -/
def split (sep : Char) : List Char → List (List Char)
  | [] => [[]]
  | c :: rest =>
    if c = sep then [] :: split sep rest
    else
      match split sep rest with
      | [] => [[c]]
      | part :: parts => (c :: part) :: parts

/-- The text before the first occurrence of a separator and the text after it. -/
def splitOnce? (sep : Char) : List Char → Option (List Char × List Char)
  | [] => none
  | c :: rest =>
    if c = sep then some ([], rest)
    else
      match splitOnce? sep rest with
      | none => none
      | some (before, after) => some (c :: before, after)

/-- Parts joined by a separator between them. -/
def join (sep : Char) : List (List Char) → List Char
  | [] => []
  | [part] => part
  | part :: parts => part ++ sep :: join sep parts

/-- A part without separators in front of a separator is the first part. -/
theorem split_append_cons {sep : Char} {part : List Char} (h : sep ∉ part) (rest : List Char) :
    split sep (part ++ sep :: rest) = part :: split sep rest := by
  induction part with
  | nil => simp [split]
  | cons c part ih =>
    have hc : c ≠ sep := fun e => h (e ▸ List.mem_cons_self)
    simp [split, hc, ih fun hm => h (List.mem_cons_of_mem _ hm)]

/-- A text without separators is its only part. -/
theorem split_eq_singleton {sep : Char} {part : List Char} (h : sep ∉ part) :
    split sep part = [part] := by
  induction part with
  | nil => rfl
  | cons c part ih =>
    have hc : c ≠ sep := fun e => h (e ▸ List.mem_cons_self)
    simp [split, hc, ih fun hm => h (List.mem_cons_of_mem _ hm)]

/-- Splitting undoes joining when no part holds a separator. -/
theorem split_join {sep : Char} {parts : List (List Char)} (hne : parts ≠ [])
    (h : ∀ part ∈ parts, sep ∉ part) : split sep (join sep parts) = parts := by
  induction parts with
  | nil => exact absurd rfl hne
  | cons part parts ih =>
    cases parts with
    | nil => exact split_eq_singleton (h part List.mem_cons_self)
    | cons next parts =>
      rw [join, split_append_cons (h part List.mem_cons_self),
        ih (by simp) fun p hp => h p (List.mem_cons_of_mem _ hp)]
      simp

/-- A text is split at the first separator. -/
theorem splitOnce?_append_cons {sep : Char} {before : List Char} (h : sep ∉ before)
    (after : List Char) : splitOnce? sep (before ++ sep :: after) = some (before, after) := by
  induction before with
  | nil => simp [splitOnce?]
  | cons c before ih =>
    have hc : c ≠ sep := fun e => h (e ▸ List.mem_cons_self)
    simp [splitOnce?, hc, ih fun hm => h (List.mem_cons_of_mem _ hm)]

/-- A text is split where a separator stands that has none before it. -/
theorem splitOnce?_eq_some_iff {sep : Char} {cs before after : List Char} :
    splitOnce? sep cs = some (before, after) ↔ cs = before ++ sep :: after ∧ sep ∉ before := by
  refine ⟨fun h => ?_, fun ⟨hcs, hbefore⟩ => hcs ▸ splitOnce?_append_cons hbefore after⟩
  induction cs generalizing before with
  | nil => cases h
  | cons c rest ih =>
    simp only [splitOnce?] at h
    split at h
    · next hc =>
      cases h
      exact ⟨by rw [hc, List.nil_append], List.not_mem_nil⟩
    · next hc =>
      split at h
      · cases h
      · next hrest =>
        cases h
        obtain ⟨rfl, hbefore⟩ := ih hrest
        exact ⟨rfl, fun hmem => (List.mem_cons.1 hmem).elim (fun heq => hc heq.symm) hbefore⟩

/-- A text without separators is not split. -/
theorem splitOnce?_eq_none_iff {sep : Char} {cs : List Char} :
    splitOnce? sep cs = none ↔ sep ∉ cs := by
  induction cs with
  | nil => simp [splitOnce?]
  | cons c rest ih =>
    simp only [splitOnce?, List.mem_cons, not_or]
    by_cases hc : c = sep
    · simp [hc]
    · rw [if_neg hc, ← ih]
      cases splitOnce? sep rest <;> simp [Ne.symm hc]

end ChainEconomy.Text
