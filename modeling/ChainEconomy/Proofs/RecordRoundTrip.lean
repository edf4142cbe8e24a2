import ChainEconomy.Mint.State
import ChainEconomy.Proofs.FixedText
import ChainEconomy.Proofs.JsonRoundTrip

/-!
# Records that are read back

A record that has been put into a store is found there again, with the value that was written, and
the records under other keys are still the ones that were there before.

## Key results

- `Store.getRecord_setRecord_self`, `Store.getRecord_setRecord_of_ne`: one record, and the others
- `Fixed.ofJson_toJson`, `BlockTime.ofJson_toJson`: numbers and times
- `Mint.State.load_save`: the state of the minter
-/

namespace ChainEconomy

/-! ## Stores -/

namespace Store

/-- A value is put under its key if the medium takes it. -/
theorem set_eq_ok_iff {s t : Store} {key value : Bytes} :
    s.set key value = .ok t ↔ s.medium.writeFailure key = none ∧
      { s with entries := s.entries.insert key value } = t := by
  unfold set
  cases s.medium.writeFailure key <;> simp

/-- A key is dropped if the medium lets it be. -/
theorem delete_eq_ok_iff {s t : Store} {key : Bytes} :
    s.delete key = .ok t ↔ s.medium.writeFailure key = none ∧
      { s with entries := s.entries.erase key } = t := by
  unfold delete
  cases s.medium.writeFailure key <;> simp

/-! Writing changes entries, and never the medium. -/

/-- Putting a value under a key leaves the medium alone. -/
theorem medium_of_set {s t : Store} {key value : Bytes} (h : s.set key value = .ok t) :
    t.medium = s.medium := by
  obtain ⟨-, rfl⟩ := set_eq_ok_iff.1 h
  rfl

/-- Dropping a key leaves the medium alone. -/
theorem medium_of_delete {s t : Store} {key : Bytes} (h : s.delete key = .ok t) :
    t.medium = s.medium := by
  obtain ⟨-, rfl⟩ := delete_eq_ok_iff.1 h
  rfl

/-! A medium that does not fail takes every value and lets every key be read. -/

/-- A sound medium takes every value, and stays sound. -/
theorem exists_set_eq_ok {s : Store} (hmedium : s.medium = .sound) (key value : Bytes) :
    ∃ t, s.set key value = .ok t ∧ t.medium = .sound :=
  ⟨_, set_eq_ok_iff.2 ⟨by rw [hmedium]; rfl, rfl⟩, hmedium⟩

/-- A sound medium lets every key be read. -/
theorem get_of_sound {s : Store} (hmedium : s.medium = .sound) (key : Bytes) :
    s.get key = .ok (s.entries.find? key) := by
  unfold get
  rw [hmedium]
  rfl

/-- A record is read from its bytes, as far as the medium lets its key be read. -/
theorem getRecord_of_find? {α : Type} {decode : Json → Except Json.Fault α} {s : Store}
    {key : Bytes} {j : Json} {a : α} (hfind : s.entries.find? key = some (recordBytes j))
    (hplain : Json.isPlain Json.maxDepth j = true) (hdecode : decode j = .ok a)
    (hmedium : s.medium.readFailure key = none) : s.getRecord decode key = .ok (some a) := by
  -- The bytes are those of plain JSON, which is read back from its text.
  have hbytes : Json.decodeBytes decode (recordBytes j) = .ok a :=
    (Json.decodeBytes_encode decode hplain).trans hdecode
  unfold getRecord get
  rw [hmedium]
  simp only [hfind, hbytes]

/-- A record is read back under its key. -/
theorem getRecord_setRecord_self {α : Type} {decode : Json → Except Json.Fault α} {s t : Store}
    {key : Bytes} {j : Json} {a : α} (hset : s.setRecord key j = .ok t)
    (hplain : Json.isPlain Json.maxDepth j = true) (hdecode : decode j = .ok a)
    (hmedium : t.medium.readFailure key = none) : t.getRecord decode key = .ok (some a) := by
  obtain ⟨-, rfl⟩ := set_eq_ok_iff.1 hset
  exact getRecord_of_find? (OrderedMap.find?_insert_self _ _ _) hplain hdecode hmedium

/-- A record is left alone by what is put under another key. -/
theorem getRecord_setRecord_of_ne {α : Type} (decode : Json → Except Json.Fault α) {s t : Store}
    {key other : Bytes} {j : Json} (hset : s.setRecord key j = .ok t) (hne : other ≠ key) :
    t.getRecord decode other = s.getRecord decode other := by
  obtain ⟨-, rfl⟩ := set_eq_ok_iff.1 hset
  unfold getRecord get
  simp only [OrderedMap.find?_insert_of_ne _ _ hne]

/-- A record that was read shows that its key can be read. -/
theorem readFailure_eq_none {α : Type} {decode : Json → Except Json.Fault α} {s : Store}
    {key : Bytes} {a : Option α} (h : s.getRecord decode key = .ok a) :
    s.medium.readFailure key = none := by
  unfold getRecord get at h
  cases hf : s.medium.readFailure key with
  | none => rfl
  | some text =>
    rw [hf] at h
    cases h

end Store

/-! ## Typed values -/

namespace Json

/-- A word fits into a whole number of JSON. -/
theorem isPlain_natural (room : Nat) (n : UInt64) : isPlain room (.natural n.toNat) = true := by
  have hbound : n.toNat < 2 ^ 64 := n.toNat_lt
  have hmax : maxWord = 2 ^ 64 - 1 := rfl
  refine decide_eq_true (show -(2 ^ 63 : Int) ≤ (n.toNat : Int) ∧
    (n.toNat : Int) ≤ (maxWord : Int) from ⟨?_, ?_⟩)
  · omega
  · omega

/-- A word is read as the word. -/
theorem toUInt64_natural (n : UInt64) : toUInt64 (.natural n.toNat) = .ok n := by
  have hbound : n.toNat ≤ maxWord := by
    have hlt : n.toNat < 2 ^ 64 := n.toNat_lt
    have hmax : maxWord = 2 ^ 64 - 1 := rfl
    omega
  show (if n.toNat ≤ maxWord then Except.ok (UInt64.ofNat n.toNat)
    else .error (wrongKind (.integer n.toNat) "u64")) = .ok n
  rw [if_pos hbound, UInt64.ofNat_toNat]

section

variable {α : Type} {write : α → Json}

/-- A list of plain values is plain, one level further up. -/
theorem isPlain_ofList {room : Nat} (h : ∀ a, isPlain room (write a) = true) (l : List α) :
    isPlain (room + 1) (ofList write l) = true := by
  show arePlain room (l.map write) = true
  -- By induction on the items.
  induction l with
  | nil => rfl
  | cons a l ih => exact Bool.and_eq_true_iff.2 ⟨h a, ih⟩

/-- A list is read as the list if its items are. -/
theorem toList_ofList {decode : Json → Except Fault α} (h : ∀ a, decode (write a) = .ok a)
    (l : List α) : toList decode (ofList write l) = .ok l := by
  show toItems decode (l.map write) = .ok l
  -- By induction on the items.
  induction l with
  | nil => rfl
  | cons a l ih => simp only [List.map_cons, toItems, h, ih]

end

namespace Record

variable {α : Type} {r : Record} {name : String} {decode : Json → Except Fault α} {j : Json} {a : α}

/-- In an object whose names differ, each name has one value, in the place of its field. -/
theorem occurrences_eq_singleton {fields : List (String × Json)} {place : Nat}
    (hnames : (fields.map Prod.fst).Nodup) (hfield : fields[place]? = some (name, j)) :
    (byName fields).occurrences name = [(place, j)] := by
  -- The fields behind the first one are counted from one on, so that the count starts anywhere.
  suffices h : ∀ start, ((fields.zipIdx start).filterMap fun f =>
      if f.1.1 == name then some (f.2, f.1.2) else none) = [(start + place, j)] by
    simpa [occurrences] using h 0
  induction fields generalizing place with
  | nil => cases hfield
  | cons f rest ih =>
    obtain ⟨hnew, hrest⟩ := List.nodup_cons.1 hnames
    intro start
    rw [List.zipIdx_cons]
    cases place with
    | zero =>
      obtain rfl : f = (name, j) := by simpa using hfield
      -- No field behind it has the name again.
      have hnone : (rest.zipIdx (start + 1)).filterMap (fun f =>
          if f.1.1 == name then some (f.2, f.1.2) else none) = [] := by
        refine List.filterMap_eq_nil_iff.2 fun g hg => if_neg fun heq => hnew ?_
        have hmem := List.mem_map_of_mem (f := Prod.fst) (List.fst_mem_of_mem_zipIdx hg)
        rwa [eq_of_beq heq] at hmem
      rw [List.filterMap_cons_some (b := (start, j)) (by simp), hnone, Nat.add_zero]
    | succ place =>
      rw [List.getElem?_cons_succ] at hfield
      have hne : f.1 ≠ name := fun heq =>
        hnew (heq ▸ List.mem_map_of_mem (f := Prod.fst) (List.mem_of_getElem? hfield))
      rw [List.filterMap_cons_none (by simp [hne]), ih hrest hfield, Nat.add_right_comm,
        Nat.add_assoc]

/-- A field that occurs once is read by its decoder. -/
theorem required_eq_ok (place : Nat) (hfield : r.occurrences name = [(place, j)])
    (hdecode : decode j = .ok a) : r.required name decode = .ok a := by
  unfold required field
  rw [hfield]
  dsimp only
  rw [hdecode]

/-- A field of an object whose names differ is read by its decoder. -/
theorem required_of_nodup {fields : List (String × Json)} (hnames : (fields.map Prod.fst).Nodup)
    (place : Nat) (hfield : fields[place]? = some (name, j)) (hdecode : decode j = .ok a) :
    (byName fields).required name decode = .ok a :=
  required_eq_ok place (occurrences_eq_singleton hnames hfield) hdecode

/-- Its default does not matter to a field that is there. -/
theorem optional_eq_ok (default : α) (place : Nat) (hfield : r.occurrences name = [(place, j)])
    (hdecode : decode j = .ok a) : r.optional name default decode = .ok a := by
  unfold optional field
  rw [hfield]
  dsimp only
  rw [hdecode]

end Record

end Json

/-- A time is read as the time. -/
theorem BlockTime.ofJson_toJson (t : BlockTime) : ofJson t.toJson = .ok t := by
  rw [ofJson, toJson, Json.toUInt64_natural]
  rfl

/-- A fixed-point number is read as the number. -/
theorem Fixed.ofJson_toJson (a : Fixed) : ofJson a.toJson = .ok a := by
  rw [ofJson, toJson, Json.toText]
  simp only [parse_toList_render]

/-! ## The state of the minter -/

namespace Mint.State

/-- The state of the minter is an object of a number and a string. -/
theorem isPlain_toJson (room : Nat) (state : State) :
    Json.isPlain (room + 1) state.toJson = true := by
  simp [toJson, Json.isPlain, Json.fieldsPlain, BlockTime.toJson, Json.isPlain_natural,
    Fixed.toJson]

/-- The state of the minter is read as it was. -/
theorem ofJson_toJson (state : State) : ofJson state.toJson = .ok state := by
  have hfields : state.toJson = .object [("previous_mint_time", state.previousTime.toJson),
    ("leftover", state.leftover.toJson)] := rfl
  rw [ofJson, hfields, Json.record,
    Json.Record.required_eq_ok 0 rfl (BlockTime.ofJson_toJson state.previousTime),
    Json.Record.required_eq_ok 1 rfl (Fixed.ofJson_toJson state.leftover)]
  rfl

/-- A state that has been put into a store, where there could be read one before, is found there. -/
theorem load_save {state : State} {s t : Store} {before : Option State}
    (hload : load s = .ok before) (hsave : state.save s = .ok t) : load t = .ok (some state) := by
  have hmedium := Store.readFailure_eq_none hload
  refine Store.getRecord_setRecord_self hsave (state.isPlain_toJson _) state.ofJson_toJson ?_
  -- The write has left the medium as it was.
  obtain ⟨-, rfl⟩ := Store.set_eq_ok_iff.1 hsave
  exact hmedium

end Mint.State

end ChainEconomy
