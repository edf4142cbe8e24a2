import ChainEconomy.Proofs.JsonTokens

/-!
# JSON that is read back

The text of a value is read as the value, whatever stands behind it, as long as that does not go on
with a number at the end of the text. This holds of all values that can be told from their text: no
floating-point numbers, whole numbers of at most 64 bits, and lists and objects that are not nested
more deeply than the reader goes.

Blanks between the parts of a text do not matter to the reader, so that everything is proved of any
layout that puts nothing but blanks between the parts. The text without blanks and the one with an
item a line are two such layouts.

## Key results

- `isPlain`: the values that can be told from their text
- `Layout.chars`: the text of a value in a layout
- `readValue_chars`: any plain value, in any layout and in front of any text
- `decodeBytes_encode`, `decodeText_renderPretty`: what is written is decoded like the value
-/

namespace ChainEconomy.Json

open Text

/-! ## Plain values -/

mutual

/-- Whether a value can be told from its text, where lists and objects may be nested `room` levels
deep. -/
def isPlain : Nat → Json → Bool
  | _, .null | _, .bool _ | _, .string _ => true
  | _, .integer n => decide (-(2 ^ 63 : Int) ≤ n ∧ n ≤ maxWord)
  | room, .array items => room != 0 && arePlain (room - 1) items
  | room, .object fields => room != 0 && fieldsPlain (room - 1) fields
  | _, .real _ _ | _, .unreadable => false

/-- Whether all items can be told from their text. -/
def arePlain : Nat → List Json → Bool
  | _, [] => true
  | room, item :: rest => isPlain room item && arePlain room rest

/-- Whether the values of all fields can be told from their text. -/
def fieldsPlain : Nat → List (String × Json) → Bool
  | _, [] => true
  | room, (_, value) :: rest => isPlain room value && fieldsPlain room rest

end

/-! ## Layouts -/

/-- Where a text has blanks: in front of the items of a list or an object and in front of its
closing bracket, depending on the level, and behind the colons. -/
structure Layout where
  gap : Nat → List Char
  colonGap : List Char
  gap_isSpace : ∀ level, ∀ c ∈ gap level, isSpace c = true
  colonGap_isSpace : ∀ c ∈ colonGap, isSpace c = true

namespace Layout

/-- No blanks at all. -/
def compact : Layout := ⟨fun _ => [], [], by simp, by simp⟩

/-- A new line and the blanks behind it are spaces. -/
theorem isSpace_of_mem_newLine {level : Nat} {c : Char} (h : c ∈ newLine level) :
    isSpace c = true := by
  rw [newLine, List.mem_cons, List.mem_replicate] at h
  obtain rfl | ⟨-, rfl⟩ := h <;> rfl

/-- One item a line. -/
def pretty : Layout where
  gap := newLine
  colonGap := [' ']
  gap_isSpace _ _ h := isSpace_of_mem_newLine h
  colonGap_isSpace c h := by
    rw [List.mem_singleton.1 h]
    rfl

variable (l : Layout)

mutual

/-- The text of a value that stands at a level. -/
def chars (level : Nat) : Json → List Char
  | .array [] => ['[', ']']
  | .array (item :: rest) =>
    '[' :: l.gap (level + 1) ++ chars (level + 1) item ++ restChars (level + 1) rest ++
      l.gap level ++ [']']
  | .object [] => ['\x7b', '\x7d']
  | .object ((name, value) :: rest) =>
    '\x7b' :: l.gap (level + 1) ++ renderString name ++ ':' :: l.colonGap ++
      chars (level + 1) value ++ fieldsChars (level + 1) rest ++ l.gap level ++ ['\x7d']
  | leaf => renderLeaf leaf

/-- The items of a list after the first. -/
def restChars (level : Nat) : List Json → List Char
  | [] => []
  | item :: rest => ',' :: l.gap level ++ chars level item ++ restChars level rest

/-- The fields of an object after the first. -/
def fieldsChars (level : Nat) : List (String × Json) → List Char
  | [] => []
  | (name, value) :: rest =>
    ',' :: l.gap level ++ renderString name ++ ':' :: l.colonGap ++ chars level value ++
      fieldsChars level rest

end

mutual

/-- Without blanks, the layout is the short text of a value. -/
theorem chars_compact (level : Nat) : ∀ j, compact.chars level j = renderChars j
  | .array [] => rfl
  | .array (item :: rest) => by
    rw [chars, renderChars, chars_compact (level + 1) item, restChars_compact (level + 1) rest]
    simp [compact]
  | .object [] => rfl
  | .object ((name, value) :: rest) => by
    rw [chars, renderChars, chars_compact (level + 1) value, fieldsChars_compact (level + 1) rest]
    simp [compact]
  | .null | .bool _ | .integer _ | .real _ _ | .string _ | .unreadable => rfl

/-- Without blanks, the items of a list are those of its short text. -/
theorem restChars_compact (level : Nat) : ∀ items, compact.restChars level items = renderRest items
  | [] => rfl
  | item :: rest => by
    rw [restChars, renderRest, chars_compact level item, restChars_compact level rest]
    simp [compact]

/-- Without blanks, the fields of an object are those of its short text. -/
theorem fieldsChars_compact (level : Nat) :
    ∀ fields, compact.fieldsChars level fields = renderFields fields
  | [] => rfl
  | (name, value) :: rest => by
    rw [fieldsChars, renderFields, chars_compact level value, fieldsChars_compact level rest]
    simp [compact]

end

mutual

/-- With an item a line, the layout is the long text of a value. -/
theorem chars_pretty (level : Nat) : ∀ j, pretty.chars level j = prettyChars level j
  | .array [] => rfl
  | .array (item :: rest) => by
    rw [chars, prettyChars, chars_pretty (level + 1) item, restChars_pretty (level + 1) rest]
    rfl
  | .object [] => rfl
  | .object ((name, value) :: rest) => by
    rw [chars, prettyChars, chars_pretty (level + 1) value, fieldsChars_pretty (level + 1) rest]
    simp [pretty]
  | .null | .bool _ | .integer _ | .real _ _ | .string _ | .unreadable => rfl

/-- With an item a line, the items of a list are those of its long text. -/
theorem restChars_pretty (level : Nat) :
    ∀ items, pretty.restChars level items = prettyRest level items
  | [] => rfl
  | item :: rest => by
    rw [restChars, prettyRest, chars_pretty level item, restChars_pretty level rest]
    rfl

/-- With an item a line, the fields of an object are those of its long text. -/
theorem fieldsChars_pretty (level : Nat) :
    ∀ fields, pretty.fieldsChars level fields = prettyFields level fields
  | [] => rfl
  | (name, value) :: rest => by
    rw [fieldsChars, prettyFields, chars_pretty level value, fieldsChars_pretty level rest]
    simp [pretty]

end

end Layout

/-! ## Blanks -/

/-- Nothing is skipped in front of what is no space. -/
theorem skipSpace_cons {c : Char} (h : isSpace c = false) (rest : List Char) :
    skipSpace (c :: rest) = c :: rest := by
  rw [skipSpace, List.dropWhile_cons_of_neg (by simp [h])]

/-- Spaces are skipped. -/
theorem skipSpace_append {blanks : List Char} (h : ∀ c ∈ blanks, isSpace c = true)
    (rest : List Char) : skipSpace (blanks ++ rest) = skipSpace rest :=
  List.dropWhile_append_of_pos h

/-- Blanks in front of a value are skipped. -/
theorem readValue_append {blanks : List Char} (h : ∀ c ∈ blanks, isSpace c = true) (room fuel : Nat)
    (rest : List Char) : readValue room fuel (blanks ++ rest) = readValue room fuel rest := by
  cases fuel with
  | zero => rfl
  | succ fuel =>
    rw [readValue.eq_def, readValue.eq_def room (fuel + 1) rest]
    dsimp only
    rw [skipSpace_append h]

/-- Blanks in front of the items of a list are skipped. -/
theorem readItems_append {blanks : List Char} (h : ∀ c ∈ blanks, isSpace c = true) (room fuel : Nat)
    (rest : List Char) : readItems room fuel (blanks ++ rest) = readItems room fuel rest := by
  cases fuel with
  | zero => rfl
  | succ fuel =>
    rw [readItems.eq_def, readItems.eq_def room (fuel + 1) rest]
    dsimp only
    rw [readValue_append h]

/-- Blanks in front of the fields of an object are skipped. -/
theorem readMembers_append {blanks : List Char} (h : ∀ c ∈ blanks, isSpace c = true)
    (room fuel : Nat) (rest : List Char) :
    readMembers room fuel (blanks ++ rest) = readMembers room fuel rest := by
  cases fuel with
  | zero => rfl
  | succ fuel =>
    rw [readMembers.eq_def, readMembers.eq_def room (fuel + 1) rest]
    dsimp only
    rw [skipSpace_append h]

/-- A blank is no part of a number. -/
theorem endsNumber_append {blanks rest : List Char} (h : ∀ c ∈ blanks, isSpace c = true)
    (hrest : EndsNumber rest) : EndsNumber (blanks ++ rest) := by
  cases blanks with
  | nil => exact hrest
  | cons c blanks =>
    -- Each of the four spaces is told apart from the characters of numbers.
    have hspace := h c List.mem_cons_self
    simp only [isSpace, Bool.or_eq_true, decide_eq_true_eq] at hspace
    refine endsNumber_cons ?_ ?_ ?_ ?_ (blanks ++ rest) <;>
      rcases hspace with ((rfl | rfl) | rfl) | rfl <;> decide

/-! ## Values -/

/-- What starts a number starts nothing else. -/
private theorem not_special {c : Char} (h : c.isDigit = true ∨ c = '-') {d : Char}
    (hd : d.isDigit = false) (hminus : d ≠ '-') : c ≠ d := by
  rintro rfl
  rcases h with h | h
  · rw [h] at hd
    cases hd
  · exact hminus h

/-- What starts a number is no space. -/
private theorem isSpace_numeric {c : Char} (h : c.isDigit = true ∨ c = '-') :
    isSpace c = false := by
  simp only [isSpace, Bool.or_eq_false_iff, decide_eq_false_iff_not]
  exact ⟨⟨⟨not_special h (by decide) (by decide), not_special h (by decide) (by decide)⟩,
    not_special h (by decide) (by decide)⟩, not_special h (by decide) (by decide)⟩

/-- Without a letter, a quotation mark or a bracket in front, a number is read. -/
private theorem readValue_numeric {c : Char} (h : c.isDigit = true ∨ c = '-') (room fuel : Nat)
    (rest : List Char) : readValue room (fuel + 1) (c :: rest) = readNumber (c :: rest) := by
  rw [readValue.eq_def]
  simp only [skipSpace_cons (isSpace_numeric h),
    if_neg (not_special h (d := '"') (by decide) (by decide)),
    if_neg (not_special h (d := '[') (by decide) (by decide)),
    if_neg (not_special h (d := '\x7b') (by decide) (by decide)),
    if_neg (not_special h (d := 'n') (by decide) (by decide)),
    if_neg (not_special h (d := 't') (by decide) (by decide)),
    if_neg (not_special h (d := 'f') (by decide) (by decide))]

/-- The members of an object with the given fields. -/
def membersOf (fields : List (String × Json)) : List Member :=
  fields.map fun f => (some f.1.toList, f.2)

/-- Members that all have names make up an object with their values. -/
theorem ofMembers_membersOf (fields : List (String × Json)) :
    ofMembers (membersOf fields) = .object fields := by
  have hnames : (membersOf fields).mapM (fun m => m.1.map fun name => (String.ofList name, m.2)) =
      some fields := by
    rw [membersOf, List.mapM_map]
    -- By induction on the fields.
    induction fields with
    | nil => rfl
    | cons f fields ih =>
      rw [List.mapM_cons, ih]
      simp
  rw [ofMembers, hnames]

variable {l : Layout} {level : Nat}

variable (l level) in
/-- The text of a plain value starts with no space and with no closing bracket. -/
theorem exists_chars_cons {room : Nat} {j : Json} (h : isPlain room j = true) :
    ∃ c rest, l.chars level j = c :: rest ∧ isSpace c = false ∧ c ≠ ']' := by
  cases j with
  | null => exact ⟨'n', _, rfl, by decide, by decide⟩
  | bool b => cases b <;> exact ⟨_, _, rfl, by decide, by decide⟩
  | integer n =>
    obtain ⟨c, rest, hc, hnumeric⟩ := exists_renderInteger_cons n
    exact ⟨c, rest, hc, isSpace_numeric hnumeric, not_special hnumeric (by decide) (by decide)⟩
  | real negative magnitude => cases h
  | string s => exact ⟨'"', _, rfl, by decide, by decide⟩
  | array items => cases items <;> exact ⟨'[', _, rfl, by decide, by decide⟩
  | object fields => cases fields <;> exact ⟨'\x7b', _, rfl, by decide, by decide⟩
  | unreadable => cases h

variable (l level) in
/-- The text of a list that stands at a level, from its first item on, and what comes behind the
list. -/
def listText (item : Json) (items : List Json) (rest : List Char) : List Char :=
  l.chars (level + 1) item ++ (l.restChars (level + 1) items ++ (l.gap level ++ ']' :: rest))

variable (l level) in
/-- The text of an object that stands at a level, from its first name on, and what comes behind the
object. -/
def objectText (name : String) (value : Json) (fields : List (String × Json)) (rest : List Char) :
    List Char :=
  renderString name ++ ':' :: (l.colonGap ++ (l.chars (level + 1) value ++
    (l.fieldsChars (level + 1) fields ++ (l.gap level ++ '\x7d' :: rest))))

/-- The text of a list starts with a bracket, and goes on with its items. -/
theorem chars_array (item : Json) (items : List Json) (rest : List Char) :
    l.chars level (.array (item :: items)) ++ rest =
      '[' :: (l.gap (level + 1) ++ listText l level item items rest) := by
  simp [Layout.chars, listText]

/-- Behind an item, there is a comma in front of the next one. -/
theorem restChars_cons (item : Json) (items : List Json) (rest : List Char) :
    l.restChars (level + 1) (item :: items) ++ (l.gap level ++ ']' :: rest) =
      ',' :: (l.gap (level + 1) ++ listText l level item items rest) := by
  simp [Layout.restChars, listText]

/-- The text of an object starts with a bracket, and goes on with its fields. -/
theorem chars_object (name : String) (value : Json) (fields : List (String × Json))
    (rest : List Char) :
    l.chars level (.object ((name, value) :: fields)) ++ rest =
      '\x7b' :: (l.gap (level + 1) ++ objectText l level name value fields rest) := by
  simp [Layout.chars, objectText]

/-- Behind a field, there is a comma in front of the next one. -/
theorem fieldsChars_cons (name : String) (value : Json) (fields : List (String × Json))
    (rest : List Char) :
    l.fieldsChars (level + 1) ((name, value) :: fields) ++ (l.gap level ++ '\x7d' :: rest) =
      ',' :: (l.gap (level + 1) ++ objectText l level name value fields rest) := by
  simp [Layout.fieldsChars, objectText]

variable (l) in
/-- With a number of steps, values, lists of items and lists of fields are read as they were
written, if their texts are not longer than half of that number. -/
structure ReadsBack (fuel : Nat) : Prop where
  value : ∀ {room : Nat} (level : Nat) {j : Json} (rest : List Char), isPlain room j = true →
    EndsNumber rest → 2 * (l.chars level j).length ≤ fuel →
    readValue room fuel (l.chars level j ++ rest) = some (j, rest)
  items : ∀ {room : Nat} (level : Nat) {item : Json} {items : List Json} (rest : List Char),
    isPlain room item = true → arePlain room items = true →
    2 * ((l.chars (level + 1) item).length + (l.restChars (level + 1) items).length) + 1 ≤ fuel →
    readItems room fuel (listText l level item items rest) = some (item :: items, rest)
  members : ∀ {room : Nat} (level : Nat) {value : Json} {fields : List (String × Json)}
    (name : String) (rest : List Char), isPlain room value = true → fieldsPlain room fields = true →
    2 * ((l.chars (level + 1) value).length + (l.fieldsChars (level + 1) fields).length) + 1 ≤
      fuel →
    readMembers room fuel (objectText l level name value fields rest) =
      some (membersOf ((name, value) :: fields), rest)

section

variable {fuel room : Nat} {rest : List Char}

/-- A list takes one step more than its items. -/
private theorem ReadsBack.array_succ (ih : ReadsBack l fuel) {items : List Json}
    (hplain : isPlain room (.array items) = true)
    (hfuel : 2 * (l.chars level (.array items)).length ≤ fuel + 1) :
    readValue room (fuel + 1) (l.chars level (.array items) ++ rest) =
      some (.array items, rest) := by
  obtain ⟨hroom, hitems⟩ := Bool.and_eq_true_iff.1 hplain
  -- There is room for another level, so that the list is not cut off.
  have hwithin : ∀ j, within room j = j := fun j => if_neg (by simpa using hroom)
  cases items with
  | nil =>
    show readValue room (fuel + 1) ('[' :: ']' :: rest) = some (.array [], rest)
    rw [readValue.eq_def]
    simp (disch := decide) only [skipSpace_cons, hwithin, Char.reduceEq, if_true, if_false]
  | cons item items =>
    obtain ⟨hitem, hitems⟩ := Bool.and_eq_true_iff.1 hitems
    have hgap := l.gap_isSpace (level + 1)
    -- The first item does not start like the end of the list.
    obtain ⟨c, tail, hc, hspace, hclosed⟩ := exists_chars_cons l (level + 1) hitem
    have hskip : skipSpace (l.gap (level + 1) ++ listText l level item items rest) =
        c :: (tail ++ (l.restChars (level + 1) items ++ (l.gap level ++ ']' :: rest))) := by
      rw [skipSpace_append hgap, listText, hc, List.cons_append, skipSpace_cons hspace]
    have hread := ih.items level rest hitem hitems (by
      simp only [Layout.chars, List.length_append, List.length_cons, List.length_nil] at hfuel
      omega)
    rw [chars_array, readValue.eq_def]
    simp (disch := decide) only [skipSpace_cons, hskip, hclosed, readItems_append hgap, hread,
      hwithin, Char.reduceEq, if_true, if_false]

/-- An object takes one step more than its fields. -/
private theorem ReadsBack.object_succ (ih : ReadsBack l fuel) {fields : List (String × Json)}
    (hplain : isPlain room (.object fields) = true)
    (hfuel : 2 * (l.chars level (.object fields)).length ≤ fuel + 1) :
    readValue room (fuel + 1) (l.chars level (.object fields) ++ rest) =
      some (.object fields, rest) := by
  obtain ⟨hroom, hfields⟩ := Bool.and_eq_true_iff.1 hplain
  have hwithin : ∀ j, within room j = j := fun j => if_neg (by simpa using hroom)
  cases fields with
  | nil =>
    show readValue room (fuel + 1) ('\x7b' :: '\x7d' :: rest) = some (.object [], rest)
    rw [readValue.eq_def]
    simp (disch := decide) only [skipSpace_cons, hwithin, Char.reduceEq, if_true, if_false]
  | cons field fields =>
    obtain ⟨name, value⟩ := field
    obtain ⟨hvalue, hfields⟩ := Bool.and_eq_true_iff.1 hfields
    have hgap := l.gap_isSpace (level + 1)
    have hread := ih.members level name rest hvalue hfields (by
      simp only [Layout.chars, List.length_append, List.length_cons, List.length_nil] at hfuel
      omega)
    -- The name starts with a quotation mark, which no end of an object does.
    obtain ⟨tail, htail⟩ : ∃ tail, objectText l level name value fields rest = '"' :: tail :=
      ⟨_, rfl⟩
    rw [htail] at hread
    rw [chars_object, htail, readValue.eq_def]
    simp (disch := decide) only [skipSpace_cons, skipSpace_append hgap, readMembers_append hgap,
      hread, hwithin, ofMembers_membersOf, Char.reduceEq, if_true, if_false]

/-- A value takes one step more than what is in it. -/
private theorem ReadsBack.value_succ (ih : ReadsBack l fuel) {j : Json}
    (hplain : isPlain room j = true) (hrest : EndsNumber rest)
    (hfuel : 2 * (l.chars level j).length ≤ fuel + 1) :
    readValue room (fuel + 1) (l.chars level j ++ rest) = some (j, rest) := by
  -- By the kind of the value. Numbers are the only ones for which it matters what comes next.
  cases j with
  | null => rfl
  | bool b => cases b <;> rfl
  | integer n =>
    obtain ⟨c, tail, hc, hnumeric⟩ := exists_renderInteger_cons n
    have hchars : l.chars level (.integer n) = renderInteger n := rfl
    have hbounds : -(2 ^ 63 : Int) ≤ n ∧ n ≤ maxWord := of_decide_eq_true hplain
    rw [hchars, ← readNumber_renderInteger hbounds.1 hbounds.2 hrest, hc, List.cons_append,
      readValue_numeric hnumeric]
  | real negative magnitude => cases hplain
  | string s =>
    obtain ⟨tail, htail, hread⟩ := readString_renderString s rest
    have hchars : l.chars level (.string s) = renderString s := rfl
    rw [hchars, htail, readValue.eq_def]
    simp (disch := decide) only [skipSpace_cons, if_true, hread, Option.map_some,
      Option.getD_some, String.ofList_toList]
  | array items => exact ih.array_succ hplain hfuel
  | object fields => exact ih.object_succ hplain hfuel
  | unreadable => cases hplain

/-- Items take one step more than the first of them, and than those behind it. -/
private theorem ReadsBack.items_succ (ih : ReadsBack l fuel) {item : Json} {items : List Json}
    (hitem : isPlain room item = true) (hitems : arePlain room items = true)
    (hfuel : 2 * ((l.chars (level + 1) item).length + (l.restChars (level + 1) items).length) + 1 ≤
      fuel + 1) :
    readItems room (fuel + 1) (listText l level item items rest) = some (item :: items, rest) := by
  rw [listText]
  -- Behind the item comes the end of the list or the next item.
  cases items with
  | nil =>
    have hgap := l.gap_isSpace level
    have hread := ih.value (level + 1) (l.gap level ++ ']' :: rest) hitem
      (endsNumber_append hgap
        (endsNumber_cons (by decide) (by decide) (by decide) (by decide) rest)) (by omega)
    rw [Layout.restChars, List.nil_append, readItems.eq_def]
    simp (disch := decide) only [hread, skipSpace_append hgap, skipSpace_cons, if_true]
  | cons next items =>
    obtain ⟨hnext, hitems⟩ := Bool.and_eq_true_iff.1 hitems
    have hgap := l.gap_isSpace (level + 1)
    simp only [Layout.restChars, List.length_append, List.length_cons] at hfuel
    have hread := ih.value (level + 1)
      (',' :: (l.gap (level + 1) ++ listText l level next items rest)) hitem
      (endsNumber_cons (by decide) (by decide) (by decide) (by decide) _) (by omega)
    have hbehind := ih.items level rest hnext hitems (by omega)
    rw [restChars_cons, readItems.eq_def]
    simp (disch := decide) only [hread, skipSpace_cons, readItems_append hgap, hbehind,
      Char.reduceEq, if_true, if_false]

/-- Fields take one step more than the value of the first of them, and than those behind it. -/
private theorem ReadsBack.members_succ (ih : ReadsBack l fuel) {name : String} {value : Json}
    {fields : List (String × Json)} (hvalue : isPlain room value = true)
    (hfields : fieldsPlain room fields = true)
    (hfuel : 2 * ((l.chars (level + 1) value).length +
      (l.fieldsChars (level + 1) fields).length) + 1 ≤ fuel + 1) :
    readMembers room (fuel + 1) (objectText l level name value fields rest) =
      some (membersOf ((name, value) :: fields), rest) := by
  obtain ⟨tail, htail, hname⟩ := readString_renderString name
    (':' :: (l.colonGap ++ (l.chars (level + 1) value ++
      (l.fieldsChars (level + 1) fields ++ (l.gap level ++ '\x7d' :: rest)))))
  rw [objectText, htail, readMembers.eq_def]
  -- Behind the value comes the end of the object or the next field.
  cases fields with
  | nil =>
    have hgap := l.gap_isSpace level
    have hread := ih.value (level + 1) (l.gap level ++ '\x7d' :: rest) hvalue
      (endsNumber_append hgap
        (endsNumber_cons (by decide) (by decide) (by decide) (by decide) rest)) (by omega)
    rw [Layout.fieldsChars, List.nil_append] at hname
    simp (disch := decide) only [hname, readValue_append l.colonGap_isSpace, hread,
      skipSpace_append hgap, skipSpace_cons, ne_eq, not_true_eq_false, if_true, if_false]
    rfl
  | cons field fields =>
    obtain ⟨next, behind⟩ := field
    obtain ⟨hnext, hfields⟩ := Bool.and_eq_true_iff.1 hfields
    have hgap := l.gap_isSpace (level + 1)
    simp only [Layout.fieldsChars, List.length_append, List.length_cons] at hfuel
    have hread := ih.value (level + 1)
      (',' :: (l.gap (level + 1) ++ objectText l level next behind fields rest)) hvalue
      (endsNumber_cons (by decide) (by decide) (by decide) (by decide) _) (by omega)
    have hbehind := ih.members level next rest hnext hfields (by omega)
    rw [fieldsChars_cons] at hname
    simp (disch := decide) only [hname, readValue_append l.colonGap_isSpace, hread,
      readMembers_append hgap, hbehind, skipSpace_cons, ne_eq, not_true_eq_false, Char.reduceEq,
      if_true, if_false]
    rfl

end

/-- Any number of steps reads back what is short enough. The induction is on the number of steps,
since the three readers call one another with one step less. -/
theorem readsBack (fuel : Nat) : ReadsBack l fuel := by
  induction fuel with
  | zero =>
    refine ⟨fun level _ _ h _ hfuel => ?_, fun _ _ _ _ _ _ hfuel => ?_,
      fun _ _ _ _ _ _ _ hfuel => ?_⟩
    · -- No text is empty, and so none is short enough to be read without a step.
      obtain ⟨c, tail, hc, -⟩ := exists_chars_cons l level h
      rw [hc, List.length_cons] at hfuel
      omega
    · omega
    · omega
  | succ fuel ih =>
    exact ⟨fun _ _ _ h hrest hfuel => ih.value_succ h hrest hfuel,
      fun _ _ _ _ hitem hitems hfuel => ih.items_succ hitem hitems hfuel,
      fun _ _ _ _ _ hvalue hfields hfuel => ih.members_succ hvalue hfields hfuel⟩

/-- The text of a value is read as the value, and what comes behind it is left. -/
theorem readValue_chars {room : Nat} {j : Json} {rest : List Char}
    (hplain : isPlain room j = true) (hrest : EndsNumber rest) {fuel : Nat}
    (hfuel : 2 * (l.chars level j).length ≤ fuel) :
    readValue room fuel (l.chars level j ++ rest) = some (j, rest) :=
  (readsBack fuel).value level rest hplain hrest hfuel

/-! ## Documents -/

/-- A text that holds nothing but a value is decoded like the value itself. -/
theorem decodeChars_chars {α : Type} (decode : Json → Except Fault α) {j : Json}
    (hplain : isPlain maxDepth j = true) : decodeChars decode (l.chars level j) = decode j := by
  have hread : readFirst? (l.chars level j) = some (j, []) := by
    -- Two steps a character are enough, and two are to spare.
    have h : readValue maxDepth (2 * (l.chars level j).length + 2) (l.chars level j ++ []) =
        some (j, []) := readValue_chars hplain endsNumber_nil (Nat.le_add_right _ 2)
    rw [List.append_nil] at h
    exact h
  rw [decodeChars, hread]
  dsimp only
  cases decode j with
  | error fault => rfl
  | ok a => rfl

/-- The bytes of a value are decoded like the value itself. -/
theorem decodeBytes_encode {α : Type} (decode : Json → Except Fault α) {j : Json}
    (hplain : isPlain maxDepth j = true) :
    decodeBytes decode (Utf8.encode (renderChars j)) = decode j := by
  rw [decodeBytes, Utf8.decodeWith_of_decode (Utf8.decode_encode _), ← Layout.chars_compact 0]
  exact decodeChars_chars decode hplain

/-- A value that is written with one item a line is decoded like the value itself. -/
theorem decodeText_renderPretty {α : Type} (decode : Json → Except Fault α) {j : Json}
    (hplain : isPlain maxDepth j = true) : decodeText decode j.renderPretty = decode j := by
  rw [decodeText, renderPretty, String.toList_ofList, ← Layout.chars_pretty 0]
  exact decodeChars_chars decode hplain

end ChainEconomy.Json
