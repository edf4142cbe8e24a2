import ChainEconomy.Json.Fault
import ChainEconomy.Json.Number

/-! # Reading typed values

Strings, bounded whole numbers, lists and records out of JSON values. A record is an object, whose
unknown fields are ignored and whose known ones occur once, or a list of the fields in their fixed
order, of which the last ones may be missing. Of several refusals in one record, the one that stands
first in the text is reported; that a field is missing is known only at the end. -/

namespace ChainEconomy.Json

/-- A string. -/
def toText : Json → Except Fault String
  | .string s => .ok s
  | j => .error (wrongKind j "a string")

/-- A whole number of 64 bits that is not negative. -/
def toUInt64 : Json → Except Fault UInt64
  | .integer (.ofNat n) =>
    if n ≤ maxWord then .ok (UInt64.ofNat n) else .error (wrongKind (.integer n) "u64")
  | j => .error (wrongKind j "u64")

/-- A whole number of 64 bits, one of which is the sign. -/
def toInt64 : Json → Except Fault Int64
  | .integer n =>
    if Int64.minValue.toInt ≤ n ∧ n ≤ Int64.maxValue.toInt then .ok (Int64.ofInt n)
    else .error (wrongKind (.integer n) "i64")
  | j => .error (wrongKind j "i64")

/-- Every item of a list, read in order up to the first refusal. -/
def toItems {α : Type} (decode : Json → Except Fault α) : List Json → Except Fault (List α)
  | [] => .ok []
  | item :: rest =>
    match decode item with
    | .error f => .error f.nested
    | .ok a =>
      match toItems decode rest with
      | .error f => .error f
      | .ok as => .ok (a :: as)

/-- A list. -/
def toList {α : Type} (decode : Json → Except Fault α) : Json → Except Fault (List α)
  | .array items => toItems decode items
  | j => .error (wrongKind j "a sequence")

/-- A value that may be absent. -/
def toOption {α : Type} (decode : Json → Except Fault α) : Json → Except Fault (Option α)
  | .null => .ok none
  | j => (decode j).map some

/-! ## Records -/

/-- What reading some fields of a record gives: a value, or a refusal with its place in the record.
-/
def Reading (α : Type) : Type := Except (Nat × Fault) α

namespace Reading

variable {α β : Type}

/-- Applies what one reading gives to what another one gives. Of two refusals the one that stands
earlier in the record is kept. -/
def apply (f : Reading (α → β)) (x : Reading α) : Reading β :=
  match f, x with
  | .ok f, .ok a => .ok (f a)
  | .ok _, .error e => .error e
  | .error e, .ok _ => .error e
  | .error e, .error e' => if e'.1 < e.1 then .error e' else .error e

instance : Applicative Reading where
  pure a := .ok a
  seq f x := apply f (x ())

/-- The value, or the refusal without its place. -/
def outcome (x : Reading α) : Except Fault α :=
  match x with
  | .ok a => .ok a
  | .error e => .error e.2

end Reading

/-- The fields of a record, written with their names or in a fixed order. -/
inductive Record where
  | byName (fields : List (String × Json))
  | byOrder (title : String) (names : List String) (items : List Json)

namespace Record

/-- The values of the fields with a name, each with its place in the record. -/
def occurrences (r : Record) (name : String) : List (Nat × Json) :=
  match r with
  | .byName fields =>
    fields.zipIdx.filterMap fun f => if f.1.1 == name then some (f.2, f.1.2) else none
  | .byOrder _ names items =>
    (items[names.idxOf name]?.map fun item => (names.idxOf name, item)).toList

/-- The refusal for a field that is missing, with the place where it is missed. -/
def missing (r : Record) (name : String) : Nat × Fault :=
  match r with
  | .byName fields => (fields.length, .at (.missingField name))
  | .byOrder title names _ =>
    let index := names.idxOf name
    (index, .at (.wrongLength index s!"struct {title} with {names.length} elements"))

/-- The value of a field, which must not occur twice; without the field, what `absent` says. -/
def field {α : Type} (r : Record) (name : String) (decode : Json → Except Fault α)
    (absent : Reading α) : Reading α :=
  match r.occurrences name with
  | [] => absent
  | (place, j) :: again =>
    match decode j, again with
    -- The first value is read before the second one is noticed.
    | .error fault, _ => .error (place, fault.nested)
    | .ok a, [] => .ok a
    | .ok _, (place, _) :: _ => .error (place, .at (.duplicateField name))

/-- A field that must be there. -/
def required {α : Type} (r : Record) (name : String) (decode : Json → Except Fault α) :
    Reading α :=
  r.field name decode (.error (r.missing name))

/-- A field with a default. -/
def optional {α : Type} (r : Record) (name : String) (default : α)
    (decode : Json → Except Fault α) : Reading α :=
  r.field name decode (.ok default)

end Record

/-- How many elements a list of fields may have, as refusals say it. -/
def elementsInSequence (count : Nat) : String :=
  if count = 1 then "1 element in sequence" else s!"{count} elements in sequence"

/-- Reads a record with a title and the given field names. -/
def record {α : Type} (title : String) (names : List String) (read : Record → Reading α) :
    Json → Except Fault α
  | .object fields => (read (.byName fields)).outcome
  | .array items =>
    match (read (.byOrder title names items)).outcome with
    | .error fault => .error fault
    | .ok a =>
      -- Items in excess are refused after all fields have been read.
      if items.length ≤ names.length then .ok a
      else .error (.at (.wrongLength items.length (elementsInSequence names.length)))
  | j => .error (wrongKind j s!"struct {title}")

/-! ## Tagged unions -/

/-- The tag of a union's case and the value that holds the fields of that case: the object itself,
whatever the place of the tag, or the rest of a list that starts with the tag. To find the tag, all
of the value is read. -/
def untag (title tagName : String) (j : Json) : Except Fault (String × Json) := do
  match ← j.complete with
  | .object fields =>
    match fields.filter fun f => f.1 == tagName with
    | [] => .error (.at (.missingField tagName))
    | [(_, tag)] =>
      let tag ← tag.toText
      .ok (tag, .object (fields.filter fun f => !(f.1 == tagName)))
    | _ => .error (.at (.duplicateField tagName))
  | .array (tag :: rest) =>
    let tag ← tag.toText
    .ok (tag, .array rest)
  | .array [] => .error (.at (.missingField tagName))
  | j => .error (wrongKind j s!"internally tagged enum {title}")

end ChainEconomy.Json
