import ChainEconomy.Binary64.Shortest

/-! # JSON values

Values of the interchange format. A number is a whole number of at most 64 bits or else a binary
floating-point number; the fields of an object keep the order in which they were written.

A text can be well formed and yet hold something that stands for no value: a number that is too
large, a string with half of a surrogate pair, lists that are nested too deeply. Such a part is
`unreadable`; it does no harm where nobody asks for its value. -/

namespace ChainEconomy

/-- A JSON value. -/
inductive Json where
  | null
  | bool (b : Bool)
  | integer (n : Int)
  | real (negative : Bool) (magnitude : Binary64)
  | string (s : String)
  | array (items : List Json)
  | object (fields : List (String × Json))
  | unreadable
  deriving Inhabited

namespace Json

/-- A whole number that is not negative. -/
def natural (n : Nat) : Json := .integer n

/-- A list of values, each written by `f`. -/
def ofList {α : Type} (f : α → Json) (l : List α) : Json := .array (l.map f)

/-- A value that may be absent, as `null`. -/
def ofOption {α : Type} (f : α → Json) : Option α → Json
  | none => .null
  | some a => f a

mutual

/-- Whether no part of a value is unreadable. -/
def isReadable : Json → Bool
  | .array items => areReadable items
  | .object fields => fieldsReadable fields
  | .unreadable => false
  | .null | .bool _ | .integer _ | .real _ _ | .string _ => true

/-- Whether no part of any of the items is unreadable. -/
def areReadable : List Json → Bool
  | [] => true
  | item :: rest => isReadable item && areReadable rest

/-- Whether no part of any of the fields is unreadable. -/
def fieldsReadable : List (String × Json) → Bool
  | [] => true
  | (_, value) :: rest => isReadable value && fieldsReadable rest

end

/-- The value of an object's field; of fields with one name, the last. -/
def field? (j : Json) (name : String) : Option Json :=
  match j with
  | .object fields => (fields.reverse.find? fun f => f.1 == name).map Prod.snd
  | _ => none

end Json

end ChainEconomy
