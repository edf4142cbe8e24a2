import ChainEconomy.Json.Record

/-! # Events

What an operation reports about itself: a kind and named values, in order. A log of events is a
list, the oldest first. -/

namespace ChainEconomy

/-- A named value of an event. -/
structure Attribute where
  key : String
  value : String
  deriving DecidableEq, Repr

/-- A report of an operation. -/
structure Event where
  kind : String
  attributes : List Attribute
  deriving DecidableEq, Repr

namespace Event

/-- An event with a list of named values. -/
def ofPairs (kind : String) (attributes : List (String × String)) : Event :=
  ⟨kind, attributes.map fun a => ⟨a.1, a.2⟩⟩

/-- The value under a name; of several, the first. -/
def attribute? (e : Event) (key : String) : Option String :=
  (e.attributes.find? fun a => a.key == key).map Attribute.value

/-- A named value as an object. -/
def attributeToJson (a : Attribute) : Json :=
  .object [("key", .string a.key), ("value", .string a.value)]

/-- Reads a named value. -/
def attributeOfJson : Json → Except Json.Fault Attribute :=
  Json.record "EventAttribute" ["key", "value"] fun r =>
    Attribute.mk <$> r.required "key" Json.toText <*> r.required "value" Json.toText

/-- An event as an object. -/
def toJson (e : Event) : Json :=
  .object [("kind", .string e.kind), ("attributes", .ofList attributeToJson e.attributes)]

/-- Reads an event. -/
def ofJson : Json → Except Json.Fault Event :=
  Json.record "Event" ["kind", "attributes"] fun r =>
    mk <$> r.required "kind" Json.toText
      <*> r.required "attributes" (Json.toList attributeOfJson)

/-- The events of one kind in a log. -/
def ofKind (kind : String) (log : List Event) : List Event := log.filter fun e => e.kind == kind

end Event

end ChainEconomy
