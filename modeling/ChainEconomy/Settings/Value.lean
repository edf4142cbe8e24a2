import ChainEconomy.Json.Basic
import ChainEconomy.Text.Quoted
import ChainEconomy.Toml.Basic

/-! # Loosely typed values

What a configuration says about a setting, before it is converted to the type that the setting has.
No setting is a list, so that of a list nothing but its presence is kept. -/

namespace ChainEconomy.Settings

/-- A value of a configuration. -/
inductive Value where
  /-- The name is there without a value. -/
  | absent
  | flag (b : Bool)
  | number (n : Int)
  | real (x : Binary64.Extended)
  | text (s : String)
  | list
  | table (fields : List (String × Value))
  deriving Inhabited

/-- Values by their names, not yet converted. -/
abbrev Values := List (String × Value)

/-- Puts a value under a name, in the place of what stands there. -/
def replace (name : String) (v : Value) : Values → Values
  | [] => [(name, v)]
  | f :: rest => if f.1 = name then (name, v) :: rest else f :: replace name v rest

namespace Value

/-- The fields as they stand when every field is put in turn: of one name, the last value. -/
def lastOfEach (fields : Values) : Values := fields.foldl (fun found f => replace f.1 f.2 found) []

/-- What a value is, as refusals name it. -/
def kindName : Value → String
  | .absent => "unit value"
  | .flag b => s!"boolean `{b}`"
  | .number n => s!"64-bit integer `{n}`"
  | .real x => "floating point `" ++ String.ofList x.render ++ "`"
  | .text s => "string " ++ Text.quoted s
  | .list => "sequence"
  | .table _ => "map"

/-- Whether a whole number fits 64 bits, one of which is the sign. -/
def isWhole (n : Int) : Bool := decide (Int64.minValue.toInt ≤ n ∧ n ≤ Int64.maxValue.toInt)

/-- A whole number; one that does not fit 64 bits with a sign counts as a floating-point number. -/
def ofInt (n : Int) : Value :=
  if isWhole n then .number n
  else .real (Binary64.Extended.ofDecimal (decide (n < 0)) n.natAbs 0)

mutual

/-- A TOML value as a value of a configuration. -/
def ofToml : Toml → Value
  | .string s => .text s
  | .integer n => .number n
  | .float x => .real x
  | .boolean b => .flag b
  | .datetime s => .text s
  | .array _ => .list
  | .table fields => .table (fieldsOfToml fields)

/-- The fields of a TOML table. -/
def fieldsOfToml : List (String × Toml) → Values
  | [] => []
  | (name, v) :: rest => (name, ofToml v) :: fieldsOfToml rest

end

mutual

/-- A JSON value as a value of a configuration. -/
def ofJson : Json → Value
  | .null => .absent
  | .bool b => .flag b
  | .integer n => .ofInt n
  | .real negative magnitude => .real (.finite negative magnitude)
  | .string s => .text s
  | .array _ => .list
  | .object fields => .table (lastOfEach (fieldsOfJson fields))
  | .unreadable => .absent

/-- The fields of a JSON object. -/
def fieldsOfJson : List (String × Json) → Values
  | [] => []
  | (name, v) :: rest => (name, ofJson v) :: fieldsOfJson rest

end

end Value

end ChainEconomy.Settings
