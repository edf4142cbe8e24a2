import ChainEconomy.Toml.Basic

/-! # Tables under construction

A table comes about in one of three ways, and this decides what may still be added to it: a header
names it, a header names a table below it, or a dotted key leads through it. A table is named by one
header only, and dotted keys reach neither tables that a header has named nor lists of tables. -/

namespace ChainEconomy.Toml

/-- How a table came about. -/
inductive Origin where
  | header
  | belowHeader
  | dottedKey
  deriving DecidableEq, Repr

/-- What stands under a key while a document is being read. -/
inductive Node where
  | value (v : Toml)
  | table (origin : Origin) (fields : List (String × Node))
  /-- A list of tables, which is never empty; the latest one is still being filled. -/
  | tables (latest : List (String × Node)) (earlier : List (List (String × Node)))

/-- The fields of a table under construction. -/
abbrev Fields := List (String × Node)

namespace Fields

/-- What stands under a key. -/
def find? (fields : Fields) (key : String) : Option Node := fields.lookup key

/-- Puts something under a key, in the place of what stands there. -/
def put (key : String) (node : Node) : Fields → Fields
  | [] => [(key, node)]
  | f :: rest => if f.1 = key then (key, node) :: rest else f :: put key node rest

/-- Changes the table at the end of a path; the tables on the way come about as needed. A dotted
path enters neither a table that a header has named nor a list of tables. -/
def changeAt (change : Origin → Fields → Option Fields) (dotted : Bool) :
    List String → Origin → Fields → Option Fields
  | [], origin, fields => change origin fields
  | key :: path, _, fields =>
    match fields.find? key with
    | none =>
      let origin := if dotted then Origin.dottedKey else Origin.belowHeader
      (changeAt change dotted path origin []).map fun inner =>
        put key (.table origin inner) fields
    | some (.value _) => none
    | some (.tables latest earlier) =>
      if dotted then none
      else
        (changeAt change dotted path .header latest).map fun inner =>
          put key (.tables inner earlier) fields
    | some (.table origin inner) =>
      if dotted ∧ origin = .header then none
      else
        (changeAt change dotted path origin inner).map fun inner =>
          put key (.table origin inner) fields

/-- Puts a value under a dotted key. -/
def addValue (path : List String) (key : String) (v : Toml) (fields : Fields) : Option Fields :=
  let change (origin : Origin) (fields : Fields) : Option Fields :=
    -- A table reached by a dotted key has to come from dotted keys itself.
    if path.isEmpty ∨ origin = .dottedKey then
      match fields.find? key with
      | none => some (put key (.value v) fields)
      | some _ => none
    else none
  changeAt change true path .header fields

/-- Starts the table that a header names. -/
def startTable (path : List String) (key : String) (fields : Fields) : Option Fields :=
  let change (_ : Origin) (fields : Fields) : Option Fields :=
    match fields.find? key with
    | none => some (put key (.table .header []) fields)
    | some (.table .belowHeader inner) => some (put key (.table .header inner) fields)
    | some _ => none
  changeAt change false path .header fields

/-- Starts one more table in the list that a header names. -/
def startListed (path : List String) (key : String) (fields : Fields) : Option Fields :=
  let change (_ : Origin) (fields : Fields) : Option Fields :=
    match fields.find? key with
    | none => some (put key (.tables [] []) fields)
    | some (.tables latest earlier) => some (put key (.tables [] (latest :: earlier)) fields)
    | some _ => none
  changeAt change false path .header fields

end Fields

mutual

/-- The value of a finished node. -/
def Node.finish : Node → Toml
  | .value v => v
  | .table _ fields => .table (finishFields fields)
  | .tables latest earlier =>
    .array ((finishTables earlier).reverse ++ [.table (finishFields latest)])

/-- The values of finished fields. -/
def finishFields : List (String × Node) → List (String × Toml)
  | [] => []
  | (key, node) :: rest => (key, node.finish) :: finishFields rest

/-- The values of finished tables. -/
def finishTables : List (List (String × Node)) → List Toml
  | [] => []
  | fields :: rest => .table (finishFields fields) :: finishTables rest

end

end ChainEconomy.Toml
