import ChainEconomy.Binary64.Extended

/-! # TOML values

Values of the configuration format. Dates and times are kept as their canonical text; the fields of
a table keep the order in which they were written. -/

namespace ChainEconomy

/-- A TOML value. -/
inductive Toml where
  | string (s : String)
  | integer (n : Int)
  | float (x : Binary64.Extended)
  | boolean (b : Bool)
  | datetime (s : String)
  | array (items : List Toml)
  | table (fields : List (String × Toml))
  deriving Inhabited

end ChainEconomy
