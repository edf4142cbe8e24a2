import ChainEconomy.Settings.Value

/-! # Names of settings

Names are told apart without regard to case. A name with points in it leads through tables, and
numbers in brackets lead into lists: `a.b[0]` is the first item of the list `b` in the table `a`. A
name that does not have this form is a plain name. -/

namespace ChainEconomy.Settings

/-- A letter in lower case. Besides the capital letters of ASCII, the sign for kelvin is the only
character whose lower case is a letter of ASCII. -/
def lowerChar (c : Char) : Char := if c = '\u212A' then 'k' else c.toLower

/-- A name in lower case, as far as its letters can occur in the name of a setting. -/
def lowerName (name : String) : String := String.ofList (name.toList.map lowerChar)

/-- Where a value belongs: the names of the tables that lead to it and its own name, and whether it
is an item of a list that stands there. -/
structure Path where
  names : List String
  isItem : Bool
  deriving DecidableEq, Repr

/-- Whether a character may be part of a name on a path. -/
def isNameChar (c : Char) : Bool := c.isAlphanum || c = '_' || c = '-' || c = ' '

/-- Whether a character may stand around a number in brackets. -/
def isGap (c : Char) : Bool := c = ' ' || c = '\t'

/-- The text behind a number in brackets, of which the opening one has been read. -/
def afterIndex? (cs : List Char) : Option (List Char) :=
  let (negative, body) :=
    match cs.dropWhile isGap with
    | '-' :: rest => (true, rest)
    | rest => (false, rest)
  let digits := body.takeWhile Char.isDigit
  let n : Int := Text.digitsValue digits
  match digits.isEmpty || !Value.isWhole (if negative then -n else n),
      (body.dropWhile Char.isDigit).dropWhile isGap with
  | false, ']' :: rest => some rest
  | _, _ => none

/-- The names behind the first one, as far as they lead through tables only, and whether the path
goes on into a list. -/
def readSteps : Nat → List Char → Option (List String × Bool)
  | _, [] => some ([], false)
  | 0, _ => none
  | fuel + 1, '.' :: rest =>
    match rest.takeWhile isNameChar with
    | [] => none
    | name =>
      match readSteps fuel (rest.dropWhile isNameChar) with
      | none => none
      | some (names, isItem) => some (String.ofList name :: names, isItem)
  | fuel + 1, '[' :: rest =>
    match afterIndex? rest with
    | none => none
    | some rest => (readSteps fuel rest).map fun _ => ([], true)
  | _ + 1, _ => none

/-- The path that a name stands for. -/
def Path.ofName (name : String) : Path :=
  let cs := name.toList
  match cs.takeWhile isNameChar, readSteps cs.length (cs.dropWhile isNameChar) with
  | [], _ => ⟨[name], false⟩
  | _, none => ⟨[name], false⟩
  | first, some (names, isItem) => ⟨String.ofList first :: names, isItem⟩

example : Path.ofName "a.b c[ -1 ].d" = ⟨["a", "b c"], true⟩ := by decide +kernel
example : Path.ofName "a..b" = ⟨["a..b"], false⟩ := by decide +kernel
example : Path.ofName "a[0]b" = ⟨["a[0]b"], false⟩ := by decide +kernel

end ChainEconomy.Settings
