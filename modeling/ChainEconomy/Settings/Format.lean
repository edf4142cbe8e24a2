import ChainEconomy.Json.Defect
import ChainEconomy.Settings.Ini
import ChainEconomy.Settings.Json5
import ChainEconomy.Settings.Ron
import ChainEconomy.Settings.Yaml
import ChainEconomy.Toml.Reader

/-! # Formats of configuration files

The ending of a file's name tells its format. Where a path leads to no file, the ending may have
been left out. -/

namespace ChainEconomy.Settings

/-- A format of configuration files. -/
inductive Format where
  | toml
  | json
  | yaml
  | ini
  | ron
  | json5
  deriving DecidableEq, Repr

namespace Format

/-- All formats. -/
def all : List Format := [.toml, .json, .yaml, .ini, .ron, .json5]

/-- The endings of the names of files in a format. -/
def endings : Format → List String
  | .toml => ["toml"]
  | .json => ["json"]
  | .yaml => ["yaml", "yml"]
  | .ini => ["ini"]
  | .ron => ["ron"]
  | .json5 => ["json5"]

/-- The format with an ending. -/
def ofEnding? (ending : String) : Option Format := all.find? fun f => f.endings.contains ending

/-- No ending stands for two formats. -/
theorem ofEnding?_of_mem {f : Format} {ending : String} (h : ending ∈ f.endings) :
    ofEnding? ending = some f := by
  cases f <;> simp only [endings, List.mem_cons, List.not_mem_nil, or_false] at h
  all_goals first
    | (subst h; decide)
    | (rcases h with h | h <;> subst h <;> decide)

/-- What follows the last point of a file's name; a point in front of the name does not count. -/
def endingOf (path : String) : String :=
  let name := ((Text.split '/' path.toList).getLast?).getD []
  let parts := Text.split '.' name
  match parts.dropLast with
  | [] => ""
  | [[]] => ""
  | _ => String.ofList (parts.getLast?.getD [])

/-- The format of the file at a path. -/
def ofPath? (path : String) : Option Format := ofEnding? (endingOf path)

/-- The value that a JSON text holds, or the wording of its first defect. -/
def readJson (text : String) : Except String Value :=
  let cs := text.toList
  match Json.firstDefect? cs, Json.read? cs with
  | some defect, _ => .error (defect.message cs)
  | none, j => .ok (.ofJson (j.getD .unreadable))

/-- A text without the mark of its byte order in front. -/
def withoutMark (text : String) : String :=
  if text.startsWith "\uFEFF" then String.ofList (text.toList.drop 1) else text

/-- A value, or a refusal without a wording. -/
def orRefuse (v? : Option Value) : Except (Option String) Value := v?.elim (.error none) .ok

/-- The value that a text in a format holds. Of a JSON text
the first defect is told. -/
def read (f : Format) (text : String) : Except (Option String) Value :=
  match f with
  | .toml => orRefuse ((Toml.read? text).map fun fields => .table (Value.fieldsOfToml fields))
  | .json => (readJson text).mapError some
  | .yaml => orRefuse (Yaml.read? text)
  | .ini => orRefuse (Ini.read? text)
  | .ron => orRefuse (Ron.read? text)
  | .json5 => orRefuse (Json5.read? text)

/-- Whether a part of a path adds nothing to it. -/
def isIdle (part : List Char) : Bool := part.isEmpty || part = ['.']

/-- A path without the parts that add nothing to it. -/
def tidy (path : String) : String :=
  let parts := (Text.split '/' path.toList).filter (!isIdle ·)
  let start := if path.startsWith "/" then "/" else ""
  start ++ String.ofList (Text.join '/' parts)

/-- The path without the parts at its end that add nothing to it. -/
def dropIdleEnd (path : String) : String :=
  let parts := Text.split '/' path.toList
  String.ofList (Text.join '/' (parts.reverse.dropWhile isIdle).reverse)

/-- The paths with an ending in the place of one that leads to no file. -/
def candidates (path : String) : List String :=
  match dropIdleEnd path with
  | "" => []
  | path =>
    if path = ".." ∨ path.endsWith "/.." then []
    else (all.flatMap endings).map fun ending => path ++ "." ++ ending

end Format

end ChainEconomy.Settings
