import ChainEconomy.Json.Writer
import ChainEconomy.Text.Quoted

/-! # Why a JSON text is refused

A refusal is a cause, and whether it is reported together with a place in the text: a fault met
while the text is read is located, a complete value that its own type then refuses is not. -/

namespace ChainEconomy.Json

/-- Why a text or a value is refused. -/
inductive Cause where
  /-- The text is not well formed. -/
  | malformed
  | missingField (name : String)
  | duplicateField (name : String)
  /-- The tag of a union names none of its cases. -/
  | unknownVariant (name : String) (known : List String)
  /-- The value is of another kind than the expected one. -/
  | wrongKind (found expected : String)
  /-- A list of fields is too short or too long. -/
  | wrongLength (length : Nat) (expected : String)
  /-- The value has the right shape, and its type refuses it. -/
  | rejected (reason : String)
  deriving DecidableEq, Repr

/-- A refusal. -/
structure Fault where
  cause : Cause
  located : Bool
  deriving DecidableEq, Repr

/-- A refusal that is reported with its place in the text. -/
def Fault.at (cause : Cause) : Fault := ⟨cause, true⟩

/-- The same refusal, met inside a larger value. -/
def Fault.nested (f : Fault) : Fault := { f with located := true }

/-- The same refusal, met in a value that had been read completely. -/
def Fault.detached (f : Fault) : Fault := { f with located := false }

/-- A name between backquotes. -/
def named (name : String) : String := s!"`{name}`"

/-- The names a tag could have been. -/
def oneOf : List String → String
  | [] => "there are no variants"
  | [a] => "expected " ++ named a
  | [a, b] => "expected " ++ named a ++ " or " ++ named b
  | names => "expected one of " ++ ", ".intercalate (names.map named)

/-- The wording of a cause. -/
def Cause.message : Cause → String
  | .malformed => "malformed JSON"
  | .missingField name => "missing field " ++ named name
  | .duplicateField name => "duplicate field " ++ named name
  | .unknownVariant name known => "unknown variant " ++ named name ++ ", " ++ oneOf known
  | .wrongKind found expected => s!"invalid type: {found}, expected {expected}"
  | .wrongLength length expected => s!"invalid length {length}, expected {expected}"
  | .rejected reason => reason

/-- The wording of a refusal, without the place in the text. -/
def Fault.message (f : Fault) : String := f.cause.message

/-- What a value is, as refusals name it. -/
def kindName : Json → String
  | .null => "null"
  | .bool b => s!"boolean `{b}`"
  | .integer n => s!"integer `{n}`"
  | .real negative magnitude =>
    "floating point " ++ named (String.ofList (renderReal negative magnitude))
  | .string s => "string " ++ Text.quoted s
  | .array _ => "sequence"
  | .object _ => "map"
  | .unreadable => "unreadable value"

/-- A value of the wrong kind. -/
def wrongKind (j : Json) (expected : String) : Fault :=
  match j with
  | .unreadable => .at .malformed
  | j => .at (.wrongKind j.kindName expected)

/-- The value itself, unless some part of it is unreadable. -/
def complete (j : Json) : Except Fault Json :=
  if j.isReadable then .ok j else .error (.at .malformed)

end ChainEconomy.Json
