import ChainEconomy.Fee.Exclusions
import ChainEconomy.Governance.MessageType
import ChainEconomy.Governance.ParamChange

/-! # Proposals

A title, a description and a measure: exempting a message type from the surcharge, charging it
again, or changing parameters. A proposal that has passed is handled by checking and then applying
it. -/

namespace ChainEconomy.Governance

/-- What a proposal does. -/
inductive Measure where
  | exempt (messageType : String)
  | charge (messageType : String)
  | change (changes : List ParamChange)
  deriving DecidableEq, Repr

/-- A measure with its reasons. -/
structure Proposal where
  title : String
  description : String
  measure : Measure
  deriving DecidableEq, Repr

/-- Refuses a title or a description that is blank or too long. -/
def checkText (title description : String) : Except ProposalFlaw Unit :=
  if Text.allBlank title.toList then .error .blankTitle
  else if maxTitleLength < title.toList.length then .error .titleTooLong
  else if Text.allBlank description.toList then .error .blankDescription
  else if maxDescriptionLength < description.toList.length then .error .descriptionTooLong
  else .ok ()

namespace Measure

/-- Refuses a measure that does not say what to do. -/
def check : Measure → Except ProposalFlaw Unit
  | .exempt messageType => checkMessageType messageType
  | .charge messageType => checkMessageType messageType
  | .change changes =>
    if changes.isEmpty then .error .noChanges
    else if changes.any fun c => c.subspace.isEmpty || c.key.isEmpty then .error .incompleteChange
    else .ok ()

/-- The name of the kind of a measure. -/
def kindName : Measure → String
  | .exempt _ => "ExcludeMessageType"
  | .charge _ => "IncludeMessageType"
  | .change _ => "ParameterChange"

end Measure

namespace Proposal

/-- Refuses a proposal that is not well formed. -/
def check (p : Proposal) : Except Error Unit := do
  (checkText p.title p.description).mapError Error.invalidProposal
  p.measure.check.mapError Error.invalidProposal

/-- The report of a measure about a message type. -/
def event (p : Proposal) (kind messageType : String) : Event :=
  .ofPairs kind
    [("title", p.title), ("description", p.description), ("message_type", messageType)]

/-- Makes the change of a store that is refused with a failure of the store. -/
def write (f : Store → Except StorageError Store) : Attempt Store Error Unit :=
  Attempt.change fun s => (f s).mapError Error.storage

/-- Carries out the measure, without looking at the title and the description. -/
def apply (p : Proposal) : Attempt Store Error (List Event) :=
  match p.measure with
  | .exempt messageType => do
    write fun s => Fee.Exclusions.add s messageType
    return [p.event "exclude_message_type" messageType]
  | .charge messageType => do
    write fun s => Fee.Exclusions.remove s messageType
    return [p.event "include_message_type" messageType]
  | .change changes => ParamChange.applyAll changes

/-- Checks a proposal and carries it out. -/
def handle (p : Proposal) : Attempt Store Error (List Event) := do
  Attempt.ofExcept p.check
  p.apply

/-! ## Proposals as JSON -/

/-- The kind of a proposal, as the field `kind` names it. -/
def kind (p : Proposal) : String :=
  match p.measure with
  | .exempt _ => "exclude_message_type"
  | .charge _ => "include_message_type"
  | .change _ => "param_change"

/-- The kinds of proposals. -/
def kinds : List String := ["exclude_message_type", "include_message_type", "param_change"]

/-- The fields of a measure. -/
def measureFields : Measure → List (String × Json)
  | .exempt messageType => [("message_type", .string messageType)]
  | .charge messageType => [("message_type", .string messageType)]
  | .change changes => [("changes", .ofList ParamChange.toJson changes)]

/-- A proposal as an object. -/
def toJson (p : Proposal) : Json :=
  .object (("kind", .string p.kind) :: ("title", .string p.title) ::
    ("description", .string p.description) :: measureFields p.measure)

/-- Reads the fields of a proposal with one field of its own. -/
def ofRecord {α : Type} (title field : String) (decode : Json → Except Json.Fault α)
    (make : α → Measure) : Json → Except Json.Fault Proposal :=
  Json.record title ["title", "description", field] fun r =>
    mk <$> r.required "title" Json.toText <*> r.required "description" Json.toText
      <*> (make <$> r.required field decode)

/-- Reads the fields of a proposal of a given kind. -/
def ofFields (kind : String) (j : Json) : Except Json.Fault Proposal :=
  match kind with
  | "exclude_message_type" =>
    ofRecord "ExcludeMessageTypeProposal" "message_type" Json.toText Measure.exempt j
  | "include_message_type" =>
    ofRecord "IncludeMessageTypeProposal" "message_type" Json.toText Measure.charge j
  | "param_change" =>
    ofRecord "ParamChangeProposal" "changes" (Json.toList ParamChange.ofJson) Measure.change j
  | unknown => .error (.at (.unknownVariant unknown kinds))

/-- Reads a proposal. -/
def ofJson (j : Json) : Except Json.Fault Proposal := do
  let (kind, rest) ← Json.untag "Proposal" "kind" j
  -- All of the value has been read to find its tag, so that a refusal has no place any more.
  if kinds.contains kind then (ofFields kind rest).mapError Json.Fault.detached
  else .error (.at (.unknownVariant kind kinds))

end Proposal

end ChainEconomy.Governance
