import ChainEconomy.Governance.Error
import ChainEconomy.Text.Split

/-! # Message types that governance can name

A type of the form `<route>/<type>`: both parts are there, there is one slash only, and no white
space anywhere. -/

namespace ChainEconomy.Governance

/-- Whether characters form a message type. -/
def isMessageTypeChars (cs : List Char) : Bool :=
  match Text.splitOnce? '/' cs with
  | none => false
  | some (route, kind) =>
    !route.isEmpty && !kind.isEmpty && !kind.contains '/' && !cs.any Text.isBlank

/-- Whether a text is a message type. -/
def isMessageType (text : String) : Bool := isMessageTypeChars text.toList

/-- Refuses a text that is no message type. -/
def checkMessageType (text : String) : Except ProposalFlaw Unit :=
  if isMessageType text then .ok () else .error (.messageType text)

example : isMessageType "bank/Send" = true ∧ isMessageType "bank" = false ∧
    isMessageType "a/b/c" = false ∧ isMessageType "a/ b" = false := by decide

end ChainEconomy.Governance
