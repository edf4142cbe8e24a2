import ChainEconomy.Message.Json

/-! # Transactions

Messages in order, paid for by one account, with a memo. -/

namespace ChainEconomy

/-- Messages that are carried out together. -/
structure Transaction where
  messages : List Message
  feePayer : Address
  memo : String
  deriving DecidableEq

namespace Transaction

/-- What is wrong with a transaction. -/
inductive Flaw where
  | noMessages
  | noFeePayer
  | memoTooLong (bytes : Nat)
  | inMessage (index : Nat) (typeUrl : String) (flaw : Message.Flaw)
  deriving DecidableEq

/-- The largest number of bytes in a memo. -/
def maxMemoBytes : Nat := 256

/-- The wording of a flaw. -/
def Flaw.message : Flaw → String
  | .noMessages => "transaction carries no messages"
  | .noFeePayer => "transaction has no fee payer"
  | .memoTooLong bytes => s!"memo is {bytes} bytes, limit is {maxMemoBytes}"
  | .inMessage index typeUrl flaw =>
    let reason := flaw.message
    s!"message {index} ({typeUrl}) is malformed: {reason}"

/-- Refuses the first message that is not well formed, counting from `index`. -/
def checkMessages (index : Nat) : List Message → Except Flaw Unit
  | [] => .ok ()
  | m :: rest =>
    match m.check with
    | .error flaw => .error (.inMessage index m.typeUrl flaw)
    | .ok () => checkMessages (index + 1) rest

/-- Refuses a transaction that is not well formed. -/
def check (tx : Transaction) : Except Flaw Unit :=
  let bytes := (Text.Utf8.ofString tx.memo).length
  if tx.messages.isEmpty then .error .noMessages
  else if tx.feePayer.isZero then .error .noFeePayer
  else if maxMemoBytes < bytes then .error (.memoTooLong bytes)
  else checkMessages 0 tx.messages

/-- A transaction as an object. -/
def toJson (tx : Transaction) : Json :=
  .object [("messages", .ofList Message.toJson tx.messages), ("fee_payer", tx.feePayer.toJson),
    ("memo", .string tx.memo)]

/-- Reads a transaction. -/
def ofJson : Json → Except Json.Fault Transaction :=
  Json.record "Transaction" ["messages", "fee_payer", "memo"] fun r =>
    mk <$> r.required "messages" (Json.toList Message.ofJson)
      <*> r.required "fee_payer" Address.ofJson
      <*> r.optional "memo" "" Json.toText

end Transaction

end ChainEconomy
