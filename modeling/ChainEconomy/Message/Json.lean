import ChainEconomy.Message.Basic

/-! # Messages as JSON

An object with the field `type` for the kind of the message and the message's own fields behind it.
-/

namespace ChainEconomy

/-- A share as an object. -/
def Share.toJson (s : Share) : Json :=
  .object [("address", s.address.toJson), ("coins", s.coins.toJson)]

/-- Reads a share, which goes by the name `title` in refusals. -/
def Share.ofJson (title : String) : Json → Except Json.Fault Share :=
  Json.record title ["address", "coins"] fun r =>
    mk <$> r.required "address" Address.ofJson <*> r.required "coins" CoinSet.ofJson

namespace Message

/-- The kind of a message, as the field `type` names it. -/
def kind : Message → String
  | .registerName _ _ => "register_name"
  | .renewName _ _ => "renew_name"
  | .buyName _ _ => "buy_name"
  | .transferName _ _ _ => "transfer_name"
  | .deleteName _ _ => "delete_name"
  | .registerAddress _ _ _ => "register_address"
  | .send _ _ _ => "send"
  | .multiSend _ _ => "multi_send"
  | .createSellOrder _ _ => "create_sell_order"
  | .other _ => "other"

/-- The kinds of messages. -/
def kinds : List String :=
  ["register_name", "renew_name", "buy_name", "transfer_name", "delete_name", "register_address",
    "send", "multi_send", "create_sell_order", "other"]

/-- The fields of a message besides its kind. -/
def fields : Message → List (String × Json)
  | .registerName name owner => [("name", .string name), ("owner", owner.toJson)]
  | .renewName name owner => [("name", .string name), ("owner", owner.toJson)]
  | .buyName name buyer => [("name", .string name), ("buyer", buyer.toJson)]
  | .transferName name owner recipient =>
    [("name", .string name), ("owner", owner.toJson), ("recipient", recipient.toJson)]
  | .deleteName name owner => [("name", .string name), ("owner", owner.toJson)]
  | .registerAddress name owner address =>
    [("name", .string name), ("owner", owner.toJson), ("address", address.toJson)]
  | .send sender recipient amount =>
    [("from", sender.toJson), ("to", recipient.toJson), ("amount", amount.toJson)]
  | .multiSend inputs outputs =>
    [("inputs", .ofList Share.toJson inputs), ("outputs", .ofList Share.toJson outputs)]
  | .createSellOrder seller amount => [("seller", seller.toJson), ("amount", amount.toJson)]
  | .other typeUrl => [("type_url", .string typeUrl)]

/-- A message as an object. -/
def toJson (m : Message) : Json := .object (("type", .string m.kind) :: m.fields)

/-- Reads the fields of a message about a name and its owner. -/
def ofNameAndOwner (make : String → Address → Message) (title owner : String) :
    Json → Except Json.Fault Message :=
  Json.record title ["name", owner] fun r =>
    make <$> r.required "name" Json.toText <*> r.required owner Address.ofJson

/-- Reads the fields of a message about a name, its owner and another account. -/
def ofNameAndTwo (make : String → Address → Address → Message) (title third : String) :
    Json → Except Json.Fault Message :=
  Json.record title ["name", "owner", third] fun r =>
    make <$> r.required "name" Json.toText <*> r.required "owner" Address.ofJson
      <*> r.required third Address.ofJson

/-- Reads the fields of a message of a given kind. -/
def ofFields (kind : String) (j : Json) : Except Json.Fault Message :=
  match kind with
  | "register_name" => ofNameAndOwner .registerName "RegisterName" "owner" j
  | "renew_name" => ofNameAndOwner .renewName "RenewName" "owner" j
  | "buy_name" => ofNameAndOwner .buyName "BuyName" "buyer" j
  | "transfer_name" => ofNameAndTwo .transferName "TransferName" "recipient" j
  | "delete_name" => ofNameAndOwner .deleteName "DeleteName" "owner" j
  | "register_address" => ofNameAndTwo .registerAddress "RegisterAddress" "address" j
  | "send" =>
    Json.record "Send" ["from", "to", "amount"] (fun r =>
      send <$> r.required "from" Address.ofJson <*> r.required "to" Address.ofJson
        <*> r.required "amount" CoinSet.ofJson) j
  | "multi_send" =>
    Json.record "MultiSend" ["inputs", "outputs"] (fun r =>
      multiSend <$> r.required "inputs" (Json.toList (Share.ofJson "Input"))
        <*> r.required "outputs" (Json.toList (Share.ofJson "Output"))) j
  | "create_sell_order" =>
    Json.record "CreateSellOrder" ["seller", "amount"] (fun r =>
      createSellOrder <$> r.required "seller" Address.ofJson
        <*> r.required "amount" CoinSet.ofJson) j
  | "other" =>
    Json.record "Other" ["type_url"] (fun r => other <$> r.required "type_url" Json.toText) j
  | unknown => .error (.at (.unknownVariant unknown kinds))

/-- Reads a message. -/
def ofJson (j : Json) : Except Json.Fault Message := do
  let (kind, rest) ← Json.untag "Message" "type" j
  -- All of the value has been read to find its tag, so that a refusal has no place any more.
  if kinds.contains kind then (ofFields kind rest).mapError Json.Fault.detached
  else .error (.at (.unknownVariant kind kinds))

end Message

end ChainEconomy
