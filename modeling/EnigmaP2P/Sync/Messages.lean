import EnigmaP2P.Common.Constants
import EnigmaP2P.Js.Buffer
import EnigmaP2P.Js.Object

/-!
# Messages of the state synchronisation

Requests are built by the node itself; a response is whatever decodes from the
stream. A chunk is given by its decoded value, which is `null` for bytes that do
not decode, because encoding and decoding are left to the message package. Decoded
values are trees of own properties here: no map in them names `__proto__`, so that
every object has the prototype it was made with. `Sync.Untrusted` is about all values.
-/

namespace Sync

open Js Common

/-- `SyncStateReqMsg`: the deltas of a contract from `fromIndex` up to, and without,
`toIndex`. -/
structure SyncStateReqMsg where
  contractAddress : String
  fromIndex : Nat
  fromHash : String
  toIndex : Nat
  toHash : String
  deriving DecidableEq

/-- `SyncBcodeReqMsg`. -/
structure SyncBcodeReqMsg where
  contractAddress : String
  deriving DecidableEq

inductive SyncReqMsg where
  | state (msg : SyncStateReqMsg)
  | bcode (msg : SyncBcodeReqMsg)
  deriving DecidableEq

/-- The object that `toNetwork` encodes. -/
def SyncReqMsg.raw : SyncReqMsg → List (String × Json)
  | .state msg =>
      [("contractAddress", .str msg.contractAddress), ("fromIndex", .num msg.fromIndex),
        ("fromHash", .str msg.fromHash), ("toIndex", .num msg.toIndex),
        ("toHash", .str msg.toHash), ("msgType", .str P2PMessages.syncStateReq)]
  | .bcode msg =>
      [("contractAddress", .str msg.contractAddress),
        ("msgType", .str P2PMessages.syncBcodeReq)]

/-- `SyncStateResMsg` or `SyncBcodeResMsg` around the object received. -/
inductive SyncResMsg where
  | state (rawMsg : List (String × Json))
  | bcode (rawMsg : List (String × Json))
  deriving DecidableEq

/-- `type()`. -/
def SyncResMsg.type : SyncResMsg → String
  | .state _ => P2PMessages.syncStateRes
  | .bcode _ => P2PMessages.syncBcodeRes

/-- `this._rawMsg.result[key]`. -/
def resultField (rawMsg : List (String × Json)) (key : String) : Except Exn (Option Json) :=
  match rawMsg.lookup "result" with
  | none | some .null => .error .typeError
  | some result => .ok (result.get? key)

/-- `obj.hasOwnProperty("msgType")` and then the message type, if the object has one. -/
def ownMsgType (fields : List (String × Json)) : Except Exn (Option Json) :=
  if (fields.lookup "hasOwnProperty").isSome then .error .typeError
  else .ok (fields.lookup "msgType")

/-- `responseMessageFromNetwork`; `none` is `null`. The objects in the decoded value
have the prototypes they were made with. -/
def responseMessageFromNetwork : Json → Except Exn (Option SyncResMsg)
  | .null => .error .typeError
  | .obj fields =>
      (ownMsgType fields).map fun msgType =>
        if msgType = some (.str P2PMessages.syncStateRes) then some (.state fields)
        else if msgType = some (.str P2PMessages.syncBcodeRes) then some (.bcode fields)
        else none
  | _ => .ok none

/-- The objects that a provider parses requests into. -/
inductive ParsedReqMsg where
  | state (rawMsg : List (String × Json))
  | bcode (rawMsg : List (String × Json))
  deriving DecidableEq

/-- `requestMessageFromNetwork`; the builders set the message type once more. -/
def requestMessageFromNetwork : Json → Except Exn (Option ParsedReqMsg)
  | .null => .error .typeError
  | .obj fields =>
      (ownMsgType fields).map fun msgType =>
        if msgType = some (.str P2PMessages.syncStateReq) then
          some (.state (setField "msgType" (.str P2PMessages.syncStateReq) fields))
        else if msgType = some (.str P2PMessages.syncBcodeReq) then
          some (.bcode (setField "msgType" (.str P2PMessages.syncBcodeReq) fields))
        else none
  | _ => .ok none

/-- A request survives the way over the network. -/
theorem requestMessageFromNetwork_raw (msg : SyncReqMsg) :
    requestMessageFromNetwork (.obj msg.raw) = .ok (some (match msg with
      | .state _ => .state msg.raw
      | .bcode _ => .bcode msg.raw)) := by
  cases msg with
  | state msg => rfl
  | bcode msg => rfl

end Sync
