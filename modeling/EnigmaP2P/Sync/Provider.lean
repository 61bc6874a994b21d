import EnigmaP2P.Sync.Receiver
import EnigmaP2P.Sync.Requests

/-!
# Answering requests

A provider parses a request, asks its core for deltas or bytecode and sends what the
core answers. `coreAnswer` is a core that holds a database and takes the end of a
range as exclusive, as the mock core of the repository does. For a database with the
data of the chain, the responses to the requests for a run of missing deltas verify.
-/

namespace Sync

open Js Common Ethereum

/-- What a core stores of a contract. -/
structure StoredContract where
  bytecode : List UInt8
  deltas : List (Nat × List UInt8)

abbrev CoreDb := List (String × StoredContract)

/-- An element of `result.deltas`. -/
def deltaItem (address : String) (key : Nat) (data : List UInt8) : Json :=
  .obj [("address", .str address), ("key", .num key), ("data", ofBytes data)]

/-- `_getDeltas` for one range of one contract. -/
def getDeltas (db : CoreDb) (address : String) (low high : Nat) : List Json :=
  match db.lookup address with
  | none => []
  | some contract => (List.range' low (high - low)).filterMap fun key =>
      (contract.deltas.lookup key).map (deltaItem address key)

/-- The answer of a core to the queries of a provider. -/
def coreAnswer (db : CoreDb) (id type : String) (input : Json) : CoreResponse :=
  let failure := [("id", .str id), ("type", .str "Error"),
    ("msg", .str ("Message Error, Type: " ++ type))]
  if type = CoreRequests.getDeltas then
    match input with
    | .arr [range] =>
        match range.get? "address", range.get? "from", range.get? "to" with
        | some (.str address), some (.num low), some (.num high) =>
            [("type", .str type), ("id", .str id), ("result", .obj
              [("deltas", .arr (getDeltas db address low.num.toNat high.num.toNat))])]
        | _, _, _ => failure
    | _ => failure
  else if type = CoreRequests.getContract then
    match input with
    | .str address =>
        [("type", .str type), ("id", .str id), ("result", .obj
          [("address", .str address),
            ("bytecode", match db.lookup address with
              | some contract => ofBytes contract.bytecode
              | none => .null)])]
    | _ => failure
  else failure

/-- What a provider does with one chunk: it sends a response, ends the stream because the
request is none, or ends it with the error of its core. -/
inductive Response where
  | send (chunk : Json)
  | close
  | abort (err : Option Json)
  deriving DecidableEq

/-- An object without the properties that are `undefined`. -/
def defined (fields : List (String × Option Json)) : Json :=
  .obj (fields.filterMap fun field => field.2.map (field.1, ·))

/-- `_fromDbStream` with `GetDeltasAction` and `GetContractCodeAction`: the query for a
request and the answer of the core. -/
def fromDbStream (core : String → Json → CoreResponse) : ParsedReqMsg → CoreResponse
  | .state rawMsg => core CoreRequests.getDeltas
      (.arr [defined [("address", rawMsg.lookup "contractAddress"),
        ("from", rawMsg.lookup "fromIndex"), ("to", rawMsg.lookup "toIndex")]])
  | .bcode rawMsg => core CoreRequests.getContract
      ((rawMsg.lookup "contractAddress").getD .null)

/-- `_toNetworkParse`: the message type follows the type of the answer. -/
def toNetworkParse (data : CoreResponse) : Json :=
  if data.lookup "type" = some (.str CoreRequests.getDeltas) then
    .obj (setField "msgType" (.str P2PMessages.syncStateRes) data)
  else if data.lookup "type" = some (.str CoreRequests.getContract) then
    .obj (setField "msgType" (.str P2PMessages.syncBcodeRes) data)
  else .obj data

/-- `onResponse` of `_fromDbStream`, and the stage behind it. -/
def onDbResponse (dbResult : CoreResponse) : Response :=
  if truthy? (dbResult.lookup "error") then .abort (dbResult.lookup "error")
  else .send (toNetworkParse dbResult)

/-- `startStateSyncResponse` for one chunk of the stream. -/
def respond (core : String → Json → CoreResponse) (chunk : Json) : Except Exn Response :=
  (requestMessageFromNetwork chunk).map fun parsedData =>
    match parsedData with
    | none => .close
    | some msg => onDbResponse (fromDbStream core msg)

/-- The core of a provider holds the data of a missing run, with the recorded hashes. -/
def Serves (platform : Platform) (contract : StoredContract) (contractData : MissingState) :
    Prop :=
  (∀ delta ∈ contractData.deltas, ∃ data, contract.deltas.lookup delta.index = some data ∧
    platform.sha3 data = some delta.deltaHash) ∧
  ∀ bytecodeHash, contractData.bytecodeHash = some bytecodeHash →
    platform.sha3 contract.bytecode = some bytecodeHash

/-- The data that the database has under an index. -/
def StoredContract.dataAt (contract : StoredContract) (index : Nat) : List UInt8 :=
  (contract.deltas.lookup index).getD []

/-- The response of an honest provider, as the object that arrives. -/
def stateResponse (id address : String) (contract : StoredContract) (indexes : List Nat) :
    List (String × Json) :=
  [("type", .str CoreRequests.getDeltas), ("id", .str id),
    ("result", .obj [("deltas", .arr (indexes.map fun index =>
      deltaItem address index (contract.dataAt index)))]),
    ("msgType", .str P2PMessages.syncStateRes)]

def bcodeResponse (id address : String) (contract : StoredContract) : List (String × Json) :=
  [("type", .str CoreRequests.getContract), ("id", .str id),
    ("result", .obj [("address", .str address), ("bytecode", ofBytes contract.bytecode)]),
    ("msgType", .str P2PMessages.syncBcodeRes)]

/-- The core answers the queries for a contract with what it has of it: a range without its upper
end, and the bytecode. -/
structure AnswersFor (core : String → Json → CoreResponse) (id address : String)
    (contract : StoredContract) : Prop where
  deltas : ∀ low high : Nat,
    (∀ index ∈ List.range' low (high - low), contract.deltas.lookup index ≠ none) →
    core CoreRequests.getDeltas (.arr [.obj
        [("address", .str address), ("from", .num low), ("to", .num high)]]) =
      [("type", .str CoreRequests.getDeltas), ("id", .str id),
        ("result", .obj [("deltas", .arr ((List.range' low (high - low)).map fun index =>
          deltaItem address index (contract.dataAt index)))])]
  bytecode : core CoreRequests.getContract (.str address) =
    [("type", .str CoreRequests.getContract), ("id", .str id),
      ("result", .obj [("address", .str address), ("bytecode", ofBytes contract.bytecode)])]

section

variable {db : CoreDb} {contract : StoredContract} {id : String}

/-- The deltas of a range that the database has completely. -/
theorem getDeltas_eq {address : String} (found : db.lookup address = some contract)
    {low high : Nat}
    (held : ∀ index ∈ List.range' low (high - low), contract.deltas.lookup index ≠ none) :
    getDeltas db address low high = (List.range' low (high - low)).map fun index =>
      deltaItem address index (contract.dataAt index) := by
  rw [getDeltas, found]
  refine List.filterMap_eq_map_iff_forall_eq_some.mpr fun index member => ?_
  obtain ⟨data, present⟩ := Option.ne_none_iff_exists'.mp (held index member)
  rw [StoredContract.dataAt, present]
  rfl

theorem answersFor_coreAnswer {address : String} (found : db.lookup address = some contract)
    (id : String) : AnswersFor (coreAnswer db id) id address contract := by
  constructor
  · intro low high held
    have answer : coreAnswer db id CoreRequests.getDeltas (.arr [.obj
        [("address", .str address), ("from", .num low), ("to", .num high)]]) =
        [("type", .str CoreRequests.getDeltas), ("id", .str id), ("result", .obj
          [("deltas", .arr (getDeltas db address (low : Rat).num.toNat
            (high : Rat).num.toNat))])] := rfl
    rw [answer, Rat.num_natCast, Rat.num_natCast, Int.toNat_natCast, Int.toNat_natCast,
      getDeltas_eq found held]
  · simp [coreAnswer, CoreRequests.getContract, CoreRequests.getDeltas, found]

end

variable {core : String → Json → CoreResponse} {contract : StoredContract} {id : String}

/-- It answers the queries for less of the contract, too. -/
theorem AnswersFor.of_le {address : String} {part : StoredContract}
    (answers : AnswersFor core id address contract) (same : contract.bytecode = part.bytecode)
    (le : ∀ index data, part.deltas.lookup index = some data →
      contract.deltas.lookup index = some data) : AnswersFor core id address part := by
  refine ⟨fun low high held => ?_, same ▸ answers.bytecode⟩
  have present : ∀ index ∈ List.range' low (high - low),
      contract.deltas.lookup index = part.deltas.lookup index := by
    intro index member
    obtain ⟨data, isHeld⟩ := Option.ne_none_iff_exists'.mp (held index member)
    rw [isHeld, le index data isHeld]
  rw [answers.deltas low high fun index member => present index member ▸ held index member]
  have items : (List.range' low (high - low)).map (fun index =>
        deltaItem address index (contract.dataAt index)) =
      (List.range' low (high - low)).map fun index =>
        deltaItem address index (part.dataAt index) := by
    refine List.map_congr_left fun index member => ?_
    rw [StoredContract.dataAt, StoredContract.dataAt, present index member]
  rw [items]

theorem respond_state {msg : SyncStateReqMsg}
    (answers : AnswersFor core id msg.contractAddress contract)
    (held : ∀ index ∈ msg.indexes, contract.deltas.lookup index ≠ none) :
    respond core (.obj (SyncReqMsg.state msg).raw) =
      .ok (.send (.obj (stateResponse id msg.contractAddress contract msg.indexes))) := by
  have answer : fromDbStream core (.state (SyncReqMsg.state msg).raw) = _ :=
    answers.deltas msg.fromIndex msg.toIndex held
  rw [respond, requestMessageFromNetwork_raw]
  change Except.ok (onDbResponse (fromDbStream core (.state (SyncReqMsg.state msg).raw))) = _
  rw [answer]
  rfl

theorem respond_bcode {msg : SyncBcodeReqMsg}
    (answers : AnswersFor core id msg.contractAddress contract) :
    respond core (.obj (SyncReqMsg.bcode msg).raw) =
      .ok (.send (.obj (bcodeResponse id msg.contractAddress contract))) := by
  rw [respond, requestMessageFromNetwork_raw]
  change Except.ok (onDbResponse
    (core CoreRequests.getContract (.str msg.contractAddress))) = _
  rw [answers.bytecode]
  rfl

end Sync
