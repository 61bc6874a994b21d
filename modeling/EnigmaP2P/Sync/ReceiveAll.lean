import EnigmaP2P.Sync.Provider
import EnigmaP2P.Sync.Receiver

/-!
# Receiving everything from an honest provider

The requests built for a missing list, the responses of a provider whose core holds the
data of the chain, and the verification and the writes of the receiver fit together:
every response verifies, and what is written to the core is the missing deltas, each
once, and the bytecode where it was missing.
-/

namespace Sync

open Js Common Ethereum

/-- What the core's `UpdateDbAction` sends to the core for a response. -/
inductive CoreWrite where
  | updateDeltas (deltas : Option Json)
  | updateNewContract (address bytecode : Option Json)
  deriving DecidableEq

/-- `_buildRequest` for a response of the sync process. -/
def buildRequest : SyncResMsg → Except Exn CoreWrite
  | .state rawMsg => (resultField rawMsg "deltas").map .updateDeltas
  | .bcode rawMsg => do
      let address ← resultField rawMsg "address"
      let bytecode ← resultField rawMsg "bytecode"
      pure (.updateNewContract address bytecode)

/-- The deltas of a write. -/
def CoreWrite.deltas : CoreWrite → List Json
  | .updateDeltas (some (.arr items)) => items
  | _ => []

/-- The contracts whose bytecode a write adds. -/
def CoreWrite.bytecodes : CoreWrite → List (Option Json × Option Json)
  | .updateDeltas _ => []
  | .updateNewContract address bytecode => [(address, bytecode)]

variable {platform : Platform} {db : CoreDb} {contract : StoredContract} {id : String}
variable {remoteMissingStates : RemoteMissingStates} {contractData : MissingState} {first : Nat}

/-- The items of the deltas that a contract has at these indexes. -/
def itemsOf (address : String) (contract : StoredContract) (indexes : List Nat) : List Json :=
  indexes.map fun index => deltaItem address index (contract.dataAt index)

/-! ## Responses verify -/

theorem hash_dataAt (serves : Serves platform contract contractData) {delta : MissingDelta}
    (member : delta ∈ contractData.deltas) :
    Common.hash platform (some (ofBytes (contract.dataAt delta.index))) =
      .ok (some delta.deltaHash) := by
  obtain ⟨data, present, digest⟩ := serves.1 delta member
  rw [hash_ofBytes, StoredContract.dataAt, present]
  exact congrArg Except.ok digest

/-- The response to a range of missing indexes passes. -/
theorem verify_stateResponse
    (recorded : remoteMissingStates.lookup contractData.address = some (remoteStateOf contractData))
    (missing : MissingRun contractData first) (serves : Serves platform contract contractData)
    {indexes : List Nat} (asked : ∀ index ∈ indexes, index ∈ contractData.deltas.map (·.index)) :
    verify platform remoteMissingStates
      (.state (stateResponse id contractData.address contract indexes)) = .ok none := by
  have passes : verifyDeltas platform remoteMissingStates
      ((itemsOf contractData.address contract indexes).map some) = .ok none := by
    refine verifyDeltas_of_forall fun item member => ?_
    obtain ⟨json, listed, rfl⟩ := List.mem_map.mp member
    obtain ⟨index, inRange, rfl⟩ := List.mem_map.mp listed
    obtain ⟨delta, isMissing, rfl⟩ := List.mem_map.mp (asked index inRange)
    refine verifyDelta_of_matches nofun rfl ?_ ⟨remoteStateOf contractData, delta.deltaHash,
      recorded, missing.lookup_remoteStateOf isMissing, hash_dataAt serves isMissing⟩
    exact (Json.toKey_num delta.index).trans
      (congrArg Except.ok (Json.numToString_natCast delta.index))
  exact passes

/-- The response to a bytecode request passes. -/
theorem verify_bcodeResponse
    (recorded : remoteMissingStates.lookup contractData.address = some (remoteStateOf contractData))
    (serves : Serves platform contract contractData)
    (isMissing : contractData.bytecodeHash.isSome) :
    verify platform remoteMissingStates
      (.bcode (bcodeResponse id contractData.address contract)) = .ok none := by
  obtain ⟨bytecodeHash, present⟩ := Option.isSome_iff_exists.mp isMissing
  refine verify_of_matchesBytecode rfl (Json.toKey_str contractData.address) rfl
    ⟨remoteStateOf contractData, bytecodeHash, recorded, present, ?_⟩
  exact (hash_ofBytes platform contract.bytecode).trans
    (congrArg Except.ok (serves.2 bytecodeHash present))

/-! ## One contract -/

/-- The chunk that answers a request. -/
def responseTo (id : String) (contract : StoredContract) : SyncReqMsg → List (String × Json)
  | .state msg => stateResponse id msg.contractAddress contract msg.indexes
  | .bcode msg => bcodeResponse id msg.contractAddress contract

/-- The response as the receiver parses it. -/
def parsedResponseTo (id : String) (contract : StoredContract) : SyncReqMsg → SyncResMsg
  | .state msg => .state (stateResponse id msg.contractAddress contract msg.indexes)
  | .bcode msg => .bcode (bcodeResponse id msg.contractAddress contract)

theorem responseMessageFromNetwork_responseTo (request : SyncReqMsg) :
    responseMessageFromNetwork (.obj (responseTo id contract request)) =
      .ok (some (parsedResponseTo id contract request)) := by
  cases request with
  | state msg => rfl
  | bcode msg => rfl

/-- The requests of a contract, in the order in which they are sent. -/
def ReqMsgs.all (msgs : ReqMsgs) : List SyncReqMsg :=
  msgs.deltasReq ++ msgs.bcodeReq.toList

/-- What is asked for is missing. -/
theorem Requests.indexes_missing {msgs : ReqMsgs} (requests : Requests contractData msgs)
    {request : SyncStateReqMsg} (member : SyncReqMsg.state request ∈ msgs.all) :
    request.contractAddress = contractData.address ∧
      ∀ index ∈ request.indexes, index ∈ contractData.deltas.map (·.index) := by
  obtain ⟨reqs, states, each, -, covered⟩ := requests.ranges
  have listed : request ∈ reqs := by
    rw [ReqMsgs.all, states, requests.bytecode] at member
    rcases List.mem_append.mp member with state | bcode
    · obtain ⟨req, inReqs, same⟩ := List.mem_map.mp state
      cases same
      exact inReqs
    · split at bcode
      · cases List.mem_singleton.mp bcode
      · cases bcode
  refine ⟨(each request listed).1, fun index inRange => ?_⟩
  rw [← covered]
  exact List.mem_flatMap.mpr ⟨request, listed, inRange⟩

theorem Requests.bytecode_missing {msgs : ReqMsgs} (requests : Requests contractData msgs)
    {request : SyncBcodeReqMsg} (member : SyncReqMsg.bcode request ∈ msgs.all) :
    request.contractAddress = contractData.address ∧ contractData.bytecodeHash.isSome := by
  obtain ⟨reqs, states, -⟩ := requests.ranges
  rw [ReqMsgs.all, states, requests.bytecode] at member
  rcases List.mem_append.mp member with state | bcode
  · obtain ⟨req, -, same⟩ := List.mem_map.mp state
    cases same
  · split at bcode
    · rename_i isMissing
      cases List.mem_singleton.mp bcode
      exact ⟨rfl, isMissing⟩
    · cases bcode

/-- The provider answers each request of a contract, and the receiver accepts the answer. -/
theorem honest_response {core : String → Json → CoreResponse}
    (answers : AnswersFor core id contractData.address contract)
    (recorded : remoteMissingStates.lookup contractData.address = some (remoteStateOf contractData))
    (missing : MissingRun contractData first) (serves : Serves platform contract contractData)
    {msgs : ReqMsgs} (requests : Requests contractData msgs) {request : SyncReqMsg}
    (member : request ∈ msgs.all) :
    respond core (.obj request.raw) = .ok (.send (.obj (responseTo id contract request))) ∧
      verify platform remoteMissingStates (parsedResponseTo id contract request) = .ok none := by
  cases request with
  | state msg =>
      obtain ⟨address, asked⟩ := requests.indexes_missing member
      constructor
      · refine respond_state (address ▸ answers) fun index inRange => ?_
        obtain ⟨delta, isMissing, rfl⟩ := List.mem_map.mp (asked index inRange)
        obtain ⟨data, present, -⟩ := serves.1 delta isMissing
        rw [present]
        exact Option.some_ne_none data
      · rw [parsedResponseTo, address]
        exact verify_stateResponse recorded missing serves asked
  | bcode msg =>
      obtain ⟨address, isMissing⟩ := requests.bytecode_missing member
      constructor
      · exact respond_bcode (address ▸ answers)
      · rw [parsedResponseTo, address]
        exact verify_bcodeResponse recorded serves isMissing

/-- A stream of accepted items ends with all of them written. -/
theorem collect_of_accepted {requests : List SyncReqMsg}
    {item : SyncReqMsg → Json × CoreResponse} {written : SyncReqMsg → Stored}
    (all : ∀ request ∈ requests,
      accepted platform remoteMissingStates (item request) = some (written request))
    (failure : Option String) (stored : List Stored) :
    collect platform remoteMissingStates failure (requests.map item) stored =
      .called failure (stored ++ requests.map written) := by
  induction requests generalizing stored with
  | nil => simp [collect]
  | cons request rest ih =>
      obtain ⟨now, later⟩ := List.forall_mem_cons.mp all
      rw [List.map_cons, collect_accepted now, ih later]
      simp

/-- What the core is asked to write for the answer to a request. -/
def writeFor (contract : StoredContract) : SyncReqMsg → CoreWrite
  | .state msg => .updateDeltas
      (some (.arr (itemsOf msg.contractAddress contract msg.indexes)))
  | .bcode msg => .updateNewContract (some (.str msg.contractAddress))
      (some (ofBytes contract.bytecode))

theorem buildRequest_parsedResponseTo (requests : List SyncReqMsg) :
    (requests.map (parsedResponseTo id contract)).mapM buildRequest =
      .ok (requests.map (writeFor contract)) := by
  induction requests with
  | nil => rfl
  | cons request rest ih =>
      have first : buildRequest (parsedResponseTo id contract request) =
          .ok (writeFor contract request) := by
        cases request with
        | state msg => rfl
        | bcode msg => rfl
      rw [List.map_cons, List.mapM_cons, first, ih]
      rfl

/-- The writes of one contract are its missing deltas, in order, and its bytecode if that
was missing. -/
theorem Requests.writes {msgs : ReqMsgs} (requests : Requests contractData msgs)
    (contract : StoredContract) :
    (msgs.all.map (writeFor contract)).flatMap CoreWrite.deltas =
        itemsOf contractData.address contract (contractData.deltas.map (·.index)) ∧
      (msgs.all.map (writeFor contract)).flatMap CoreWrite.bytecodes =
        if contractData.bytecodeHash.isSome then
          [(some (.str contractData.address), some (ofBytes contract.bytecode))]
        else [] := by
  obtain ⟨reqs, states, each, -, covered⟩ := requests.ranges
  have deltas : (reqs.map SyncReqMsg.state).flatMap
      (fun request => (writeFor contract request).deltas) =
      itemsOf contractData.address contract (contractData.deltas.map (·.index)) := by
    rw [← covered, itemsOf, List.map_flatMap, List.flatMap_map]
    refine List.flatMap_congr fun request member => ?_
    change itemsOf request.contractAddress contract request.indexes = _
    rw [(each request member).1]
    rfl
  have noBytecodes : (reqs.map SyncReqMsg.state).flatMap
      (fun request => (writeFor contract request).bytecodes) = [] := by
    rw [List.flatMap_map]
    exact List.flatMap_eq_nil_iff.mpr fun request _ => rfl
  rw [List.flatMap_map, List.flatMap_map, ReqMsgs.all, states, requests.bytecode,
    List.flatMap_append, List.flatMap_append, deltas, noBytecodes]
  by_cases isMissing : contractData.bytecodeHash.isSome
  · rw [if_pos isMissing, if_pos isMissing]
    exact ⟨List.append_nil _, rfl⟩
  · rw [if_neg isMissing, if_neg isMissing]
    exact ⟨List.append_nil _, rfl⟩

/-! ## The whole missing list -/

/-- For every missing list with distinct addresses and non-empty runs, and a provider with
the data of the chain: the requests are built and have the required ranges; the provider
answers each of them, the answer verifies against the map of the missing list; and once
the core has accepted every write, the sync of a contract has succeeded and has written
exactly its missing deltas, each once, and its bytecode exactly if it was missing. -/
theorem receiveAll_honest {missingList : List MissingState}
    (distinct : (missingList.map (·.address)).Nodup)
    (missing : ∀ contractData ∈ missingList, ∃ first, MissingRun contractData first)
    (serves : ∀ contractData ∈ missingList, ∃ contract,
      db.lookup contractData.address = some contract ∧ Serves platform contract contractData)
    (id : String) :
    ∃ result, buildMissingStatesResult missingList = .ok result ∧
      (result.map (·.1)).Perm (missingList.map (·.address)) ∧
      ∀ contractData ∈ missingList, ∃ msgs contract,
        Requests contractData msgs ∧
        result.lookup contractData.address = some msgs.all ∧
        db.lookup contractData.address = some contract ∧
        (∀ request ∈ msgs.all, ∃ chunk data,
          respond (coreAnswer db id) (.obj request.raw) = .ok (.send chunk) ∧
          responseMessageFromNetwork chunk = .ok (some data) ∧
          verify platform (transformMissingStatesListToMap missingList) data = .ok none) ∧
        ∀ answer : SyncReqMsg → CoreResponse,
          (∀ request, truthy? (updateDbError (answer request)) = false) →
          ∃ chunkOf : SyncReqMsg → Json, ∃ stored writes,
            (∀ request ∈ msgs.all,
              respond (coreAnswer db id) (.obj request.raw) = .ok (.send (chunkOf request))) ∧
            trySyncOneContractOneRequest platform (transformMissingStatesListToMap missingList)
              (.stream (msgs.all.map fun request => (chunkOf request, answer request)) none) =
                .called none stored ∧
            (stored.map (·.data)).mapM buildRequest = .ok writes ∧
            writes.flatMap CoreWrite.deltas =
              itemsOf contractData.address contract (contractData.deltas.map (·.index)) ∧
            writes.flatMap CoreWrite.bytecodes =
              if contractData.bytecodeHash.isSome then
                [(some (.str contractData.address), some (ofBytes contract.bytecode))]
              else [] := by
  obtain ⟨result, built, keys, each⟩ := buildMissingStatesResult_spec distinct missing
  refine ⟨result, built, keys, fun contractData member => ?_⟩
  obtain ⟨msgs, requests, listed⟩ := each contractData member
  obtain ⟨first, run⟩ := missing contractData member
  obtain ⟨contract, found, held⟩ := serves contractData member
  have recorded := lookup_transformMissingStatesListToMap distinct member
  have honest : ∀ request ∈ msgs.all,
      respond (coreAnswer db id) (.obj request.raw) =
          .ok (.send (.obj (responseTo id contract request))) ∧
        verify platform (transformMissingStatesListToMap missingList)
          (parsedResponseTo id contract request) = .ok none :=
    fun request inAll =>
      honest_response (answersFor_coreAnswer found id) recorded run held requests inAll
  refine ⟨msgs, contract, requests, listed, found, ?_, ?_⟩
  · intro request inAll
    obtain ⟨answered, verified⟩ := honest request inAll
    exact ⟨_, _, answered, responseMessageFromNetwork_responseTo request, verified⟩
  · intro answer acknowledged
    obtain ⟨deltas, bytecodes⟩ := requests.writes contract
    refine ⟨fun request => .obj (responseTo id contract request),
      msgs.all.map fun request => ⟨answer request, parsedResponseTo id contract request⟩,
      msgs.all.map (writeFor contract), fun request inAll => (honest request inAll).1, ?_, ?_,
      deltas, bytecodes⟩
    · refine collect_of_accepted (fun request inAll => ?_) none []
      rw [accepted, responseMessageFromNetwork_responseTo]
      exact if_pos ⟨(honest request inAll).2, acknowledged request⟩
    · rw [List.map_map]
      exact buildRequest_parsedResponseTo msgs.all

/-- A platform that knows the hashes of three byte strings. -/
def threeHashes : Platform :=
  Platform.ofTable
    [("", "c5d2460186f7233c927e7db2dcc703c0e500b653ca82273b7bfad8045d85a470"),
      ("01", "5fe7f977e71dba2ea1a68e21057beebb9be2ac30c6410aa38d4f3fbe41dcffd2"),
      ("02", "f2ee15ea639b73fa3db9b34a245bdfa015c260c598b211bf05a1ecc4b3e3b4f2"),
      ("03", "69c322e3248a5dfc29d73c5b0553b0185a35cd5bb6386747517ef7e53b15e287")]

/-- The hash of the string of one byte 1, 2 or 3. -/
def hashOf (byte : UInt8) : String :=
  (threeHashes.sha3 [byte]).getD ""

theorem sha3_threeHashes : threeHashes.sha3 [1] = some (hashOf 1) ∧
    threeHashes.sha3 [2] = some (hashOf 2) ∧ threeHashes.sha3 [3] = some (hashOf 3) := by
  decide +kernel

/-- A contract that is missing with its bytecode, and one that lags behind by more deltas
than one request asks for. -/
def twoMissing : List MissingState :=
  [⟨"aa", [⟨hashOf 2, 0⟩, ⟨hashOf 3, 1⟩], some (hashOf 1)⟩,
    ⟨"bb", (List.range' 4 12).map fun index => ⟨hashOf 3, index⟩, none⟩]

def twoStored : CoreDb :=
  [("aa", ⟨[1], [(0, [2]), (1, [3])]⟩),
    ("bb", ⟨[1], (List.range 16).map fun index => (index, [3])⟩)]

theorem receiveAll_honest_two_contracts :
    ∃ result, buildMissingStatesResult twoMissing = .ok result ∧
      (result.map (·.1)).Perm ["aa", "bb"] ∧
      ∀ contractData ∈ twoMissing, ∃ msgs contract,
        Requests contractData msgs ∧
        result.lookup contractData.address = some msgs.all ∧
        twoStored.lookup contractData.address = some contract ∧
        (∀ request ∈ msgs.all, ∃ chunk data,
          respond (coreAnswer twoStored "1") (.obj request.raw) = .ok (.send chunk) ∧
          responseMessageFromNetwork chunk = .ok (some data) ∧
          verify threeHashes (transformMissingStatesListToMap twoMissing) data = .ok none) ∧
        ∀ answer : SyncReqMsg → CoreResponse,
          (∀ request, truthy? (updateDbError (answer request)) = false) →
          ∃ chunkOf : SyncReqMsg → Json, ∃ stored writes,
            (∀ request ∈ msgs.all,
              respond (coreAnswer twoStored "1") (.obj request.raw) =
                .ok (.send (chunkOf request))) ∧
            trySyncOneContractOneRequest threeHashes (transformMissingStatesListToMap twoMissing)
              (.stream (msgs.all.map fun request => (chunkOf request, answer request)) none) =
                .called none stored ∧
            (stored.map (·.data)).mapM buildRequest = .ok writes ∧
            writes.flatMap CoreWrite.deltas =
              itemsOf contractData.address contract (contractData.deltas.map (·.index)) ∧
            writes.flatMap CoreWrite.bytecodes =
              if contractData.bytecodeHash.isSome then
                [(some (.str contractData.address), some (ofBytes contract.bytecode))]
              else [] := by
  obtain ⟨one, two, three⟩ := sha3_threeHashes
  have missing : ∀ contractData ∈ twoMissing, ∃ first, MissingRun contractData first := by
    refine List.forall_mem_cons.mpr ⟨⟨0, ?_⟩, List.forall_mem_singleton.mpr ⟨4, ?_⟩⟩
    · exact ⟨List.cons_ne_nil _ _, rfl, by decide⟩
    · exact ⟨List.cons_ne_nil _ _, rfl, by decide⟩
  have serves : ∀ contractData ∈ twoMissing, ∃ contract,
      twoStored.lookup contractData.address = some contract ∧
        Serves threeHashes contract contractData := by
    refine List.forall_mem_cons.mpr ⟨⟨_, rfl, ?_, ?_⟩,
      List.forall_mem_singleton.mpr ⟨_, rfl, ?_, nofun⟩⟩
    · exact List.forall_mem_cons.mpr
        ⟨⟨[2], rfl, two⟩, List.forall_mem_singleton.mpr ⟨[3], rfl, three⟩⟩
    · rintro _ ⟨rfl⟩
      exact one
    · intro delta member
      obtain ⟨index, inRange, rfl⟩ := List.mem_map.mp member
      have held : ∀ index ∈ List.range' 4 12, ((List.range 16).map fun index =>
          (index, ([3] : List UInt8))).lookup index = some [3] := by decide
      exact ⟨[3], held index inRange, three⟩
  exact receiveAll_honest (by decide) missing serves "1"

end Sync
