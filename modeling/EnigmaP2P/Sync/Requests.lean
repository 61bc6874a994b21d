import EnigmaP2P.Ethereum.StateSync
import EnigmaP2P.Sync.Verifier

/-!
# Requests for the missing state

`createP2PReqMsgsMap` splits the missing deltas of each contract into ranges of at most
`RANGE_LIMIT` deltas, and `transformMissingStatesListToMap` makes the map against which
the responses are verified. A contract without missing deltas makes the construction
throw, because its first delta is read to see whether the bytecode is missing.
-/

namespace Sync

open Js Common Ethereum

/-- `parseStateReqMsgs`: the loop over the buckets, from the delta at position `begin`. -/
def parseBuckets (contractData : MissingState) : Nat → Nat → Except Exn (List SyncStateReqMsg)
  | 0, _ => .ok []
  | buckets + 1, first => do
      let last := min (first + rangeLimit) contractData.deltas.length
      let slice := (contractData.deltas.drop first).take (last - first)
      match slice.head?, slice.getLast? with
      | some lowest, some highest => do
          let rest ← parseBuckets contractData buckets last
          pure ({ contractAddress := contractData.address
                  fromIndex := lowest.index
                  fromHash := lowest.deltaHash
                  toIndex := highest.index + 1
                  toHash := highest.deltaHash } :: rest)
      | _, _ => .error .typeError

/-- `parseStateReqMsgs`. -/
def parseStateReqMsgs (contractData : MissingState) : Except Exn (List SyncStateReqMsg) :=
  parseBuckets contractData
    ((contractData.deltas.length + rangeLimit - 1) / rangeLimit) 0

/-- `isBCodeRequest`. -/
def isBCodeRequest (contractData : MissingState) : Except Exn Bool :=
  match contractData.deltas.head? with
  | some delta => .ok (decide (delta.index = 0))
  | none => .error .typeError

/-- The messages of one contract. -/
structure ReqMsgs where
  deltasReq : List SyncReqMsg
  bcodeReq : Option SyncReqMsg
  deriving DecidableEq

/-- `buildP2ReqPMsgsOneContract`. -/
def buildP2ReqPMsgsOneContract (contractData : MissingState) : Except Exn ReqMsgs := do
  let reqMsgs ← parseStateReqMsgs contractData
  let withBytecode ← isBCodeRequest contractData
  pure
    { deltasReq := reqMsgs.map .state
      bcodeReq := if withBytecode then some (.bcode ⟨contractData.address⟩) else none }

/-- `createP2PReqMsgsMap`. -/
def createP2PReqMsgsMap (missingList : List MissingState) :
    Except Exn (List (String × ReqMsgs)) :=
  missingList.foldlM
    (fun output contractData => do
      let reqMsgs ← buildP2ReqPMsgsOneContract contractData
      pure (setField contractData.address reqMsgs output)) []

/-- `buildMissingStatesResult`: the bytecode request goes behind the ranges. -/
def buildMissingStatesResult (missingList : List MissingState) :
    Except Exn (List (String × List SyncReqMsg)) := do
  let result ← createP2PReqMsgsMap missingList
  pure ((entries result).foldl
    (fun missingStatesMsgsMap entry =>
      setField entry.1 (entry.2.deltasReq ++ entry.2.bcodeReq.toList) missingStatesMsgsMap) [])

/-- The entry of `transformMissingStatesListToMap` for one contract. -/
def remoteStateOf (contractData : MissingState) : RemoteState where
  deltas := contractData.deltas.foldl
    (fun deltasMap delta => setField (toString delta.index) delta.deltaHash deltasMap) []
  bytecodeHash := contractData.bytecodeHash

/-- `transformMissingStatesListToMap`. -/
def transformMissingStatesListToMap (missingStatesList : List MissingState) :
    RemoteMissingStates :=
  missingStatesList.foldl
    (fun missingStatesMap contractData =>
      setField contractData.address (remoteStateOf contractData) missingStatesMap) []

/-! ## Runs of missing deltas -/

/-- A contract that misses a non-empty run of deltas from `first` on, and its bytecode
exactly if the run starts at 0. -/
structure MissingRun (contractData : MissingState) (first : Nat) : Prop where
  nonempty : contractData.deltas ≠ []
  consecutive : contractData.deltas.map (·.index) =
    List.range' first contractData.deltas.length
  bytecode : contractData.bytecodeHash.isSome ↔ first = 0

/-- The indexes that a request asks for. -/
def SyncStateReqMsg.indexes (msg : SyncStateReqMsg) : List Nat :=
  List.range' msg.fromIndex (msg.toIndex - msg.fromIndex)

variable {contractData : MissingState} {first : Nat}

/-- A bucket starts and ends at the indexes of its position. -/
theorem MissingRun.bucket (missing : MissingRun contractData first) (low high : Nat)
    (nonempty : low < high) (bound : high ≤ contractData.deltas.length) :
    ∃ lowest highest,
      ((contractData.deltas.drop low).take (high - low)).head? = some lowest ∧
      ((contractData.deltas.drop low).take (high - low)).getLast? = some highest ∧
      lowest.index = first + low ∧ highest.index + 1 = first + high := by
  have index : ∀ i (h : i < contractData.deltas.length),
      (contractData.deltas[i]).index = first + i := by
    intro i h
    have at_i := congrArg (·[i]?) missing.consecutive
    simpa [h] using at_i
  refine ⟨contractData.deltas[low], contractData.deltas[high - 1], ?_, ?_, ?_, ?_⟩
  · rw [List.head?_take, if_neg (by omega), List.head?_drop, List.getElem?_eq_getElem]
  · have length : ((contractData.deltas.drop low).take (high - low)).length = high - low := by
      rw [List.length_take, List.length_drop]
      omega
    have position : low + (high - low - 1) = high - 1 := by omega
    rw [List.getLast?_eq_getElem?, length, List.getElem?_take, if_pos (by omega),
      List.getElem?_drop, position, List.getElem?_eq_getElem]
  · exact index low (by omega)
  · rw [index (high - 1) (by omega)]
    omega

/-- The buckets from a position on succeed, and cover the indexes from there on in ranges
that are not empty and not longer than the limit. -/
theorem parseBuckets_spec (missing : MissingRun contractData first) (buckets low : Nat)
    (start : low ≤ contractData.deltas.length)
    (enough : buckets = (contractData.deltas.length - low + rangeLimit - 1) / rangeLimit) :
    ∃ reqs, parseBuckets contractData buckets low = .ok reqs ∧
      (∀ req ∈ reqs, req.contractAddress = contractData.address ∧ first + low ≤ req.fromIndex ∧
        req.fromIndex < req.toIndex ∧ req.toIndex ≤ req.fromIndex + rangeLimit) ∧
      reqs.Pairwise (fun a b => a.toIndex ≤ b.fromIndex) ∧
      reqs.flatMap SyncStateReqMsg.indexes =
        List.range' (first + low) (contractData.deltas.length - low) := by
  induction buckets generalizing low with
  | zero =>
      have finished : contractData.deltas.length - low = 0 := by
        simp only [rangeLimit] at enough
        omega
      exact ⟨[], rfl, nofun, .nil, by rw [finished]; rfl⟩
  | succ buckets ih =>
      simp only [rangeLimit] at enough
      have more : low < contractData.deltas.length := by omega
      obtain ⟨lowest, highest, hlow, hhigh, hfrom, hto⟩ :=
        missing.bucket low (min (low + rangeLimit) contractData.deltas.length)
          (by simp only [rangeLimit]; omega) (Nat.min_le_right _ _)
      obtain ⟨rest, hrest, each, ascending, covered⟩ :=
        ih (min (low + rangeLimit) contractData.deltas.length) (Nat.min_le_right _ _)
          (by simp only [rangeLimit]; omega)
      refine ⟨⟨contractData.address, lowest.index, lowest.deltaHash, highest.index + 1,
        highest.deltaHash⟩ :: rest, ?_, ?_, ?_, ?_⟩
      · simp only [parseBuckets, hlow, hhigh, hrest]
        rfl
      · refine List.forall_mem_cons.mpr ⟨⟨rfl, ?_, ?_, ?_⟩, ?_⟩
        · simp only [hfrom, Nat.le_refl]
        · simp only [hfrom, hto, rangeLimit]
          omega
        · simp only [hfrom, hto, rangeLimit]
          omega
        · intro req member
          obtain ⟨address, above, nonempty, short⟩ := each req member
          exact ⟨address, by omega, nonempty, short⟩
      · refine List.pairwise_cons.mpr ⟨?_, ascending⟩
        intro req member
        rw [hto]
        exact (each req member).2.1
      · rw [List.flatMap_cons, covered, SyncStateReqMsg.indexes]
        simp only [hfrom, hto, rangeLimit]
        rw [show first + min (low + 10) contractData.deltas.length =
            first + low + (min (low + 10) contractData.deltas.length - low) by omega,
          Nat.add_sub_cancel_left, List.range'_append_1]
        congr 1
        omega

/-- What the requests of one contract have to be: its own address, ranges that are not
empty, within the limit and ascending without overlap, and together the missing indexes;
and the bytecode exactly if the deltas start at 0. -/
structure Requests (contractData : MissingState) (msgs : ReqMsgs) : Prop where
  ranges : ∃ reqs : List SyncStateReqMsg, msgs.deltasReq = reqs.map .state ∧
    (∀ req ∈ reqs, req.contractAddress = contractData.address ∧
      req.fromIndex < req.toIndex ∧ req.toIndex ≤ req.fromIndex + rangeLimit) ∧
    reqs.Pairwise (fun a b => a.toIndex ≤ b.fromIndex) ∧
    reqs.flatMap SyncStateReqMsg.indexes = contractData.deltas.map (·.index)
  bytecode : msgs.bcodeReq =
    if contractData.bytecodeHash.isSome then some (.bcode ⟨contractData.address⟩) else none

theorem buildP2ReqPMsgsOneContract_spec (missing : MissingRun contractData first) :
    ∃ msgs, buildP2ReqPMsgsOneContract contractData = .ok msgs ∧ Requests contractData msgs := by
  obtain ⟨reqs, parsed, each, ascending, covered⟩ :=
    parseBuckets_spec missing _ 0 (Nat.zero_le _) rfl
  have bytecode : isBCodeRequest contractData = .ok contractData.bytecodeHash.isSome := by
    obtain ⟨delta, rest, deltas⟩ := List.exists_cons_of_ne_nil missing.nonempty
    have start : delta.index = first := by
      have consecutive := missing.consecutive
      rw [deltas] at consecutive
      exact (List.cons.inj consecutive).1
    rw [isBCodeRequest, deltas]
    change Except.ok (decide (delta.index = 0)) = _
    rw [start]
    exact congrArg Except.ok (Bool.eq_iff_iff.mpr (by simp [missing.bytecode]))
  refine ⟨⟨reqs.map .state, if contractData.bytecodeHash.isSome then
    some (.bcode ⟨contractData.address⟩) else none⟩, ?_, ⟨⟨reqs, rfl, ?_, ascending, ?_⟩, rfl⟩⟩
  · rw [Nat.sub_zero] at parsed
    rw [buildP2ReqPMsgsOneContract, parseStateReqMsgs, parsed, bytecode]
    rfl
  · intro req member
    obtain ⟨address, -, nonempty, short⟩ := each req member
    exact ⟨address, nonempty, short⟩
  · rw [covered, missing.consecutive]
    rfl

/-- Distinct contracts that each build their messages build a map of all of them. -/
theorem createP2PReqMsgsMap_eq {missingList : List MissingState} {msgsOf : MissingState → ReqMsgs}
    (distinct : (missingList.map (·.address)).Nodup)
    (built : ∀ contractData ∈ missingList,
      buildP2ReqPMsgsOneContract contractData = .ok (msgsOf contractData)) :
    createP2PReqMsgsMap missingList =
      .ok (missingList.map fun contractData => (contractData.address, msgsOf contractData)) := by
  have loop : ∀ (contracts : List MissingState) (output : List (String × ReqMsgs)),
      (∀ contractData ∈ contracts,
        buildP2ReqPMsgsOneContract contractData = .ok (msgsOf contractData)) →
      contracts.foldlM (fun output contractData => do
          let reqMsgs ← buildP2ReqPMsgsOneContract contractData
          pure (setField contractData.address reqMsgs output)) output =
        (Except.ok (contracts.foldl (fun output contractData =>
          setField contractData.address (msgsOf contractData) output) output) :
          Except Exn (List (String × ReqMsgs))) := by
    intro contracts
    induction contracts with
    | nil => intro output _; rfl
    | cons contractData rest ih =>
        intro output built
        obtain ⟨now, later⟩ := List.forall_mem_cons.mp built
        rw [List.foldlM_cons, List.foldl_cons, now]
        exact ih _ later
  rw [createP2PReqMsgsMap, loop _ _ built, foldl_setField _ _ _ _ (by simpa using distinct)]
  rfl

/-- The messages for every contract of a missing list. -/
theorem buildMissingStatesResult_spec {missingList : List MissingState}
    (distinct : (missingList.map (·.address)).Nodup)
    (missing : ∀ contractData ∈ missingList, ∃ first, MissingRun contractData first) :
    ∃ result, buildMissingStatesResult missingList = .ok result ∧
      (result.map (·.1)).Perm (missingList.map (·.address)) ∧
      ∀ contractData ∈ missingList, ∃ msgs, Requests contractData msgs ∧
        result.lookup contractData.address =
          some (msgs.deltasReq ++ msgs.bcodeReq.toList) := by
  have built : ∀ contractData, ∃ msgs, contractData ∈ missingList →
      buildP2ReqPMsgsOneContract contractData = .ok msgs ∧ Requests contractData msgs := by
    intro contractData
    by_cases member : contractData ∈ missingList
    · obtain ⟨first, run⟩ := missing contractData member
      obtain ⟨msgs, spec⟩ := buildP2ReqPMsgsOneContract_spec run
      exact ⟨msgs, fun _ => spec⟩
    · exact ⟨⟨[], none⟩, fun h => absurd h member⟩
  choose msgsOf spec using built
  have created := createP2PReqMsgsMap_eq distinct fun contractData member =>
    (spec contractData member).1
  let output := missingList.map fun contractData => (contractData.address, msgsOf contractData)
  have keys : output.map (·.1) = missingList.map (·.address) := by
    simp only [output, List.map_map]
    rfl
  have reordered : ((entries output).map (·.1)).Nodup :=
    ((entries_perm output).map _).nodup_iff.mpr (keys ▸ distinct)
  refine ⟨(entries output).map fun entry => (entry.1, entry.2.deltasReq ++
    entry.2.bcodeReq.toList), ?_, ?_, ?_⟩
  · rw [buildMissingStatesResult, created]
    change Except.ok ((entries output).foldl _ []) = _
    rw [foldl_setField _ _ _ _ (by simpa using reordered), List.nil_append]
  · rw [List.map_map, ← keys]
    exact (entries_perm output).map _
  · intro contractData member
    refine ⟨msgsOf contractData, (spec contractData member).2, ?_⟩
    have listed : (contractData.address, msgsOf contractData) ∈ entries output :=
      (entries_perm output).mem_iff.mpr (List.mem_map_of_mem member)
    exact lookup_map_of_mem reordered
      (fun entry : String × ReqMsgs => entry.2.deltasReq ++ entry.2.bcodeReq.toList) listed

/-! ## The map for the verifier -/

theorem lookup_transformMissingStatesListToMap {missingList : List MissingState}
    (distinct : (missingList.map (·.address)).Nodup) (member : contractData ∈ missingList) :
    (transformMissingStatesListToMap missingList).lookup contractData.address =
      some (remoteStateOf contractData) := by
  rw [transformMissingStatesListToMap, foldl_setField _ _ _ _ (by simpa using distinct),
    List.nil_append]
  exact lookup_map_of_mem distinct remoteStateOf member

/-- The map records the hash of every missing delta under its index. -/
theorem MissingRun.lookup_remoteStateOf (missing : MissingRun contractData first)
    {delta : MissingDelta} (member : delta ∈ contractData.deltas) :
    (remoteStateOf contractData).deltas.lookup (toString delta.index) =
      some delta.deltaHash := by
  have distinct : (contractData.deltas.map fun delta => toString delta.index).Nodup := by
    have indexes : (contractData.deltas.map (·.index)).Nodup := by
      rw [missing.consecutive]
      exact List.nodup_range'
    have mapped := (List.nodup_map_iff Hex.toString_nat_injective).mpr indexes
    rw [List.map_map] at mapped
    exact mapped
  rw [remoteStateOf, foldl_setField _ _ _ _ (by simpa using distinct), List.nil_append]
  exact lookup_map_of_mem distinct (fun delta : MissingDelta => delta.deltaHash) member

end Sync
