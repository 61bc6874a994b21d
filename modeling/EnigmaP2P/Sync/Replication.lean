import EnigmaP2P.Replica.Refinement
import EnigmaP2P.Sync.ListCore

/-!
# A sync carries out its plan

The comparison of the tips with the chain is a plan over logs of hashes. The sync builds
requests from it, verifies what providers answer, hands it to the core, and has the core remove
what is in excess. With a faithful core, and providers that have the data of the chain in theirs,
the state of the core that results represents what the plan reaches: the next comparison finds
nothing to do.
-/

namespace Sync

open Js Common Ethereum Core Replica

/-! ## A sync -/

/-- The chunks with which a provider answers the requests; `none` if it answers one otherwise. -/
def chunksOf (core : String → Json → CoreResponse) (requests : List SyncReqMsg) :
    Option (List Json) :=
  requests.mapM fun request =>
    match respond core (.obj request.raw) with
    | .ok (.send chunk) => some chunk
    | _ => none

section

variable {σ : Type} (core : DbCore σ) (platform : Platform)

/-- `trySyncReceive` with one provider, and the writes, which the core acknowledges; `none` unless
it reports success. -/
def receiveContract (remoteMissingStates : RemoteMissingStates) (provider : σ) (id : String)
    (requests : List SyncReqMsg) (db : σ) : Option σ := do
  let chunks ← chunksOf (core.answer provider id) requests
  let finish := trySyncReceive platform remoteMissingStates
    (fun _ _ => .stream (chunks.map (·, okAnswer)) none) [()]
  match finish.callback with
  | some (none, true, _) => do
      let writes ← ((finish.stored.map (·.data)).mapM buildRequest).toOption
      pure (writes.foldl (fun db write => core.write write okAnswer db) db)
  | _ => none

/-- The stages of `ReceiveAllPipelineAction`, with the provider that is found for each
contract. -/
def sync {ε : Type} (providerOf : String → Option σ) (id : String) (api : ContractReader ε)
    (localTips : List LocalTip) (db : σ) : Option σ := do
  let comparison ← (compareLocalStateToRemote api localTips).toOption
  let missingStatesMsgsMap ← (buildMissingStatesResult comparison.missingList).toOption
  let received ← (entries missingStatesMsgsMap).foldlM (fun db entry =>
    (providerOf entry.1).bind fun provider => receiveContract core platform
      (transformMissingStatesListToMap comparison.missingList) provider id entry.2 db) db
  pure (comparison.excessList.foldl (fun db contract => core.remove (excessRemoval contract) db)
    received)

/-- The hashes of what the core has are those of the logs. -/
structure Represents (db : σ) (state : LocalState) : Prop where
  bytecode : ∀ address, (core.bytecodeAt db address).map platform.sha3 =
    (state address).map fun contract => some contract.bytecodeHash
  deltas : ∀ address index, (core.deltaAt db address index).map platform.sha3 =
    ((state address).bind (·.deltas[index]?)).map some

/-- The core has the data of a contract of the chain. -/
structure Provides (db : σ) (address : String) (params : ContractParams) : Prop where
  bytecode : (core.bytecodeAt db address).map platform.sha3 = some (some params.codeHash)
  deltas : ∀ index < params.deltaHashes.length,
    (core.deltaAt db address index).map platform.sha3 = (params.deltaHashes[index]?).map some

end

@[simp] theorem MissingState.edit_key (missing : MissingState) :
    missing.edit.key = missing.address := rfl

@[simp] theorem ExcessState.edit_key (excess : ExcessState) :
    excess.edit.key = excess.address := rfl

/-! ## Missing deltas -/

section

variable {old : List String} {deltas : List MissingDelta}

/-- Missing deltas behind a log are there under their indexes. -/
theorem getElem?_missing
    (indexes : deltas.map (·.index) = List.range' old.length deltas.length)
    {delta : MissingDelta} (member : delta ∈ deltas) :
    (old ++ deltas.map (·.deltaHash))[delta.index]? = some delta.deltaHash := by
  obtain ⟨i, bound, rfl⟩ := List.getElem_of_mem member
  have isIndex : (deltas[i]).index = old.length + i := by
    have at_i := congrArg (·[i]?) indexes
    simpa [bound] using at_i
  rw [isIndex, List.getElem?_append_right (Nat.le_add_right _ _), Nat.add_sub_cancel_left,
    List.getElem?_map, List.getElem?_eq_getElem bound]
  rfl

/-- Under another index there is what was there before. -/
theorem getElem?_not_missing
    (indexes : deltas.map (·.index) = List.range' old.length deltas.length) {index : Nat}
    (other : index ∉ deltas.map (·.index)) :
    (old ++ deltas.map (·.deltaHash))[index]? = old[index]? := by
  rw [indexes, List.mem_range'_1] at other
  rcases Nat.lt_or_ge index old.length with below | above
  · exact List.getElem?_append_left below
  · rw [List.getElem?_eq_none above, List.getElem?_eq_none]
    rw [List.length_append, List.length_map]
    omega

end

/-- An accepted plan for a missing contract: what was held, and what is held then. -/
theorem of_change_missing {missing : MissingState} {held target : Option Contract}
    (changed : missing.edit.change held = some target) :
    ∃ bytecodeHash old, target = some ⟨bytecodeHash, old ++ missing.deltas.map (·.deltaHash)⟩ ∧
      missing.deltas.map (·.index) = List.range' old.length missing.deltas.length ∧
      (held = none ∧ old = [] ∧ missing.bytecodeHash = some bytecodeHash ∨
        held = some ⟨bytecodeHash, old⟩ ∧ missing.bytecodeHash = none) := by
  have hashes : (missing.deltas.map fun delta => (delta.deltaHash, delta.index)).map (·.1) =
      missing.deltas.map (·.deltaHash) := by
    rw [List.map_map]
    rfl
  have indexes : (missing.deltas.map fun delta => (delta.deltaHash, delta.index)).map (·.2) =
      missing.deltas.map (·.index) := by
    rw [List.map_map]
    rfl
  simp only [MissingState.edit] at changed
  split at changed
  · rename_i bytecodeHash isNew
    obtain ⟨log, appended, rfl⟩ := Option.map_eq_some_iff.mp changed
    obtain ⟨rfl, inOrder⟩ := of_appendAt appended
    rw [indexes, List.length_map] at inOrder
    rw [hashes]
    exact ⟨bytecodeHash, [], rfl, inOrder, .inl ⟨rfl, rfl, isNew⟩⟩
  · rename_i contract isKnown
    obtain ⟨log, appended, rfl⟩ := Option.map_eq_some_iff.mp changed
    obtain ⟨rfl, inOrder⟩ := of_appendAt appended
    rw [indexes, List.length_map] at inOrder
    rw [hashes]
    exact ⟨contract.bytecodeHash, contract.deltas, rfl, inOrder, .inr ⟨rfl, isKnown⟩⟩
  · cases changed

section

variable {σ : Type} {core : DbCore σ} {platform : Platform}
  {remoteMissingStates : RemoteMissingStates} {provider db : σ} {contract : StoredContract}
  {id : String} {contractData : MissingState} {first : Nat} {msgs : ReqMsgs}
  {state target : LocalState}

/-- The jobs after one that succeeds are skipped. -/
theorem waterfall_of_called {job : Attempt} {stored : List Stored}
    (called : trySyncOneContractOneRequest platform remoteMissingStates job = .called none stored)
    (earlier : List Stored) (jobs : List Attempt) :
    waterfall platform remoteMissingStates earlier job jobs =
      ⟨some (none, true, stored.map Stored.syncStatus), earlier ++ stored⟩ := by
  cases jobs <;> simp only [waterfall, called]

/-- An honest provider is asked once, and the core writes what it answers. -/
theorem receiveContract_eq
    (answers : AnswersFor (core.answer provider id) id contractData.address contract)
    (recorded : remoteMissingStates.lookup contractData.address = some (remoteStateOf contractData))
    (missing : MissingRun contractData first) (serves : Serves platform contract contractData)
    (requests : Requests contractData msgs) :
    receiveContract core platform remoteMissingStates provider id msgs.all db =
      some (received core contract msgs db) := by
  have honest : ∀ request ∈ msgs.all,
      respond (core.answer provider id) (.obj request.raw) =
          .ok (.send (.obj (responseTo id contract request))) ∧
        verify platform remoteMissingStates (parsedResponseTo id contract request) = .ok none :=
    fun request member => honest_response answers recorded missing serves requests member
  have chunks : chunksOf (core.answer provider id) msgs.all =
      some (msgs.all.map fun request => .obj (responseTo id contract request)) := by
    rw [chunksOf]
    generalize msgs.all = asked at honest
    induction asked with
    | nil => rfl
    | cons request rest ih =>
        obtain ⟨⟨sent, -⟩, later⟩ := List.forall_mem_cons.mp honest
        rw [List.mapM_cons, ih later, List.map_cons, sent]
        rfl
  have received : trySyncOneContractOneRequest platform remoteMissingStates
      (.stream ((msgs.all.map fun request => Json.obj (responseTo id contract request)).map
        (·, okAnswer)) none) =
      .called none (msgs.all.map fun request =>
        ⟨okAnswer, parsedResponseTo id contract request⟩) := by
    rw [trySyncOneContractOneRequest, List.map_map]
    refine collect_of_accepted (fun request member => ?_) none []
    rw [accepted, Function.comp_apply, responseMessageFromNetwork_responseTo]
    exact if_pos ⟨(honest request member).2, rfl⟩
  have finished := @waterfall_of_called platform remoteMissingStates _ _ received []
  have writes := @buildRequest_parsedResponseTo contract id msgs.all
  have data : ((msgs.all.map fun request => Stored.mk okAnswer
      (parsedResponseTo id contract request)).map (·.data)) =
      msgs.all.map (parsedResponseTo id contract) := List.map_map
  rw [receiveContract, chunks]
  simp only [Option.bind_eq_bind, Option.bind_some, trySyncReceive, finished, List.nil_append,
    data, writes]
  rfl

/-- The data of the missing deltas have the hashes that are missing. -/
theorem sha3_dataAt (serves : Serves platform contract contractData) {delta : MissingDelta}
    (member : delta ∈ contractData.deltas) :
    platform.sha3 (contract.dataAt delta.index) = some delta.deltaHash := by
  obtain ⟨data, present, digest⟩ := serves.1 delta member
  rw [StoredContract.dataAt, present]
  exact digest

/-- What an honest provider has of a missing contract comes to the core as planned. -/
theorem Faithful.receiveContract_refines (faithful : Faithful core)
    (answers : AnswersFor (core.answer provider id) id contractData.address contract)
    (recorded : remoteMissingStates.lookup contractData.address = some (remoteStateOf contractData))
    (missing : MissingRun contractData first) (serves : Serves platform contract contractData)
    (requests : Requests contractData msgs) :
    Refines (Represents core platform)
      (receiveContract core platform remoteMissingStates provider id msgs.all)
      contractData.edit := by
  intro db state target represents applied
  obtain ⟨changed, kept⟩ := Edit.apply_eq_some applied
  rw [MissingState.edit_key] at changed kept
  obtain ⟨bytecodeHash, old, isTarget, indexes, before⟩ := of_change_missing changed
  have oldDeltas : ∀ index : Nat, ((state contractData.address).bind fun contract =>
      contract.deltas[index]?) = old[index]? := by
    intro index
    rcases before with ⟨isNone, rfl, -⟩ | ⟨isSome, -⟩
    · rw [isNone]
      rfl
    · rw [isSome]
      rfl
  refine ⟨received core contract msgs db,
    receiveContract_eq answers recorded missing serves requests, ?_, ?_⟩
  · intro other
    by_cases here : other = contractData.address
    · subst here
      rw [isTarget, Option.map_some]
      rcases before with ⟨-, -, isNew⟩ | ⟨isHeld, isOld⟩
      · rw [faithful.bytecodeAt_received_new requests (isNew ▸ rfl), Option.map_some,
          serves.2 bytecodeHash isNew]
      · have stored := represents.bytecode contractData.address
        rw [isHeld, Option.map_some] at stored
        have present : core.bytecodeAt db contractData.address ≠ none := by
          intro isNone
          rw [isNone] at stored
          cases stored
        rw [faithful.bytecodeAt_received_old requests (.inr ⟨isOld ▸ rfl, present⟩)]
        exact stored
    · rw [faithful.bytecodeAt_received_old requests (.inl here), kept other here]
      exact represents.bytecode other
  · intro other index
    rw [faithful.deltaAt_received requests]
    by_cases here : other = contractData.address
    · subst here
      rw [isTarget, Option.bind_some]
      by_cases isMissing : index ∈ contractData.deltas.map (·.index)
      · obtain ⟨delta, member, rfl⟩ := List.mem_map.mp isMissing
        rw [if_pos ⟨rfl, isMissing⟩, getElem?_missing indexes member, Option.map_some,
          Option.map_some, sha3_dataAt serves member]
      · rw [if_neg fun both => isMissing both.2, getElem?_not_missing indexes isMissing,
          ← oldDeltas index]
        exact represents.deltas _ index
    · rw [if_neg fun both => here both.1, kept other here]
      exact represents.deltas other index

/-! ## Excess -/

/-- A contract in excess is deleted, or has deltas behind a tip of the chain. -/
def Excessive (excess : ExcessState) : Prop :=
  excess.remoteTip = -1 ∨ 0 ≤ excess.remoteTip ∧ excess.remoteTip < excess.localTip

/-- An accepted plan for a contract in excess: it is deleted, or its log is cut. -/
theorem of_change_excess {excess : ExcessState} {held target : Option Contract}
    (changed : excess.edit.change held = some target) :
    excess.remoteTip = -1 ∧ target = none ∨
      ∃ log, held = some log ∧ log.deltas.length = excess.localTip + 1 ∧
        excess.remoteTip ≠ -1 ∧ target = some { log with
          deltas := log.deltas.take (excess.remoteTip + 1).toNat } := by
  simp only [ExcessState.edit] at changed
  split at changed
  · cases changed
  · rename_i log
    split at changed
    · cases changed
    · rename_i length
      split at changed
      · rename_i wholly
        cases changed
        exact .inl ⟨wholly, rfl⟩
      · rename_i partly
        cases changed
        exact .inr ⟨log, rfl, not_not.mp length, partly, rfl⟩

/-- A faithful core removes what is in excess. -/
theorem Faithful.remove_refines (faithful : Faithful core) {excess : ExcessState}
    (excessive : Excessive excess) :
    Refines (Represents core platform)
      (fun db => some (core.remove (excessRemoval excess) db)) excess.edit := by
  intro db state target represents applied
  obtain ⟨changed, kept⟩ := Edit.apply_eq_some applied
  rw [ExcessState.edit_key] at changed kept
  refine ⟨_, rfl, ?_⟩
  rcases of_change_excess changed with ⟨wholly, isGone⟩ | ⟨log, isHeld, length, partly, isTarget⟩
  · have message : excessRemoval excess = .removeContract (some excess.address) := if_pos wholly
    rw [message]
    have gone := faithful.contractRemoved db excess.address
    refine ⟨fun other => ?_, fun other index => ?_⟩
    · rw [(gone other).1]
      split
      · rename_i here
        rw [here, isGone]
        rfl
      · rename_i differs
        rw [kept other differs]
        exact represents.bytecode other
    · rw [(gone other).2]
      split
      · rename_i here
        rw [here, isGone]
        rfl
      · rename_i differs
        rw [kept other differs]
        exact represents.deltas other index
  · obtain ⟨listed, ahead⟩ := excessive.resolve_left partly
    have message : excessRemoval excess = .removeDeltas (some excess.address)
        (some (.num (excess.remoteTip + 1 : Int))) (some (.num (excess.localTip : Nat))) :=
      if_neg partly
    have inRange : ∀ index : Nat, (((excess.remoteTip + 1 : Int) : Rat) ≤ index ∧
        (index : Rat) ≤ (excess.localTip : Nat)) ↔
        excess.remoteTip + 1 ≤ (index : Int) ∧ index ≤ excess.localTip := by
      intro index
      refine and_congr ?_ Nat.cast_le
      rw [← Int.cast_natCast index, Int.cast_le]
    have cut := faithful.deltasRemoved db excess.address (excess.remoteTip + 1 : Int)
      (excess.localTip : Nat)
    rw [message]
    refine ⟨fun other => ?_, fun other index => ?_⟩
    · rw [(cut other).1, represents.bytecode other]
      by_cases here : other = excess.address
      · rw [here, isHeld, isTarget]
        rfl
      · rw [kept other here]
    · rw [(cut other).2]
      by_cases here : other = excess.address
      · subst here
        rw [isTarget, Option.bind_some]
        have stored := represents.deltas excess.address index
        rw [isHeld, Option.bind_some] at stored
        split
        · rename_i removed
          have outside := ((inRange index).mp removed.2).1
          rw [List.getElem?_take, if_neg (by omega)]
          rfl
        · rename_i uncut
          rw [stored, List.getElem?_take]
          split
          · rfl
          · rename_i beyond
            have outside : ¬ (excess.remoteTip + 1 ≤ (index : Int) ∧ index ≤ excess.localTip) :=
              fun both => uncut ⟨rfl, (inRange index).mpr both⟩
            rw [List.getElem?_eq_none (by omega)]
      · rw [if_neg fun both => here both.1, kept other here]
        exact represents.deltas other index

end

/-! ## The plan of a comparison -/

section

variable {ε : Type} {api : ContractReader ε} {remote : List (String × ContractParams)}
  {localTips : List LocalTip} {state : LocalState}

/-- What a comparison lists as missing is a run up to the end of the log of the chain. -/
theorem missingRun_of_missingOf {tip : Option Nat} {contract : String × ContractParams}
    {missing : MissingState} (listed : missing ∈ missingOf tip contract) :
    MissingRun missing (tip.elim 0 (· + 1)) := by
  obtain ⟨longer, rfl⟩ := mem_missingOf.mp listed
  have indexed := indexed_missingDeltasFrom (tip.elim 0 (· + 1)) contract.2.deltaHashes
  have indexes := congrArg (List.map (·.2)) indexed
  rw [List.map_map, List.zipIdx_map_snd] at indexes
  refine ⟨missingDeltasFrom_ne_nil.mpr longer, ?_, ?_⟩
  · refine indexes.trans ?_
    have length := congrArg List.length indexed
    rw [List.length_map, List.length_zipIdx] at length
    rw [length]
  · cases tip with
    | none => exact iff_of_true rfl rfl
    | some key => exact iff_of_false Bool.false_ne_true (Nat.succ_ne_zero key)

/-- The hash under the index of a missing delta. -/
theorem getElem?_of_missingDeltasFrom {first : Nat} {deltaHashes : List String}
    {delta : MissingDelta} (member : delta ∈ missingDeltasFrom first deltaHashes) :
    deltaHashes[delta.index]? = some delta.deltaHash := by
  obtain ⟨⟨hash, index⟩, listed, rfl⟩ := List.mem_map.mp member
  exact List.mem_zipIdx_iff_getElem?.mp (List.mem_of_mem_drop listed)

/-- A core with the data of a contract serves whoever misses it. -/
theorem Faithful.serves_of_provides {σ : Type} {core : DbCore σ} (faithful : Faithful core)
    {platform : Platform} {provider : σ} {tip : Option Nat} {contract : String × ContractParams}
    (provides : Provides core platform provider contract.1 contract.2) {missing : MissingState}
    (listed : missing ∈ missingOf tip contract) (id : String) :
    ∃ stored, AnswersFor (core.answer provider id) id missing.address stored ∧
      Serves platform stored missing := by
  obtain ⟨-, rfl⟩ := mem_missingOf.mp listed
  obtain ⟨bytecode, isBytecode, digest⟩ := Option.map_eq_some_iff.mp provides.bytecode
  -- the deltas of the chain, with their data
  have exists_ : ∀ index : Nat, ∃ data, index < contract.2.deltaHashes.length →
      core.deltaAt provider contract.1 index = some data ∧
      some (platform.sha3 data) = (contract.2.deltaHashes[index]?).map some := by
    intro index
    by_cases below : index < contract.2.deltaHashes.length
    · have held := provides.deltas index below
      rw [List.getElem?_eq_getElem below] at held ⊢
      obtain ⟨data, isData, hashed⟩ := Option.map_eq_some_iff.mp held
      exact ⟨data, fun _ => ⟨isData, congrArg some hashed⟩⟩
    · exact ⟨[], fun isBelow => absurd isBelow below⟩
  choose dataAt spec using exists_
  let stored : StoredContract := ⟨bytecode,
    (List.range contract.2.deltaHashes.length).map fun index => (index, dataAt index)⟩
  refine ⟨stored, faithful.answers id isBytecode fun index data isHeld => ?_,
    fun delta member => ?_, fun bytecodeHash isMissing => ?_⟩
  · obtain ⟨before, after, split, -⟩ := List.lookup_eq_some_iff.mp isHeld
    have inDeltas : (index, data) ∈ stored.deltas := split ▸ List.mem_append_cons_self
    obtain ⟨key, inRange, same⟩ := List.mem_map.mp inDeltas
    cases same
    exact (spec index (List.mem_range.mp inRange)).1
  · have isHash := getElem?_of_missingDeltasFrom member
    have below := (List.getElem?_eq_some_iff.mp isHash).1
    have hashed := (spec delta.index below).2
    rw [isHash] at hashed
    exact ⟨dataAt delta.index, List.lookup_graph dataAt (List.mem_range.mpr below),
      Option.some.inj hashed⟩
  · have isHash : some contract.2.codeHash = some bytecodeHash := by
      cases tip with
      | none => exact isMissing
      | some key => cases isMissing
    rw [← isHash]
    exact digest

theorem excessive_of_mem (chain : OnChain api remote) {excess : ExcessState}
    (listed : excess ∈ (expected remote localTips).excessList) : Excessive excess := by
  rcases List.mem_append.mp listed with shared | leftover
  · obtain ⟨contract, inRemote, member⟩ := List.mem_flatMap.mp shared
    obtain ⟨key, -, shorter, rfl⟩ := mem_excessOf.mp member
    have deployed := List.length_pos_iff.mpr (chain.deployed contract inRemote)
    exact .inr ⟨by simp only; omega, by simp only; omega⟩
  · obtain ⟨tip, -, rfl⟩ := List.mem_map.mp leftover
    exact .inl rfl

/-- The requests are those of the missing list, in some order. -/
theorem exists_plan {missingList : List MissingState}
    {missingStatesMsgsMap : List (String × List SyncReqMsg)}
    (distinct : (missingList.map (·.address)).Nodup)
    (keys : (missingStatesMsgsMap.map (·.1)).Perm (missingList.map (·.address)))
    (listed : ∀ contractData ∈ missingList, ∃ msgs, Requests contractData msgs ∧
      missingStatesMsgsMap.lookup contractData.address =
        some (msgs.deltasReq ++ msgs.bcodeReq.toList)) :
    ∃ plan : String × List SyncReqMsg → MissingState,
      (missingStatesMsgsMap.map plan).Perm missingList ∧
      ∀ entry ∈ missingStatesMsgsMap, plan entry ∈ missingList ∧ (plan entry).address = entry.1 ∧
        ∃ msgs : ReqMsgs, Requests (plan entry) msgs ∧ entry.2 = msgs.all := by
  have keysDistinct := keys.nodup_iff.mpr distinct
  have exists_ : ∀ entry : String × List SyncReqMsg, ∃ contractData : MissingState,
      entry ∈ missingStatesMsgsMap → contractData ∈ missingList ∧ contractData.address = entry.1 ∧
        ∃ msgs : ReqMsgs, Requests contractData msgs ∧ entry.2 = msgs.all := by
    intro entry
    by_cases member : entry ∈ missingStatesMsgsMap
    · obtain ⟨contractData, isMissing, same⟩ := List.mem_map.mp
        (keys.mem_iff.mp (List.mem_map_of_mem (f := (·.1)) member))
      obtain ⟨msgs, requests, found⟩ := listed contractData isMissing
      have there : missingStatesMsgsMap.lookup contractData.address = some entry.2 :=
        same ▸ lookup_eq_some_of_mem keysDistinct member
      exact ⟨contractData, fun _ => ⟨isMissing, same, msgs, requests,
        Option.some.inj (there.symm.trans found)⟩⟩
    · exact ⟨⟨"", [], none⟩, fun there => absurd there member⟩
  choose plan spec using exists_
  have addresses : (missingStatesMsgsMap.map plan).map (·.address) =
      missingStatesMsgsMap.map (·.1) := by
    rw [List.map_map]
    exact List.map_congr_left fun entry member => (spec entry member).2.1
  refine ⟨plan, ?_, spec⟩
  refine (List.perm_ext_iff_of_nodup ?_ (List.Nodup.of_map _ distinct)).mpr fun contractData => ?_
  · exact List.Nodup.of_map (·.address) (addresses ▸ keysDistinct)
  · constructor
    · intro member
      obtain ⟨entry, isEntry, rfl⟩ := List.mem_map.mp member
      exact (spec entry isEntry).1
    · intro isMissing
      obtain ⟨entry, isEntry, same⟩ := List.mem_map.mp
        (keys.mem_iff.mpr (List.mem_map_of_mem (f := (·.address)) isMissing))
      obtain ⟨planned, isAddress, -⟩ := spec entry isEntry
      have isPlan : plan entry = contractData :=
        List.inj_on_of_nodup_map distinct planned isMissing (isAddress.trans same)
      exact isPlan ▸ List.mem_map_of_mem isEntry

variable {σ : Type} {core : DbCore σ} {platform : Platform} {db : σ}
  {providerOf : String → Option σ}

/-- With providers of all contracts of the chain a sync reaches what its plan reaches. -/
theorem Faithful.sync_represents (faithful : Faithful core) (chain : OnChain api remote)
    (described : LocalTipsOf state localTips) (represents : Represents core platform db state)
    (provides : ∀ contract ∈ remote, ∃ provider, providerOf contract.1 = some provider ∧
      Provides core platform provider contract.1 contract.2) (id : String) :
    ∃ after, sync core platform providerOf id api localTips db = some after ∧
      Represents core platform after (reconciled remote state) := by
  have nodup := nodup_addresses chain.distinct described
  have distinct := (List.nodup_append'.mp nodup).1
  have runs : ∀ missing ∈ (expected remote localTips).missingList, ∃ first,
      MissingRun missing first := by
    intro missing member
    obtain ⟨contract, -, listed⟩ := List.mem_flatMap.mp member
    exact ⟨_, missingRun_of_missingOf listed⟩
  obtain ⟨msgsMap, built, keys, listed⟩ := buildMissingStatesResult_spec distinct runs
  obtain ⟨plan, perm, spec⟩ := exists_plan distinct keys listed
  -- the plan is carried out in the order of the requests
  have planned : applyAll ((entries msgsMap).map (fun entry => (plan entry).edit) ++
      (expected remote localTips).excessList.map ExcessState.edit) state =
      some (reconciled remote state) := by
    refine applyAll_of_perm ?_ ?_ (apply_expected chain described)
    · have edits := perm.map MissingState.edit
      rw [List.map_map] at edits
      exact (((entries_perm msgsMap).map _).trans edits).append_right _
    · rw [Comparison.edits, List.map_append, List.map_map, List.map_map]
      exact nodup
  rw [applyAll_append] at planned
  obtain ⟨middle, receives, reverts⟩ := Option.bind_eq_some_iff.mp planned
  have receivesAll : ∃ received, (entries msgsMap).foldlM (fun db entry =>
      (providerOf entry.1).bind fun provider => receiveContract core platform
        (transformMissingStatesListToMap (expected remote localTips).missingList) provider id
        entry.2 db) db = some received ∧ Represents core platform received middle := by
    refine foldlM_refines (fun entry member => ?_) represents receives
    obtain ⟨isMissing, isAddress, msgs, requests, isAll⟩ :=
      spec entry ((entries_perm msgsMap).mem_iff.mp member)
    obtain ⟨contract, inRemote, isListed⟩ := List.mem_flatMap.mp isMissing
    have same : (plan entry).address = contract.1 := by
      obtain ⟨-, isPlan⟩ := mem_missingOf.mp isListed
      rw [isPlan]
    obtain ⟨provider, isProvider, has⟩ := provides contract inRemote
    obtain ⟨stored, answers, serves⟩ := faithful.serves_of_provides has isListed id
    rw [isAll, ← isAddress, same, isProvider]
    exact faithful.receiveContract_refines answers
      (lookup_transformMissingStatesListToMap distinct isMissing)
      (missingRun_of_missingOf isListed) serves requests
  obtain ⟨received, isReceived, represented⟩ := receivesAll
  have revertsAll : ∃ after, (expected remote localTips).excessList.foldlM
      (fun db contract => some (core.remove (excessRemoval contract) db)) received =
        some after ∧ Represents core platform after (reconciled remote state) :=
    foldlM_refines (fun excess member => faithful.remove_refines (excessive_of_mem chain member))
      represented reverts
  obtain ⟨after, isAfter, represented⟩ := revertsAll
  refine ⟨after, ?_, represented⟩
  have isAfter := List.foldlM_pure.symm.trans isAfter
  rw [sync, compareLocalStateToRemote_eq chain]
  simp only [Except.toOption, Option.bind_eq_bind, Option.bind_some, built, isReceived]
  exact isAfter

/-! ## The next comparison -/

/-- The contracts of the state have hexadecimal addresses and deltas. -/
def Listable (state : LocalState) : Prop :=
  ∀ address log, state address = some log → IsHexAddress address ∧ log.deltas ≠ []

/-- A core has the deltas below the lengths of the logs. -/
theorem Represents.deltaAt_iff (represents : Represents core platform db state) {address : String}
    {index : Nat} : core.deltaAt db address index ≠ none ↔
      ∃ log, state address = some log ∧ index < log.deltas.length := by
  rw [Option.ne_none_iff_isSome, ← @Option.isSome_map _ _ platform.sha3,
    represents.deltas address index, Option.isSome_map]
  cases state address with
  | none => simp
  | some log => simp

/-- The tips of the core describe the state that it represents. -/
theorem Represents.tips (represents : Represents core platform db state)
    (faithful : Faithful core) (listable : Listable state) : LocalTipsOf state (core.tips db) := by
  refine ⟨fun tip member => ?_, faithful.distinctTips db, fun tip member => ?_,
    fun address present => ?_⟩
  · obtain ⟨log, held, -⟩ := represents.deltaAt_iff.mp (faithful.tips tip member)
    exact (listable _ log held).1
  · obtain ⟨log, held, below⟩ := represents.deltaAt_iff.mp (faithful.tips tip member)
    have last : log.deltas.length - 1 ≤ tip.key :=
      faithful.lastTips tip member _ (represents.deltaAt_iff.mpr ⟨log, held, by omega⟩)
    exact ⟨log, held, by omega⟩
  · obtain ⟨log, held⟩ := Option.ne_none_iff_exists'.mp present
    have positive := List.length_pos_iff.mpr (listable address log held).2
    exact faithful.allTips (represents.deltaAt_iff.mpr ⟨log, held, positive⟩)

/-- After the plan every contract of the chain has as many deltas as there, and there are no
others. -/
theorem length_reconciled (address : String) :
    (reconciled remote state address).map (·.deltas.length) =
      (remote.lookup address).map (·.deltaHashes.length) := by
  rw [reconciled]
  cases remote.lookup address with
  | none => rfl
  | some params =>
      cases state address with
      | none => rfl
      | some log =>
          simp only [Option.map_some, List.length_append, List.length_take, List.length_drop]
          congr 1
          omega

theorem listable_reconciled (chain : OnChain api remote) : Listable (reconciled remote state) := by
  intro address log held
  have length := @length_reconciled remote state address
  rw [held] at length
  obtain ⟨params, known, same⟩ := Option.map_eq_some_iff.mp length.symm
  have inRemote := mem_of_lookup_eq_some known
  have same : params.deltaHashes.length = log.deltas.length := same
  refine ⟨chain.addresses _ inRemote, fun isEmpty => ?_⟩
  rw [isEmpty] at same
  exact chain.deployed _ inRemote (List.length_eq_zero_iff.mp same)

/-- Nothing is missing and nothing in excess where the lengths are those of the chain. -/
theorem expected_of_reconciled (chain : OnChain api remote)
    (described : LocalTipsOf (reconciled remote state) localTips) :
    expected remote localTips = ⟨[], []⟩ := by
  have tipOf : ∀ contract ∈ remote, (tipsMapOf localTips).lookup contract.1 =
      some (contract.2.deltaHashes.length - 1) := by
    intro contract inRemote
    have tip := lookup_tipsMapOf described contract.1
    rw [length_reconciled, lookup_eq_some_of_mem chain.distinct inRemote] at tip
    obtain ⟨key, found, same⟩ := Option.map_eq_some_iff.mp tip.symm
    have same : key + 1 = contract.2.deltaHashes.length := same
    rw [found, ← same]
    rfl
  have nothing : ∀ contract ∈ remote,
      missingOf ((tipsMapOf localTips).lookup contract.1) contract = [] ∧
        excessOf ((tipsMapOf localTips).lookup contract.1) contract = [] := by
    intro contract inRemote
    have positive := List.length_pos_iff.mpr (chain.deployed contract inRemote)
    rw [tipOf contract inRemote]
    refine ⟨List.eq_nil_iff_forall_not_mem.mpr fun missing member => ?_,
      List.eq_nil_iff_forall_not_mem.mpr fun excess member => ?_⟩
    · have longer := (mem_missingOf.mp member).1
      simp only [Option.elim_some] at longer
      omega
    · obtain ⟨key, isKey, shorter, -⟩ := mem_excessOf.mp member
      cases isKey
      omega
  have noOther : (tipsMapOf localTips).filter (fun tip => tip.1 ∉ remote.map (·.1)) = [] := by
    refine List.filter_eq_nil_iff.mpr fun tip member unknown => ?_
    have tipsNodup : ((tipsMapOf localTips).map (·.1)).Nodup := by
      rw [tipsMapOf_eq described, List.map_map]
      exact described.distinct
    have found := lookup_tipsMapOf described tip.1
    rw [length_reconciled, lookup_eq_some_of_mem tipsNodup member,
      lookup_eq_none_of_not_mem (of_decide_eq_true unknown)] at found
    cases found
  rw [expected, noOther,
    List.flatMap_eq_nil_iff.mpr fun contract member => (nothing contract member).1,
    List.flatMap_eq_nil_iff.mpr fun contract member => (nothing contract member).2,
    (entries_perm []).eq_nil]
  rfl

/-- A sync from providers of all contracts of the chain reaches what its plan reaches, and with
the tips of the core then, there is nothing left to receive or to revert. -/
theorem sync_converges (faithful : Faithful core) (chain : OnChain api remote)
    (listable : Listable state) (represents : Represents core platform db state)
    (provides : ∀ contract ∈ remote, ∃ provider, providerOf contract.1 = some provider ∧
      Provides core platform provider contract.1 contract.2) (id : String) :
    ∃ after, sync core platform providerOf id api (core.tips db) db = some after ∧
      Represents core platform after (reconciled remote state) ∧
      compareLocalStateToRemote api (core.tips after) = .ok ⟨[], []⟩ := by
  obtain ⟨after, synced, represented⟩ := faithful.sync_represents chain
    (represents.tips faithful listable) represents provides id
  refine ⟨after, synced, represented, ?_⟩
  rw [compareLocalStateToRemote_eq chain,
    expected_of_reconciled chain (represented.tips faithful (listable_reconciled chain))]

end

/-! ## A sync of three contracts -/

/-- The chain has two contracts. -/
def twoContracts : List (String × ContractParams) :=
  [("aa", ⟨hashOf 1, [hashOf 2, hashOf 3]⟩), ("bb", ⟨hashOf 3, [hashOf 2]⟩)]

/-- A database with the data of both. -/
def bothContracts : CoreDb :=
  [("aa", ⟨[1], [(0, [2]), (1, [3])]⟩), ("bb", ⟨[3], [(0, [2])]⟩)]

theorem onChain_twoContracts : OnChain (readerOf twoContracts) twoContracts := by
  refine ⟨rfl, ?_, ?_, by decide, ?_⟩
  · exact List.forall_mem_cons.mpr ⟨rfl, List.forall_mem_singleton.mpr rfl⟩
  · exact List.forall_mem_cons.mpr ⟨⟨[0xaa], rfl⟩, List.forall_mem_singleton.mpr ⟨[0xbb], rfl⟩⟩
  · exact List.forall_mem_cons.mpr ⟨List.cons_ne_nil _ _,
      List.forall_mem_singleton.mpr (List.cons_ne_nil _ _)⟩

theorem provides_bothContracts : ∀ contract ∈ twoContracts,
    Provides listCore threeHashes bothContracts contract.1 contract.2 := by
  obtain ⟨one, two, three⟩ := sha3_threeHashes
  refine List.forall_mem_cons.mpr ⟨⟨congrArg some one, fun index below => ?_⟩,
    List.forall_mem_singleton.mpr ⟨congrArg some three, fun index below => ?_⟩⟩
  · match index, below with
    | 0, _ => exact congrArg some two
    | 1, _ => exact congrArg some three
  · match index, below with
    | 0, _ => exact congrArg some two

/-- A node that has a delta of one contract, and a contract that is not on the chain. -/
def behind : CoreDb :=
  [("aa", ⟨[1], [(0, [2])]⟩), ("cc", ⟨[2], [(0, [1])]⟩)]

def behindState : LocalState := fun address =>
  [("aa", ⟨hashOf 1, [hashOf 2]⟩), ("cc", ⟨hashOf 2, [hashOf 1]⟩)].lookup address

theorem represents_behind : Represents listCore threeHashes behind behindState := by
  obtain ⟨one, two, three⟩ := sha3_threeHashes
  constructor
  · intro address
    change Option.map _ (behind.bytecodeAt address) = _
    rw [CoreDb.bytecodeAt, behind, behindState, List.lookup_cons, List.lookup_cons,
      List.lookup_cons, List.lookup_cons]
    cases address == "aa" with
    | true => exact congrArg some one
    | false =>
        cases address == "cc" with
        | true => exact congrArg some two
        | false => rfl
  · intro address index
    change Option.map _ (behind.deltaAt address index) = _
    rw [CoreDb.deltaAt, behind, behindState, List.lookup_cons, List.lookup_cons, List.lookup_cons,
      List.lookup_cons]
    cases address == "aa" with
    | true =>
        cases index with
        | zero => exact congrArg some two
        | succ index => rfl
    | false =>
        cases address == "cc" with
        | true =>
            cases index with
            | zero => exact congrArg some one
            | succ index => rfl
        | false => rfl

theorem sync_converges_two :
    ∃ after, sync listCore threeHashes (fun _ => some bothContracts) "1" (readerOf twoContracts)
        (listCore.tips behind) behind = some after ∧
      Represents listCore threeHashes after (reconciled twoContracts behindState) ∧
      compareLocalStateToRemote (readerOf twoContracts) (listCore.tips after) = .ok ⟨[], []⟩ := by
  refine sync_converges faithful_listCore onChain_twoContracts ?_ represents_behind
    (fun contract inRemote => ⟨_, rfl, provides_bothContracts contract inRemote⟩) "1"
  intro address log held
  rcases List.mem_cons.mp (mem_of_lookup_eq_some held) with same | member
  · cases same
    exact ⟨⟨[0xaa], rfl⟩, List.cons_ne_nil _ _⟩
  · cases List.mem_singleton.mp member
    exact ⟨⟨[0xcc], rfl⟩, List.cons_ne_nil _ _⟩

end Sync
