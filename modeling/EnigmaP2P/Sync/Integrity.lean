import EnigmaP2P.Sync.Network

/-!
# What strangers cannot do

Peers send whatever they want, in whatever order, and break off when they want; the core may
refuse writes, and do a part of what it refuses; and a sync may get stuck, or end with an error,
and then reverts nothing. Over all runs no core gets a delta or a bytecode whose hash is not the
one that the chain records for its address and index, and none loses a delta that it has.
-/

namespace Sync

open Js Common Ethereum Core Transition

/-! ## A sync with any peers -/

/-- The providers that are found for a contract, if the search succeeds, and what each of them
and the core do in each attempt. -/
structure Peers where
  searched : Bool
  providersList : String → List Nat
  attempt : String → Nat → Option Nat → Attempt

section

variable (platform : Platform) (remoteMissingStates : RemoteMissingStates)

/-- The messages of a stream that come to the core. With an error of the core the stream is
stuck. -/
def sentToCore : List (Json × CoreResponse) → List Stored
  | [] => []
  | (chunk, answer) :: rest =>
      match verificationStream platform remoteMissingStates (.next chunk) with
      | .ok (.next data) =>
          ⟨answer, data⟩ :: if truthy? (updateDbError answer) then [] else sentToCore rest
      | _ => []

def Attempt.sentToCore : Attempt → List Stored
  | .refused _ => []
  | .stream items _ => Sync.sentToCore platform remoteMissingStates items

/-- The messages that come to the core in the jobs of a `waterfall`. -/
def sentInJobs : Attempt → List Attempt → List Stored
  | job, [] => job.sentToCore platform remoteMissingStates
  | job, next :: jobs =>
      match trySyncOneContractOneRequest platform remoteMissingStates job with
      | .called (some _) _ =>
          job.sentToCore platform remoteMissingStates ++ sentInJobs next jobs
      | _ => job.sentToCore platform remoteMissingStates

/-- The messages that come to the core in `trySyncReceive`. -/
def sentInReceive {P : Type} (attempt : Nat → Option P → Attempt) (providersList : List P) :
    List Stored :=
  sentInJobs platform remoteMissingStates (attempt 0 providersList.head?)
    (((jobProviders providersList).tail.zipIdx 1).map fun job => attempt job.2 job.1)

variable {σ : Type} (core : DbCore σ)

/-- What the core makes of a message, and of its answer to it. -/
def writeStored (db : σ) (stored : Stored) : σ :=
  match buildRequest stored.data with
  | .ok write => core.write write stored.status db
  | .error _ => db

/-- `TryReceiveAllAction`: the first error ends the jobs. A job that is never called back
holds up the whole sync. -/
def tryReceiveAllFrom (peers : Peers) : List String → σ → σ × Bool
  | [], db => (db, true)
  | address :: rest, db =>
      let sent := sentInReceive platform remoteMissingStates (peers.attempt address)
        (peers.providersList address)
      let written := sent.foldl (writeStored core) db
      match (trySyncReceive platform remoteMissingStates (peers.attempt address)
        (peers.providersList address)).callback with
      | some (none, _, _) => tryReceiveAllFrom peers rest written
      | _ => (written, false)

/-- The stages of a sync. There are reverts only after everything was received. -/
def syncFrom {ε : Type} (peers : Peers) (api : ContractReader ε) (localTips : List LocalTip)
    (db : σ) : σ :=
  match compareLocalStateToRemote api localTips with
  | .error _ => db
  | .ok comparison =>
      match buildMissingStatesResult comparison.missingList with
      | .error _ => db
      | .ok missingStatesMsgsMap =>
          if peers.searched then
            let received := tryReceiveAllFrom platform
              (transformMissingStatesListToMap comparison.missingList) core peers
              ((entries missingStatesMsgsMap).map (·.1)) db
            if received.2 then
              comparison.excessList.foldl (fun db contract =>
                core.remove (excessRemoval contract) db) received.1
            else received.1
          else db

/-- Providers that answer the requests for a contract from their cores. -/
def honestPeers (providerOf : String → Option σ) (id : String)
    (missingStatesMsgsMap : List (String × List SyncReqMsg)) : Peers where
  searched := true
  providersList _ := [0]
  attempt address _ _ :=
    let chunks := (missingStatesMsgsMap.lookup address).bind fun requests =>
      (providerOf address).bind fun provider => chunksOf (core.answer provider id) requests
    .stream ((chunks.getD []).map (·, okAnswer)) none

end

section

variable {platform : Platform} {remoteMissingStates : RemoteMissingStates}

/-- What leaves the verification stage verifies. -/
theorem verify_of_verificationStream {chunk : Json} {data : SyncResMsg}
    (passed : verificationStream platform remoteMissingStates (.next chunk) = .ok (.next data)) :
    verify platform remoteMissingStates data = .ok none := by
  rw [verificationStream] at passed
  obtain ⟨parsed, -, passed⟩ := bind_eq_ok.mp passed
  cases parsed with
  | none => cases passed
  | some received =>
      obtain ⟨result, isResult, passed⟩ := bind_eq_ok.mp passed
      cases result with
      | none =>
          cases passed
          exact isResult
      | some err => cases passed

/-- What comes to the core is verified. -/
theorem verify_of_mem_sentToCore {items : List (Json × CoreResponse)} {stored : Stored}
    (member : stored ∈ sentToCore platform remoteMissingStates items) :
    verify platform remoteMissingStates stored.data = .ok none := by
  induction items with
  | nil => cases member
  | cons item rest ih =>
      obtain ⟨chunk, answer⟩ := item
      rw [sentToCore] at member
      split at member
      · rename_i data passed
        rcases List.mem_cons.mp member with rfl | later
        · exact verify_of_verificationStream passed
        · split at later
          · cases later
          · exact ih later
      · cases member

theorem verify_of_mem_attempt {attempt : Attempt} {stored : Stored}
    (member : stored ∈ attempt.sentToCore platform remoteMissingStates) :
    verify platform remoteMissingStates stored.data = .ok none := by
  cases attempt with
  | refused err => cases member
  | stream items failure => exact verify_of_mem_sentToCore member

theorem verify_of_mem_sentInJobs {job : Attempt} {jobs : List Attempt} {stored : Stored}
    (member : stored ∈ sentInJobs platform remoteMissingStates job jobs) :
    verify platform remoteMissingStates stored.data = .ok none := by
  induction jobs generalizing job with
  | nil => exact verify_of_mem_attempt member
  | cons next jobs ih =>
      rw [sentInJobs] at member
      split at member
      · rcases List.mem_append.mp member with first | later
        · exact verify_of_mem_attempt first
        · exact ih later
      · exact verify_of_mem_attempt member

/-- An attempt that is called back has stored what came to the core. -/
theorem sentToCore_of_collect {items : List (Json × CoreResponse)} {failure err : Option String}
    {earlier stored : List Stored}
    (called : collect platform remoteMissingStates failure items earlier = .called err stored) :
    stored = earlier ++ sentToCore platform remoteMissingStates items := by
  induction items generalizing earlier with
  | nil =>
      cases called
      rw [sentToCore, List.append_nil]
  | cons item rest ih =>
      obtain ⟨chunk, answer⟩ := item
      rw [collect] at called
      rw [sentToCore]
      cases passed : verificationStream platform remoteMissingStates (.next chunk) with
      | error exn =>
          rw [passed] at called
          cases called
      | ok signal =>
          rw [passed] at called
          cases signal with
          | next data =>
              simp only [throughDbStream] at called ⊢
              split at called
              · cases called
              · rename_i acknowledged
                split at acknowledged
                · cases acknowledged
                · rename_i refused
                  cases acknowledged
                  rw [if_neg refused, ih called, List.append_assoc]
                  rfl
              · rename_i ended
                split at ended <;> cases ended
              · rename_i ended
                split at ended <;> cases ended
          | done =>
              cases called
              exact (List.append_nil _).symm
          | abort err =>
              cases called
              exact (List.append_nil _).symm

theorem sentToCore_of_called {attempt : Attempt} {err : Option String} {stored : List Stored}
    (called : trySyncOneContractOneRequest platform remoteMissingStates attempt =
      .called err stored) : attempt.sentToCore platform remoteMissingStates = stored := by
  cases attempt with
  | refused failure =>
      cases called
      rfl
  | stream items failure => exact (sentToCore_of_collect called).symm

variable {σ : Type} {core : DbCore σ} {providerOf : String → Option σ} {id : String}
  {msgsMap : List (String × List SyncReqMsg)}

theorem of_toOption_eq_some {ε α : Type} {result : Except ε α} {value : α}
    (isSome : result.toOption = some value) : result = .ok value := by
  cases result with
  | error err => cases isSome
  | ok found => exact congrArg Except.ok (Option.some.inj isSome)

theorem foldl_writeStored_eq {stored : List Stored} {writes : List CoreWrite} {db : σ}
    (acknowledged : ∀ written ∈ stored, written.status = okAnswer)
    (built : (stored.map (·.data)).mapM buildRequest = .ok writes) :
    stored.foldl (writeStored core) db =
      writes.foldl (fun db write => core.write write okAnswer db) db := by
  induction stored generalizing writes db with
  | nil =>
      cases built
      rfl
  | cons first rest ih =>
      obtain ⟨isOk, later⟩ := List.forall_mem_cons.mp acknowledged
      rw [List.map_cons, List.mapM_cons] at built
      obtain ⟨write, isWrite, built⟩ := bind_eq_ok.mp built
      obtain ⟨others, isRest, built⟩ := bind_eq_ok.mp built
      cases built
      rw [List.foldl_cons, List.foldl_cons, ← ih later isRest, writeStored, isWrite]
      simp only [isOk]

/-- The answers are those of the items. -/
theorem status_of_mem_sentToCore {items : List (Json × CoreResponse)}
    (answers : ∀ item ∈ items, item.2 = okAnswer) {stored : Stored}
    (member : stored ∈ sentToCore platform remoteMissingStates items) :
    stored.status = okAnswer := by
  induction items with
  | nil => cases member
  | cons item rest ih =>
      obtain ⟨isOk, later⟩ := List.forall_mem_cons.mp answers
      rw [sentToCore] at member
      split at member
      · rcases List.mem_cons.mp member with rfl | member
        · exact isOk
        · split at member
          · cases member
          · exact ih later member
      · cases member

/-- A contract that is received is received in an attempt that ends well. -/
theorem of_receiveContract {provider db after : σ} {requests : List SyncReqMsg}
    (isReceived : receiveContract core platform remoteMissingStates provider id requests db =
      some after) :
    ∃ chunks results, chunksOf (core.answer provider id) requests = some chunks ∧
      let attempt : Nat → Option Unit → Attempt :=
        fun _ _ => .stream (chunks.map (·, okAnswer)) none
      (trySyncReceive platform remoteMissingStates attempt [()]).callback =
          some (none, true, results) ∧
        (sentInReceive platform remoteMissingStates attempt [()]).foldl (writeStored core) db =
          after := by
  obtain ⟨chunks, isChunks, isReceived⟩ := Option.bind_eq_some_iff.mp isReceived
  dsimp only at isReceived
  split at isReceived
  · rename_i results isCallback
    obtain ⟨writes, isWrites, isAfter⟩ := Option.bind_eq_some_iff.mp isReceived
    refine ⟨chunks, results, isChunks, isCallback, ?_⟩
    let job : Attempt := .stream (chunks.map (·, okAnswer)) none
    change (waterfall platform remoteMissingStates [] job [job]).callback = _ at isCallback
    change ((((waterfall platform remoteMissingStates [] job [job]).stored).map
      (·.data)).mapM buildRequest).toOption = _ at isWrites
    change (sentInJobs platform remoteMissingStates job [job]).foldl (writeStored core) db = after
    obtain ⟨stored, called⟩ :
        ∃ stored, trySyncOneContractOneRequest platform remoteMissingStates job =
          .called none stored := by
      cases ends : trySyncOneContractOneRequest platform remoteMissingStates job with
      | silent stored =>
          simp only [waterfall, ends] at isCallback
          cases isCallback
      | called err stored =>
          cases err with
          | none => exact ⟨stored, rfl⟩
          | some err =>
              simp only [waterfall, ends] at isCallback
              cases isCallback
    have sent := sentToCore_of_called called
    simp only [waterfall, called, List.nil_append] at isWrites
    simp only [sentInJobs, called]
    rw [sent, foldl_writeStored_eq ?_ (of_toOption_eq_some isWrites)]
    · exact Option.some.inj isAfter
    · intro written member
      refine status_of_mem_sentToCore ?_ (sent ▸ member)
      intro item isItem
      obtain ⟨chunk, -, rfl⟩ := List.mem_map.mp isItem
      rfl
  · cases isReceived

/-- What is received from honest providers is received from peers. -/
theorem tryReceiveAllFrom_honest (distinct : (msgsMap.map (·.1)).Nodup)
    {jobs : List (String × List SyncReqMsg)} (listed : ∀ entry ∈ jobs, entry ∈ msgsMap)
    {db received : σ}
    (isReceived : jobs.foldlM (fun db entry => (providerOf entry.1).bind fun provider =>
      receiveContract core platform remoteMissingStates provider id entry.2 db) db =
        some received) :
    tryReceiveAllFrom platform remoteMissingStates core (honestPeers core providerOf id msgsMap)
      (jobs.map (·.1)) db = (received, true) := by
  induction jobs generalizing db with
  | nil =>
      cases isReceived
      rfl
  | cons entry rest ih =>
      obtain ⟨address, requests⟩ := entry
      obtain ⟨inMap, listed⟩ := List.forall_mem_cons.mp listed
      rw [List.foldlM_cons] at isReceived
      obtain ⟨middle, isFirst, isRest⟩ := Option.bind_eq_some_iff.mp isReceived
      obtain ⟨provider, isProvider, isFirst⟩ := Option.bind_eq_some_iff.mp isFirst
      obtain ⟨chunks, results, isChunks, isCallback, isMiddle⟩ := of_receiveContract isFirst
      have attempt : ∀ job peer,
          (honestPeers core providerOf id msgsMap).attempt address job peer =
          .stream (chunks.map (·, okAnswer)) none := by
        intro job peer
        have isProvider : providerOf address = some provider := isProvider
        simp only [honestPeers, lookup_eq_some_of_mem distinct inMap, Option.bind_some, isProvider,
          isChunks, Option.getD_some]
      have attempts := funext fun job => funext fun peer => attempt job peer
      have finish : trySyncReceive platform remoteMissingStates
          ((honestPeers core providerOf id msgsMap).attempt address)
          ((honestPeers core providerOf id msgsMap).providersList address) =
          trySyncReceive platform remoteMissingStates
            (fun _ _ => .stream (chunks.map (·, okAnswer)) none) [()] := by
        rw [attempts]
        rfl
      have sent : sentInReceive platform remoteMissingStates
          ((honestPeers core providerOf id msgsMap).attempt address)
          ((honestPeers core providerOf id msgsMap).providersList address) =
          sentInReceive platform remoteMissingStates
            (fun _ _ => .stream (chunks.map (·, okAnswer)) none) [()] := by
        rw [attempts]
        rfl
      rw [List.map_cons, tryReceiveAllFrom, finish, isCallback, sent, isMiddle]
      exact ih listed isRest

/-- A sync from honest providers is one with some peers. -/
theorem syncFrom_of_sync {ε : Type} {api : ContractReader ε}
    {remote : List (String × ContractParams)} {state : LocalState} {localTips : List LocalTip}
    {db after : σ} (chain : OnChain api remote) (described : LocalTipsOf state localTips)
    (synced : sync core platform providerOf id api localTips db = some after) :
    ∃ peers, syncFrom platform core peers api localTips db = after := by
  have distinct := (List.nodup_append'.mp (nodup_addresses chain.distinct described)).1
  obtain ⟨msgsMap, built, keys, -⟩ := buildMissingStatesResult_spec distinct
    fun missing member => by
      obtain ⟨contract, -, listed⟩ := List.mem_flatMap.mp member
      exact ⟨_, missingRun_of_missingOf listed⟩
  rw [sync, compareLocalStateToRemote_eq chain] at synced
  simp only [Except.toOption, Option.bind_eq_bind, Option.bind_some, built] at synced
  obtain ⟨received, isReceived, isAfter⟩ := Option.bind_eq_some_iff.mp synced
  refine ⟨honestPeers core providerOf id msgsMap, ?_⟩
  rw [syncFrom, compareLocalStateToRemote_eq chain]
  simp only [built]
  rw [tryReceiveAllFrom_honest (keys.nodup_iff.mpr distinct)
    (fun entry member => (entries_perm msgsMap).mem_iff.mp member) isReceived]
  exact Option.some.inj isAfter

end

section

variable {σ : Type} (core : DbCore σ)

/-- What a core has is on the chain, under its address and index. A contract that got deltas
first has no bytecode yet, or the empty one. -/
structure OnRecord (platform : Platform) (remote : List (String × ContractParams)) (db : σ) :
    Prop where
  deltas : ∀ address index data, core.deltaAt db address index = some data →
    ∃ params hash, remote.lookup address = some params ∧
      params.deltaHashes[index]? = some hash ∧ platform.sha3 data = some hash
  bytecode : ∀ address bytes, core.bytecodeAt db address = some bytes → bytes = [] ∨
    ∃ params, remote.lookup address = some params ∧ platform.sha3 bytes = some params.codeHash

/-- No delta is lost. -/
def Keeps (before after : σ) : Prop :=
  ∀ address index, core.deltaAt before address index ≠ none →
    core.deltaAt after address index ≠ none

end

section

variable {σ : Type} {core : DbCore σ}

theorem Keeps.refl (db : σ) : Keeps core db db :=
  fun _ _ held => held

theorem Keeps.trans {a b c : σ} (first : Keeps core a b) (second : Keeps core b c) :
    Keeps core a c :=
  fun address index held => second address index (first address index held)

end

/-! ## What a write brings -/

/-- Bytes are read from an array of numbers. -/
theorem of_bytesOf {value : Json} {bytes : List UInt8} (read : bytesOf value = some bytes) :
    ∃ numbers : List Rat, value = .arr (numbers.map .num) ∧ bytes = numbers.map byteOf := by
  cases value with
  | arr items =>
      change items.mapM _ = some bytes at read
      induction items generalizing bytes with
      | nil =>
          cases read
          exact ⟨[], rfl, rfl⟩
      | cons item rest ih =>
          rw [List.mapM_cons] at read
          obtain ⟨byte, isByte, read⟩ := Option.bind_eq_some_iff.mp read
          obtain ⟨bytes, isRest, read⟩ := Option.bind_eq_some_iff.mp read
          cases read
          obtain ⟨numbers, same, rfl⟩ := ih isRest
          cases item with
          | num q =>
              cases isByte
              refine ⟨q :: numbers, ?_, rfl⟩
              rw [List.map_cons, ← Json.arr.inj same]
          | _ => cases isByte
  | _ => cases read

/-- The bytes that are stored are those that are hashed. -/
theorem hash_of_bytesOf {platform : Platform} {value : Json} {bytes : List UInt8}
    (read : bytesOf value = some bytes) :
    Common.hash platform (some value) = .ok (platform.sha3 bytes) := by
  obtain ⟨numbers, rfl, rfl⟩ := of_bytesOf read
  rw [Common.hash, bufferFromHex_numbers]
  rfl

theorem of_deltaOf {item : Json} {address : String} {index : Nat} {bytes : List UInt8}
    (read : deltaOf item = some (address, index, bytes)) :
    ∃ q data, item.get? "address" = some (.str address) ∧ item.get? "key" = some (.num q) ∧
      q.num.toNat = index ∧ item.get? "data" = some data ∧ bytesOf data = some bytes := by
  rw [deltaOf] at read
  split at read
  · rename_i isAddress isKey isData
    split at read
    · obtain ⟨found, isBytes, same⟩ := Option.map_eq_some_iff.mp read
      cases same
      exact ⟨_, _, isAddress, isKey, rfl, isData, isBytes⟩
    · cases read
  · cases read

/-! ## What passes is recorded -/

theorem mem_setField {β : Type} {key : String} {value : β} {fields : List (String × β)}
    {field : String × β} (member : field ∈ setField key value fields) :
    field ∈ fields ∨ field = (key, value) := by
  induction fields with
  | nil => exact .inr (List.mem_singleton.mp member)
  | cons other rest ih =>
      rw [setField] at member
      split at member
      · exact (List.mem_cons.mp member).symm.imp_left (List.mem_cons_of_mem other)
      · rcases List.mem_cons.mp member with rfl | later
        · exact .inl List.mem_cons_self
        · exact (ih later).imp_left (List.mem_cons_of_mem other)

/-- A property after assignments to a new object was assigned. -/
theorem of_mem_foldl {α β : Type} {assign : List (String × β) → α → List (String × β)}
    {assigned : α → String × β}
    (isAssigned : ∀ fields item, ∀ field ∈ assign fields item,
      field ∈ fields ∨ field = assigned item)
    {items : List α} {fields : List (String × β)} {field : String × β}
    (member : field ∈ items.foldl assign fields) :
    field ∈ fields ∨ ∃ item ∈ items, field = assigned item := by
  induction items generalizing fields with
  | nil => exact .inl member
  | cons item rest ih =>
      rcases ih member with before | ⟨other, isItem, same⟩
      · refine (isAssigned fields item field before).imp_right fun same => ?_
        exact ⟨item, List.mem_cons_self, same⟩
      · exact .inr ⟨other, List.mem_cons_of_mem _ isItem, same⟩

theorem of_lookup_foldl_setField {α β : Type} {key : α → String} {value : α → β} {items : List α}
    {name : String} {found : β}
    (isFound : (items.foldl (fun fields item => setField (key item) (value item) fields)
      []).lookup name = some found) :
    ∃ item ∈ items, key item = name ∧ value item = found := by
  have isAssigned : ∀ (fields : List (String × β)) (item : α),
      ∀ field ∈ setField (key item) (value item) fields,
        field ∈ fields ∨ field = (key item, value item) := fun _ _ _ => mem_setField
  rcases of_mem_foldl isAssigned (mem_of_lookup_eq_some isFound) with none | ⟨item, member, same⟩
  · cases none
  · cases same
    exact ⟨item, member, rfl, rfl⟩

/-- What the map of the tips has is one of them. -/
theorem mem_tipsMapOf {localTips : List LocalTip} {tip : String × Nat}
    (member : tip ∈ tipsMapOf localTips) :
    ∃ item ∈ localTips, tip = (item.address.normalized, item.key) := by
  have isAssigned : ∀ (fields : List (String × Nat)) (item : LocalTip),
      ∀ field ∈ assignField item.address.normalized item.key fields,
        field ∈ fields ∨ field = (item.address.normalized, item.key) := by
    intro fields item field member
    rw [assignField] at member
    split at member
    · exact .inl member
    · exact mem_setField member
  exact (of_mem_foldl isAssigned member).resolve_left List.not_mem_nil

/-- What the map of the verifier records is on the chain. -/
structure RecordsChain (remote : List (String × ContractParams))
    (remoteMissingStates : RemoteMissingStates) : Prop where
  deltas : ∀ address state name hash, remoteMissingStates.lookup address = some state →
    state.deltas.lookup name = some hash → ∃ (params : ContractParams) (index : Nat),
      name = toString index ∧ remote.lookup address = some params ∧
      params.deltaHashes[index]? = some hash
  bytecode : ∀ address state hash, remoteMissingStates.lookup address = some state →
    state.bytecodeHash = some hash → ∃ params : ContractParams,
      remote.lookup address = some params ∧ params.codeHash = hash

theorem recordsChain_expected {remote : List (String × ContractParams)}
    (distinct : (remote.map (·.1)).Nodup) (localTips : List LocalTip) :
    RecordsChain remote
      (transformMissingStatesListToMap (expected remote localTips).missingList) := by
  have listed : ∀ address state, (transformMissingStatesListToMap
      (expected remote localTips).missingList).lookup address = some state →
      ∃ (tip : Option Nat) (params : ContractParams),
        remote.lookup address = some params ∧ state = remoteStateOf
          ⟨address, missingDeltasFrom (tip.elim 0 (· + 1)) params.deltaHashes,
            if tip.isNone then some params.codeHash else none⟩ := by
    intro address state found
    obtain ⟨missing, member, rfl, rfl⟩ := of_lookup_foldl_setField found
    obtain ⟨contract, inRemote, isListed⟩ := List.mem_flatMap.mp member
    obtain ⟨-, rfl⟩ := mem_missingOf.mp isListed
    exact ⟨_, contract.2, lookup_eq_some_of_mem distinct inRemote, rfl⟩
  constructor
  · intro address state name hash found recorded
    obtain ⟨tip, params, known, rfl⟩ := listed address state found
    obtain ⟨delta, member, rfl, rfl⟩ := of_lookup_foldl_setField recorded
    exact ⟨params, delta.index, rfl, known, getElem?_of_missingDeltasFrom member⟩
  · intro address state hash found recorded
    obtain ⟨tip, params, known, rfl⟩ := listed address state found
    cases tip with
    | none => exact ⟨params, known, Option.some.inj recorded⟩
    | some key => cases recorded

section

variable {platform : Platform} {remote : List (String × ContractParams)}
  {remoteMissingStates : RemoteMissingStates} {σ : Type} {core : DbCore σ} {db : σ}

theorem deltas_of_buildRequest {msg : SyncResMsg} {deltas : Option Json}
    (built : buildRequest msg = .ok (.updateDeltas deltas)) :
    ∃ rawMsg, msg = .state rawMsg ∧ resultField rawMsg "deltas" = .ok deltas := by
  cases msg with
  | state rawMsg =>
      refine ⟨rawMsg, rfl, ?_⟩
      change (resultField rawMsg "deltas").map _ = _ at built
      cases isDeltas : resultField rawMsg "deltas" with
      | error exn =>
          rw [isDeltas] at built
          cases built
      | ok found =>
          rw [isDeltas] at built
          cases built
          rfl
  | bcode rawMsg =>
      obtain ⟨address, -, built⟩ := bind_eq_ok.mp built
      obtain ⟨bytecode, -, built⟩ := bind_eq_ok.mp built
      cases built

theorem bytecode_of_buildRequest {msg : SyncResMsg} {address bytecode : Option Json}
    (built : buildRequest msg = .ok (.updateNewContract address bytecode)) :
    ∃ rawMsg, msg = .bcode rawMsg ∧ resultField rawMsg "address" = .ok address ∧
      resultField rawMsg "bytecode" = .ok bytecode := by
  cases msg with
  | state rawMsg =>
      change (resultField rawMsg "deltas").map _ = _ at built
      cases isDeltas : resultField rawMsg "deltas" with
      | error exn =>
          rw [isDeltas] at built
          cases built
      | ok found =>
          rw [isDeltas] at built
          cases built
  | bcode rawMsg =>
      obtain ⟨found, isAddress, built⟩ := bind_eq_ok.mp built
      obtain ⟨code, isBytecode, built⟩ := bind_eq_ok.mp built
      cases built
      exact ⟨rawMsg, rfl, isAddress, isBytecode⟩

/-- A verified message brings nothing but what the chain records. -/
theorem OnRecord.writeStored (record : OnRecord core platform remote db)
    (additive : Additive core) (chain : RecordsChain remote remoteMissingStates) {stored : Stored}
    (verified : verify platform remoteMissingStates stored.data = .ok none) :
    OnRecord core platform remote (Sync.writeStored core db stored) := by
  rw [Sync.writeStored]
  split
  · rename_i write isWrite
    constructor
    · intro address index data found
      rcases additive.deltas found with before | ⟨items, item, rfl, member, isDelta⟩
      · exact record.deltas address index data before
      · obtain ⟨q, value, isAddress, isKey, rfl, isData, isBytes⟩ := of_deltaOf isDelta
        have carried : CarriesDelta platform stored.data address (Json.numToString q)
            (some value) := by
          obtain ⟨rawMsg, isState, isDeltas⟩ := deltas_of_buildRequest isWrite
          exact ⟨rawMsg, _, _, item, isState, isDeltas, loopItems_arr platform.stringToNumber items,
            List.mem_map_of_mem member, by rw [isAddress, keyOf_some, Json.toKey_str],
            by rw [isKey, keyOf_some, Json.toKey_num], isData⟩
        obtain ⟨state, digest, known, recorded, hashed⟩ := matches_of_verify verified carried
        obtain ⟨params, index, isIndex, onChain, isHash⟩ :=
          chain.deltas address state _ digest known recorded
        rw [hash_of_bytesOf isBytes] at hashed
        refine ⟨params, digest, onChain, ?_, Except.ok.inj hashed⟩
        rw [eq_of_numToString isIndex]
        exact isHash
    · intro address bytes found
      rcases additive.bytecode found with before | ⟨isEmpty, -⟩ | ⟨bytecode, rfl, isBytes⟩
      · exact record.bytecode address bytes before
      · exact .inl isEmpty
      · have carried : CarriesBytecode stored.data address (some bytecode) := by
          obtain ⟨rawMsg, isBcode, isAddress, isBytecode⟩ := bytecode_of_buildRequest isWrite
          exact ⟨rawMsg, _, isBcode, isAddress, Json.toKey_str address, isBytecode⟩
        obtain ⟨state, digest, known, recorded, hashed⟩ :=
          matchesBytecode_of_verify verified carried
        obtain ⟨params, onChain, isHash⟩ := chain.bytecode address state digest known recorded
        rw [hash_of_bytesOf isBytes] at hashed
        exact .inr ⟨params, onChain, (Except.ok.inj hashed).trans (congrArg some isHash.symm)⟩
  · exact record

theorem Additive.keeps_writeStored (additive : Additive core) (stored : Stored) :
    Keeps core db (writeStored core db stored) := by
  rw [writeStored]
  split
  · exact fun _ _ => additive.keeps
  · exact Keeps.refl db

/-! ## Whole syncs -/

/-- Writes of verified messages. -/
theorem OnRecord.foldl_writeStored (record : OnRecord core platform remote db)
    (additive : Additive core) (chain : RecordsChain remote remoteMissingStates)
    {stored : List Stored} (verified : ∀ written ∈ stored,
      verify platform remoteMissingStates written.data = .ok none) :
    OnRecord core platform remote (stored.foldl (Sync.writeStored core) db) ∧
      Keeps core db (stored.foldl (Sync.writeStored core) db) := by
  induction stored generalizing db with
  | nil => exact ⟨record, Keeps.refl db⟩
  | cons written rest ih =>
      obtain ⟨first, later⟩ := List.forall_mem_cons.mp verified
      obtain ⟨kept, keeps⟩ := ih (record.writeStored additive chain first) later
      exact ⟨kept, (additive.keeps_writeStored written).trans keeps⟩

theorem OnRecord.tryReceiveAllFrom (record : OnRecord core platform remote db)
    (additive : Additive core) (chain : RecordsChain remote remoteMissingStates) (peers : Peers)
    (addresses : List String) :
    OnRecord core platform remote
        (Sync.tryReceiveAllFrom platform remoteMissingStates core peers addresses db).1 ∧
      Keeps core db
        (Sync.tryReceiveAllFrom platform remoteMissingStates core peers addresses db).1 := by
  induction addresses generalizing db with
  | nil => exact ⟨record, Keeps.refl db⟩
  | cons address rest ih =>
      have written := record.foldl_writeStored additive chain fun stored member =>
        @verify_of_mem_sentInJobs platform remoteMissingStates
          (peers.attempt address 0 (peers.providersList address).head?)
          (((jobProviders (peers.providersList address)).tail.zipIdx 1).map fun job =>
            peers.attempt address job.2 job.1) stored member
      rw [Sync.tryReceiveAllFrom]
      split
      · obtain ⟨kept, keeps⟩ := ih written.1
        exact ⟨kept, written.2.trans keeps⟩
      · exact written

/-- A core that is on record has nothing in excess. -/
theorem OnRecord.excessList_eq_nil (record : OnRecord core platform remote db)
    (additive : Additive core) (distinct : (remote.map (·.1)).Nodup) :
    (expected remote (core.tips db)).excessList = [] := by
  have onChain : ∀ tip ∈ tipsMapOf (core.tips db), ∃ params, remote.lookup tip.1 = some params ∧
      tip.2 < params.deltaHashes.length := by
    intro tip member
    obtain ⟨item, isTip, rfl⟩ := mem_tipsMapOf member
    obtain ⟨data, held⟩ := Option.ne_none_iff_exists'.mp (additive.tips item isTip)
    obtain ⟨params, hash, known, recorded, -⟩ := record.deltas _ _ _ held
    exact ⟨params, known, (List.getElem?_eq_some_iff.mp recorded).1⟩
  have noOther : (tipsMapOf (core.tips db)).filter (fun tip => tip.1 ∉ remote.map (·.1)) = [] := by
    refine List.filter_eq_nil_iff.mpr fun tip member unknown => ?_
    obtain ⟨params, known, -⟩ := onChain tip member
    exact of_decide_eq_true unknown (List.mem_map_of_mem (mem_of_lookup_eq_some known))
  rw [expected, noOther, (entries_perm []).eq_nil, List.map_nil, List.append_nil,
    List.flatMap_eq_nil_iff]
  intro contract inRemote
  refine List.eq_nil_iff_forall_not_mem.mpr fun excess member => ?_
  obtain ⟨key, isTip, shorter, -⟩ := mem_excessOf.mp member
  obtain ⟨params, known, below⟩ := onChain _ (mem_of_lookup_eq_some isTip)
  cases known.symm.trans (lookup_eq_some_of_mem distinct inRemote)
  omega

/-- A sync with any peers keeps a core on record, and loses no delta. -/
theorem OnRecord.syncFrom {ε : Type} {api : ContractReader ε} (chain : OnChain api remote)
    (record : OnRecord core platform remote db) (additive : Additive core) (peers : Peers) :
    OnRecord core platform remote (Sync.syncFrom platform core peers api (core.tips db) db) ∧
      Keeps core db (Sync.syncFrom platform core peers api (core.tips db) db) := by
  rw [Sync.syncFrom, compareLocalStateToRemote_eq chain]
  dsimp only
  split
  · exact ⟨record, Keeps.refl db⟩
  · rename_i msgsMap _
    have received := record.tryReceiveAllFrom additive
      (recordsChain_expected chain.distinct (core.tips db)) peers ((entries msgsMap).map (·.1))
    rw [record.excessList_eq_nil additive chain.distinct, List.foldl_nil, ite_self]
    split
    · exact received
    · exact ⟨record, Keeps.refl db⟩

theorem OnRecord.grows {after : List (String × ContractParams)}
    (record : OnRecord core platform remote db) (grows : Grows remote after) :
    OnRecord core platform after db := by
  constructor
  · intro address index data held
    obtain ⟨params, hash, known, recorded, hashed⟩ := record.deltas address index data held
    obtain ⟨grown, still, -, rest, longer⟩ := grows.kept address params known
    refine ⟨grown, hash, still, ?_, hashed⟩
    rw [← longer, List.getElem?_append_left (List.getElem?_eq_some_iff.mp recorded).1]
    exact recorded
  · intro address bytes held
    refine (record.bytecode address bytes held).imp_right ?_
    rintro ⟨params, known, hashed⟩
    obtain ⟨grown, still, sameCode, -⟩ := grows.kept address params known
    exact ⟨grown, still, hashed.trans (congrArg some sameCode.symm)⟩

/-- Data under the same address and index has the same hash in all cores on record. -/
theorem OnRecord.agree {other : σ} (record : OnRecord core platform remote db)
    (recordOther : OnRecord core platform remote other) {address : String} {index : Nat}
    {data dataOther : List UInt8} (held : core.deltaAt db address index = some data)
    (heldOther : core.deltaAt other address index = some dataOther) :
    platform.sha3 dataOther = platform.sha3 data := by
  obtain ⟨params, hash, known, recorded, hashed⟩ := record.deltas _ _ _ held
  obtain ⟨same, digest, knownOther, recordedOther, hashedOther⟩ :=
    recordOther.deltas _ _ _ heldOther
  cases known.symm.trans knownOther
  cases recorded.symm.trans recordedOther
  exact hashedOther.trans hashed.symm

end

/-! ## Runs -/

inductive StrangerLabel where
  /-- Blocks are added to the chain. -/
  | grow (remote : List (String × ContractParams))
  /-- Node `i` syncs with these peers. -/
  | sync (i : Nat) (peers : Peers)

section

variable {σ : Type} (core : DbCore σ) (platform : Platform)

def strangerStep (net : Network σ) : StrangerLabel → Network σ
  | .grow remote => { net with remote }
  | .sync i peers =>
      match net.nodes[i]? with
      | none => net
      | some db =>
          { net with
            nodes := net.nodes.set i
              (syncFrom platform core peers (readerOf net.remote) (core.tips db) db) }

/-- The chain only grows. Nothing is asked of the peers. -/
def StrangerAllowed (net : Network σ) : StrangerLabel → Prop
  | .grow remote => Grows net.remote remote
  | .sync _ _ => True

/-- All nodes are on record. -/
structure AllOnRecord (net : Network σ) : Prop where
  valid : ValidChain net.remote
  nodes : ∀ (i : Nat) (db : σ), net.nodes[i]? = some db → OnRecord core platform net.remote db

/-- Each node has, in the second network, data of the same hash for each delta it has in the
first one. -/
def Retains (before after : Network σ) : Prop :=
  ∀ (i : Nat) (db : σ), before.nodes[i]? = some db → ∃ later, after.nodes[i]? = some later ∧
    ∀ address index data, core.deltaAt db address index = some data → ∃ kept,
      core.deltaAt later address index = some kept ∧ platform.sha3 kept = platform.sha3 data

/-- Nodes have data of the same hashes for the deltas that both have. -/
def Agreeing (net : Network σ) : Prop :=
  ∀ (i j : Nat) (one two : σ), net.nodes[i]? = some one → net.nodes[j]? = some two →
    ∀ address index data dataTwo, core.deltaAt one address index = some data →
      core.deltaAt two address index = some dataTwo → platform.sha3 dataTwo = platform.sha3 data

end

section

variable {σ : Type} {core : DbCore σ} {platform : Platform} {net : Network σ}

theorem Retains.refl (net : Network σ) : Retains core platform net net :=
  fun _ db isNode => ⟨db, isNode, fun _ _ data held => ⟨data, held, rfl⟩⟩

theorem Retains.trans {a b c : Network σ} (first : Retains core platform a b)
    (second : Retains core platform b c) : Retains core platform a c := by
  intro i db isNode
  obtain ⟨later, isLater, retained⟩ := first i db isNode
  obtain ⟨last, isLast, retainedLater⟩ := second i later isLater
  refine ⟨last, isLast, fun address index data held => ?_⟩
  obtain ⟨kept, isKept, sameHash⟩ := retained address index data held
  obtain ⟨keptLast, isKeptLast, sameHashLast⟩ := retainedLater address index kept isKept
  exact ⟨keptLast, isKeptLast, sameHashLast.trans sameHash⟩

/-- One step, whatever the peers do. -/
theorem AllOnRecord.step (all : AllOnRecord core platform net) (additive : Additive core)
    {label : StrangerLabel} (allowed : StrangerAllowed net label) :
    AllOnRecord core platform (strangerStep core platform net label) ∧
      Retains core platform net (strangerStep core platform net label) := by
  cases label with
  | grow remote =>
      refine ⟨⟨allowed.valid, fun i db isNode => (all.nodes i db isNode).grows allowed⟩, ?_⟩
      exact fun i db isNode => Retains.refl net i db isNode
  | sync i peers =>
      rw [strangerStep]
      split
      · exact ⟨all, Retains.refl net⟩
      · rename_i db isNode
        have record := all.nodes i db isNode
        obtain ⟨synced, keeps⟩ := record.syncFrom all.valid.onChain additive peers
        refine ⟨⟨all.valid, fun j other isOther => ?_⟩, fun j other isOther => ?_⟩
        · rw [List.getElem?_set] at isOther
          split at isOther
          · rename_i same
            rw [if_pos (List.getElem?_eq_some_iff.mp isNode).1] at isOther
            cases isOther
            exact synced
          · exact all.nodes j other isOther
        · by_cases same : i = j
          · subst same
            cases isNode.symm.trans isOther
            refine ⟨_, List.getElem?_set_self (List.getElem?_eq_some_iff.mp isNode).1,
              fun address index data held => ?_⟩
            obtain ⟨kept, isKept⟩ := Option.ne_none_iff_exists'.mp
              (keeps address index (held ▸ Option.some_ne_none data))
            exact ⟨kept, isKept, record.agree synced held isKept⟩
          · exact ⟨other, (List.getElem?_set_ne same).trans isOther,
              fun _ _ data held => ⟨data, held, rfl⟩⟩

end

/-- Over all runs in which the chain grows and nodes with additive cores sync with any peers: what
a node has is on the chain, what it had it still has, and nodes agree on what they both have. -/
theorem integrity_run {σ : Type} {core : DbCore σ} (additive : Additive core)
    {platform : Platform} {start : Network σ} (initial : AllOnRecord core platform start)
    {labels : List StrangerLabel}
    (meets : Meets StrangerAllowed (strangerStep core platform) start labels) :
    let final := run (strangerStep core platform) start labels
    AllOnRecord core platform final ∧ Retains core platform start final ∧
      Agreeing core platform final := by
  intro final
  obtain ⟨all, retains⟩ :
      AllOnRecord core platform final ∧ Retains core platform start final := by
    refine @invariant_run _ _ _ _
      (fun net => AllOnRecord core platform net ∧ Retains core platform start net)
      start ⟨initial, Retains.refl start⟩ ?_ labels meets
    rintro net label ⟨all, retains⟩ allowed
    obtain ⟨after, retainsAfter⟩ := all.step additive allowed
    exact ⟨after, retains.trans retainsAfter⟩
  refine ⟨all, retains, fun i j one two isOne isTwo address index data dataTwo held heldTwo => ?_⟩
  exact (all.nodes i one isOne).agree (all.nodes j two isTwo) held heldTwo

/-- A node without data asks one that answers with the wrong bytecode. -/
theorem integrity_run_wrong_bytecode :
    let labels := [StrangerLabel.sync 0 ⟨true, fun _ => [0], fun _ _ _ =>
      .stream [(.obj (bcodeResponse "1" "aa" ⟨[2], []⟩), okAnswer)] none⟩]
    let final := run (strangerStep listCore threeHashes) ⟨twoContracts, [[]]⟩ labels
    AllOnRecord listCore threeHashes final ∧
      Retains listCore threeHashes ⟨twoContracts, [[]]⟩ final ∧
      Agreeing listCore threeHashes final := by
  have valid : ValidChain twoContracts := ⟨onChain_twoContracts.addresses,
    onChain_twoContracts.distinct, onChain_twoContracts.deployed⟩
  refine integrity_run additive_listCore ⟨valid, fun i db isNode => ?_⟩ ⟨trivial, trivial⟩
  cases List.mem_singleton.mp (List.mem_of_getElem? isNode)
  exact ⟨by rintro _ _ _ ⟨⟩, by rintro _ _ ⟨⟩⟩

end Sync
