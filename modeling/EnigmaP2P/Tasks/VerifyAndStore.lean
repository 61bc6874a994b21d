import EnigmaP2P.Common.Errors
import EnigmaP2P.Ethereum.TaskCreation
import EnigmaP2P.Tasks.Result

/-!
# Results of other workers

`VerifyAndStoreResultAction` takes a message of the task-results topic, has its result
verified, updates the core and stores the result. What the rest of the node and the chain
answer is an `Env`; `execute` gives the effects in their order.

The result that is verified is built by status and then by type, the one that is stored
by type alone, with the status of that type. A message for which both are built is stored
as it was verified only if its status belongs to its type. A failure of the callback on
the chain clears the status, and the record then loads as `null`.
-/

namespace Tasks

open Js Common Ethereum

/-- What `error` holds in the action. -/
inductive Fault where
  | text (message : String)
  | exn (exn : Exn)
  | err (err : Err)
  deriving DecidableEq

/-- The answers that one message meets. -/
structure Env where
  /-- `JSON.parse`, of the payload and of a result that is a text. -/
  parse : String → Except Exn Json
  hasEthereum : Bool
  getTips : Except Exn Json
  getEthereumBlockNumber : Except Exn Nat
  verifyTaskSubmission : Except Exn Verdict
  updateDb : Except Exn Unit
  /-- Whether an identifier of the network can be made from the contract's address. -/
  createFromSCAddress : Bool
  announce : Except Exn Unit
  /-- The write of the database. -/
  put : Except Exn Unit

/-- What the action does. -/
inductive Effect where
  | verifies (result : Option Result) (contractAddress localTip : Option Json)
  | updatesDb (coreMsg : Json)
  | announces (scAddress : Option Json)
  | stores (task : OutsideTask) (record : Json)
  | calls (callbackError : Option Fault)
  | throws (exn : Exn)

/-- `===`; objects and arrays that come from different messages are never the same. -/
def strictEquals : Option Json → Option Json → Bool
  | some (.obj _), _ | some (.arr _), _ => false
  | a, b => a = b

/-- `_buildTaskResult`; the inner error is the text for a type that is not known. -/
def buildTaskResult (parse : String → Except Exn Json) (type : Option Json) (resultObj : Json) :
    Except Exn (Except String (Option Result)) :=
  if resultObj.get? "status" = some (.str TaskStatus.failed) then
    (buildFailedResult parse (some resultObj)).map .ok
  else if type = some (.str CoreRequests.deploySecretContract) then
    (buildDeployResult parse (some resultObj)).map .ok
  else if type = some (.str CoreRequests.computeTask) then
    (buildComputeResult parse (some resultObj)).map .ok
  else do
    let type ← keyOf type
    pure (.error ("[VERIFY_TASK_RESULT] received unrecognized task type " ++ type ++
      ", task is dropped"))

/-- `_buildIpcMsg`; `none` is `null`. -/
def buildIpcMsg (taskResult : Option Result) (contractAddr : Option Json) :
    Except Exn (Option Json) :=
  match taskResult with
  | none => .error .typeError
  | some result =>
      match result.cls with
      | .failed => .ok none
      | .deploy => .ok (some (definedFields [("address", contractAddr),
          ("bytecode", result.output),
          ("type", some (.str CoreRequests.updateNewContractOnDeployment)),
          ("delta", result.delta)]))
      | .compute =>
          if result.hasDelta then
            .ok (some (definedFields [("type", some (.str CoreRequests.updateDeltas)),
              ("deltas", some (.arr [definedFields [("address", contractAddr),
                ("key", result.delta.bind (·.get? "key")),
                ("data", result.delta.bind (·.get? "data"))]]))]))
          else .ok none

/-- The local tip among the tips that the core sent, or the error text. -/
def readTip (tips : Json) (contractAddress : Option Json) : Except Exn (Except String Json) :=
  let wrongTips := (keyOf contractAddress).map fun address =>
    .error ("[VERIFY_TASK_RESULT] error in reading " ++ address ++ " local tip")
  match tips with
  | .arr (.null :: _) => .error .typeError
  | .arr (tip :: _) =>
      if truthy? (tip.get? "address") && strictEquals (tip.get? "address") contractAddress then
        .ok (.ok tip)
      else wrongTips
  | _ => wrongTips

/-- The log lines of `_verifyResult` can write the id of the result. -/
def canLog : Option Result → Bool
  | some result => (keyOf result.taskId).isOk
  | none => false

/-- The answer of the verifier, as `_verifyResult` takes it: `error` and `isVerified`. Where
the log line of a branch throws, that of the handler does so again. -/
def takeVerdict (result : Option Result) (answer : Except Exn Verdict) :
    Except Exn (Option Fault × Bool) :=
  match answer with
  | .error exn => if canLog result then .ok (some (.exn exn), false) else .error .typeError
  | .ok verdict =>
      match verdict.error with
      | some err => if canLog result then .ok (some (.err err), false) else .error .typeError
      | none =>
          if verdict.isVerified then
            if canLog result then .ok (none, true) else .error .typeError
          else .ok (none, false)

/-- `_verifyResult` from the read of the block number on. -/
def verifyWithTip (env : Env) (result : Option Result) (contractAddress localTip : Option Json) :
    List Effect × Except Exn (Option Fault × Bool) :=
  match env.getEthereumBlockNumber with
  | .error exn => ([], takeVerdict result (.error exn))
  | .ok _ => ([.verifies result contractAddress localTip],
      takeVerdict result env.verifyTaskSubmission)

/-- A result without a delta is verified with the local tip. -/
def needsTip : Option Result → Bool
  | some result => result.cls ≠ .failed && !result.hasDelta
  | none => false

/-- `_verifyResult`. -/
def verifyResult (env : Env) (result : Option Result) (contractAddress : Option Json) :
    List Effect × Except Exn (Option Fault × Bool) :=
  if env.hasEthereum then
    if needsTip result then
      match env.getTips.bind (readTip · contractAddress) with
      | .error exn => ([], .ok (some (.exn exn), false))
      | .ok (.error text) => ([], .ok (some (.text text), false))
      | .ok (.ok localTip) => verifyWithTip env result contractAddress (some localTip)
    else verifyWithTip env result contractAddress none
  else ([], .ok (none, true))

/-- The verifier says that the task failed in its callback on the chain. -/
def isEthereumFailure : Option Fault → Bool
  | some (.err err) => err.cls = .taskEthereumFailureErr
  | _ => false

/-- The task that is stored and its record. The database refuses an id that is `null`. -/
def taskToStore (env : Env) (type : Option Json) (resultObj : Json) (ethereumFailure : Bool) :
    Except Exn (Option (OutsideTask × Json)) := do
  let task ← buildOutsideTask env.parse type (some resultObj)
  match task with
  | none => pure none
  | some task =>
      -- `TASK_STATUS.FAILED.FAILED_ETHEREUM_CB` is a property of a text, and not there
      let task ← (if ethereumFailure then task.setResultStatus none else .ok task)
      let record ← task.toDbJson
      match task.taskId with
      | none => .error .error
      | some _ => do
          env.put
          pure (some (task, record))

/-- From the decision to store on. -/
def storeAndCall (env : Env) (type : Option Json) (resultObj : Json) (verifyError : Option Fault)
    (isVerified : Bool) (error : Option Fault) : List Effect :=
  if isVerified || isEthereumFailure verifyError then
    match taskToStore env type resultObj (isEthereumFailure verifyError) with
    | .error exn => [.calls (some (.exn exn))]
    | .ok none => [.calls error]
    | .ok (some (task, record)) => [.stores task record, .calls error]
  else [.calls error]

/-- The announcement of a deployed contract; `error` afterwards. -/
def announceContract (env : Env) (type : Option Json) (resultObj : Json) (error : Option Fault) :
    List Effect × Option Fault :=
  if type = some (.str CoreRequests.deploySecretContract) ∧
      resultObj.get? "status" = some (.str TaskStatus.success) ∧
      env.createFromSCAddress = true then
    match env.announce with
    | .error exn => ([.announces (resultObj.get? "taskId")], some (.exn exn))
    | .ok _ => ([.announces (resultObj.get? "taskId")], error)
  else ([], error)

/-- The part of the action after `_verifyResult`, whose error is the first one to report. -/
def afterVerification (env : Env) (type contractAddress : Option Json) (resultObj : Json)
    (taskResult : Option Result) (verifyError : Option Fault) (isVerified : Bool) : List Effect :=
  if isVerified then
    match buildIpcMsg taskResult contractAddress with
    | .error exn => [.throws exn]
    | .ok none => storeAndCall env type resultObj verifyError isVerified verifyError
    | .ok (some coreMsg) =>
        match env.updateDb with
        | .error exn => [.updatesDb coreMsg, .calls (some (.exn exn))]
        | .ok _ =>
            .updatesDb coreMsg :: (announceContract env type resultObj verifyError).1 ++
              storeAndCall env type resultObj verifyError isVerified
                (announceContract env type resultObj verifyError).2
  else storeAndCall env type resultObj verifyError isVerified verifyError

/-- The first log line writes the id and the status of the result. -/
def logReceived : Option Json → Except Exn Json
  | none | some .null => .error .typeError
  | some resultObj => do
      let _ ← keyOf (resultObj.get? "taskId")
      let _ ← keyOf (resultObj.get? "status")
      pure resultObj

/-- `execute` on the parsed message. -/
def execute (env : Env) (msgObj : Json) : List Effect :=
  let contractAddress := msgObj.get? "contractAddress"
  let type := msgObj.get? "type"
  match logReceived (msgObj.get? "result") with
  | .error exn => [.throws exn]
  | .ok resultObj =>
      match buildTaskResult env.parse type resultObj with
      | .error exn => [.throws exn]
      | .ok (.error text) => [.calls (some (.text text))]
      | .ok (.ok taskResult) =>
          match verifyResult env taskResult contractAddress with
          | (effects, .error exn) => effects ++ [.throws exn]
          | (effects, .ok (verifyError, isVerified)) =>
              effects ++ afterVerification env type contractAddress resultObj taskResult
                verifyError isVerified

/-! ## What should be stored -/

/-- The verifier accepted. -/
def Accepts (answer : Except Exn Verdict) : Prop :=
  ∃ verdict, answer = .ok verdict ∧ verdict.error = none ∧ verdict.isVerified = true

/-- The verifier answered that the task failed in its callback on the chain. -/
def FailsInEthereum (answer : Except Exn Verdict) : Prop :=
  ∃ verdict err, answer = .ok verdict ∧ verdict.error = some err ∧
    err.cls = .taskEthereumFailureErr

/-- The stored result is the one that was verified. -/
structure SameResult (stored verified : Result) : Prop where
  cls : stored.cls = verified.cls
  status : stored.status = verified.status
  output : stored.output = verified.output
  delta : stored.delta = verified.delta

/-- The record loads with the status of an Ethereum failure. -/
def LoadsAsEthereumFailure (parse : String → Except Exn Json) (record : Json) : Prop :=
  ∃ task result, OutsideTask.fromDbJson parse record = .ok (some task) ∧
    task.result = some result ∧
    result.status = some (.str TaskStatus.failedEthereumCb)

/-- Everything that is stored is a result as it was verified and accepted, or, when it was
not accepted, a record of an Ethereum failure. -/
def StoredRight (env : Env) (effects : List Effect) : Prop :=
  ∀ task record, .stores task record ∈ effects →
    (Accepts env.verifyTaskSubmission ∧ ∃ verified contractAddress localTip stored,
      .verifies (some verified) contractAddress localTip ∈ effects ∧
      task.result = some stored ∧ SameResult stored verified) ∨
    (¬ Accepts env.verifyTaskSubmission ∧ LoadsAsEthereumFailure env.parse record)

/-- The class by which the result of a message is verified. -/
def verifiedClass (type : Option Json) (fields : List (String × Json)) : Option ResultClass :=
  if fields.lookup "status" = some (.str TaskStatus.failed) then some .failed
  else if type = some (.str CoreRequests.deploySecretContract) then some .deploy
  else if type = some (.str CoreRequests.computeTask) then some .compute
  else none

/-- The result reaches the verifier: it has the expected properties, its status can be
logged, and if there is no delta then the contract address can equal that of a tip. -/
structure Submitted (type contractAddress : Option Json) (fields : List (String × Json))
    (cls : ResultClass) : Prop where
  isClass : verifiedClass type fields = some cls
  has : HasExpected cls fields
  logs : ∃ text, keyOf (fields.lookup "status") = .ok text
  tip : needsTip (some (Result.ofFields cls fields)) = true →
    truthy? contractAddress = true ∧ strictEquals contractAddress contractAddress = true

/-- The status is the one that belongs to the type. -/
def StatusOfType (type : Option Json) (fields : List (String × Json)) : Prop :=
  ∃ cls, rawClass type = some cls ∧ fields.lookup "status" = some (.str cls.rawStatus)

/-- A message whose result reaches the verifier and can be stored has the status of its
type where it is accepted, and is not answered with an Ethereum failure. -/
def StoresWell (msgObj : Json) (answer : Except Exn Verdict) : Prop :=
  ∀ fields verified stored taskId, msgObj.get? "result" = some (.obj fields) →
    Submitted (msgObj.get? "type") (msgObj.get? "contractAddress") fields verified →
    Storable (msgObj.get? "type") fields stored taskId →
    (Accepts answer → StatusOfType (msgObj.get? "type") fields) ∧ ¬ FailsInEthereum answer

/-! ## From a stored record back to the message -/

section

variable {env : Env} {type contractAddress : Option Json} {resultObj : Json}
  {taskResult : Option Result} {verifyError error : Option Fault} {isVerified : Bool}
  {task : OutsideTask} {record : Json}

private theorem of_stores_storeAndCall
    (stores : .stores task record ∈
      storeAndCall env type resultObj verifyError isVerified error) :
    (isVerified = true ∨ isEthereumFailure verifyError = true) ∧
      taskToStore env type resultObj (isEthereumFailure verifyError) =
        .ok (some (task, record)) := by
  unfold storeAndCall at stores
  split at stores
  · rename_i decided
    refine ⟨by simpa using decided, ?_⟩
    split at stores
    · simp at stores
    · simp at stores
    · rename_i stored
      rw [stored]
      rcases List.mem_cons.mp stores with same | later
      · cases same
        rfl
      · simp at later
  · simp at stores

private theorem of_stores_afterVerification
    (stores : .stores task record ∈ afterVerification env type contractAddress resultObj
      taskResult verifyError isVerified) :
    (isVerified = true ∨ isEthereumFailure verifyError = true) ∧
      taskToStore env type resultObj (isEthereumFailure verifyError) =
        .ok (some (task, record)) := by
  have noAnnouncement :
      Effect.stores task record ∉ (announceContract env type resultObj verifyError).1 := by
    unfold announceContract
    (repeat' split) <;> simp
  unfold afterVerification at stores
  split at stores
  · split at stores
    · simp at stores
    · exact of_stores_storeAndCall stores
    · split at stores
      · simp at stores
      · rcases List.mem_append.mp stores with early | late
        · simp [noAnnouncement] at early
        · exact of_stores_storeAndCall late
  · exact of_stores_storeAndCall stores

/-- What a record needs: the result was built, verified and taken for storing. -/
theorem of_stores {msgObj : Json} (stores : .stores task record ∈ execute env msgObj) :
    ∃ resultObj taskResult effects verifyError isVerified,
      logReceived (msgObj.get? "result") = .ok resultObj ∧
      buildTaskResult env.parse (msgObj.get? "type") resultObj = .ok (.ok taskResult) ∧
      verifyResult env taskResult (msgObj.get? "contractAddress") =
        (effects, .ok (verifyError, isVerified)) ∧
      (∀ effect ∈ effects, effect ∈ execute env msgObj) ∧
      (isVerified = true ∨ isEthereumFailure verifyError = true) ∧
      taskToStore env (msgObj.get? "type") resultObj (isEthereumFailure verifyError) =
        .ok (some (task, record)) := by
  have noVerification : ∀ {taskResult contractAddress effects outcome},
      verifyResult env taskResult contractAddress = (effects, outcome) →
        Effect.stores task record ∉ effects := by
    intro taskResult contractAddress effects outcome ran
    unfold verifyResult verifyWithTip at ran
    (repeat' split at ran) <;> cases ran <;> simp
  unfold execute at stores
  simp only at stores
  split at stores
  · simp at stores
  · rename_i resultObj logged
    split at stores
    · simp at stores
    · simp at stores
    · rename_i taskResult built
      split at stores
      · rename_i ran
        simp [noVerification ran] at stores
      · rename_i effects verifyError isVerified ran
        rcases List.mem_append.mp stores with early | late
        · exact absurd early (noVerification ran)
        · obtain ⟨decided, stored⟩ := of_stores_afterVerification late
          refine ⟨resultObj, taskResult, effects, verifyError, isVerified, logged, built, ran,
            ?_, decided, stored⟩
          intro effect member
          unfold execute
          simp only [logged, built, ran]
          exact List.mem_append_left _ member

/-- A verdict that leads to storing. -/
theorem of_takeVerdict {answer : Except Exn Verdict}
    (taken : takeVerdict taskResult answer = .ok (verifyError, isVerified))
    (decided : isVerified = true ∨ isEthereumFailure verifyError = true) :
    canLog taskResult = true ∧
      (isVerified = true ∧ verifyError = none ∧ Accepts answer ∨
        isVerified = false ∧ FailsInEthereum answer) := by
  cases answer with
  | error exn =>
      unfold takeVerdict at taken
      simp only at taken
      split at taken
      · cases taken
        rcases decided with verified | failure
        · cases verified
        · cases failure
      · cases taken
  | ok verdict =>
      cases isError : verdict.error with
      | some err =>
          simp only [takeVerdict, isError] at taken
          split at taken
          · rename_i logs
            cases taken
            rcases decided with verified | failure
            · cases verified
            · exact ⟨logs, .inr ⟨rfl, verdict, err, rfl, isError, of_decide_eq_true failure⟩⟩
          · cases taken
      | none =>
          simp only [takeVerdict, isError] at taken
          split at taken
          · rename_i verified
            split at taken
            · rename_i logs
              cases taken
              exact ⟨logs, .inl ⟨rfl, rfl, verdict, rfl, isError, verified⟩⟩
            · cases taken
          · cases taken
            rcases decided with verified | failure
            · cases verified
            · cases failure

/-- The address of a tip that is read equals the contract address. -/
private theorem of_readTip {tips localTip : Json}
    (read : readTip tips contractAddress = .ok (.ok localTip)) :
    truthy? contractAddress = true ∧ strictEquals contractAddress contractAddress = true := by
  have noText : (keyOf contractAddress).map (fun address => (.error
      ("[VERIFY_TASK_RESULT] error in reading " ++ address ++ " local tip") : Except String Json)) ≠
        .ok (.ok localTip) := by
    cases keyOf contractAddress <;> nofun
  unfold readTip at read
  simp only at read
  split at read
  · cases read
  · split at read
    · rename_i tip _ _ same
      obtain ⟨truthy, equal⟩ := Bool.and_eq_true_iff.mp same
      have address : tip.get? "address" = contractAddress := by
        unfold strictEquals at equal
        split at equal
        · cases equal
        · cases equal
        · exact of_decide_eq_true equal
      exact ⟨address ▸ truthy, address ▸ equal⟩
    · exact absurd read noText
  · exact absurd read noText

/-- A verification that leads to storing had a result, and an answer that accepts it or
reports the failure of the callback. -/
theorem of_verifyResult {effects : List Effect} (ethereum : env.hasEthereum = true)
    (ran : verifyResult env taskResult contractAddress = (effects, .ok (verifyError, isVerified)))
    (decided : isVerified = true ∨ isEthereumFailure verifyError = true) :
    ∃ result localTip, taskResult = some result ∧ canLog (some result) = true ∧
      .verifies (some result) contractAddress localTip ∈ effects ∧
      (needsTip taskResult = true →
        truthy? contractAddress = true ∧ strictEquals contractAddress contractAddress = true) ∧
      (isVerified = true ∧ verifyError = none ∧ Accepts env.verifyTaskSubmission ∨
        isVerified = false ∧ FailsInEthereum env.verifyTaskSubmission) := by
  have withTip : ∀ {localTip}, verifyWithTip env taskResult contractAddress localTip =
      (effects, .ok (verifyError, isVerified)) →
      ∃ result, taskResult = some result ∧ canLog (some result) = true ∧
        .verifies (some result) contractAddress localTip ∈ effects ∧
        (isVerified = true ∧ verifyError = none ∧ Accepts env.verifyTaskSubmission ∨
          isVerified = false ∧ FailsInEthereum env.verifyTaskSubmission) := by
    intro localTip ran
    unfold verifyWithTip at ran
    split at ran
    · obtain ⟨-, taken⟩ := Prod.mk.inj ran
      obtain ⟨-, ⟨-, -, verdict, same, -⟩ | ⟨-, verdict, err, same, -⟩⟩ :=
        of_takeVerdict taken decided
      · cases same
      · cases same
    · obtain ⟨rfl, taken⟩ := Prod.mk.inj ran
      obtain ⟨logs, verdict⟩ := of_takeVerdict taken decided
      cases taskResult with
      | none => cases logs
      | some result => exact ⟨result, rfl, logs, List.mem_singleton.mpr rfl, verdict⟩
  have noError : ∀ {fault : Fault}, isEthereumFailure (some fault) = false →
      (([] : List Effect), (.ok (some fault, false) : Except Exn (Option Fault × Bool))) ≠
        (effects, .ok (verifyError, isVerified)) := by
    rintro fault harmless ⟨rfl, rfl, rfl⟩
    rcases decided with verified | failure
    · cases verified
    · rw [harmless] at failure
      cases failure
  rw [verifyResult, if_pos ethereum] at ran
  split at ran
  · split at ran
    · exact absurd ran (noError rfl)
    · exact absurd ran (noError rfl)
    · rename_i localTip read
      obtain ⟨tips, -, read⟩ := bind_eq_ok.mp read
      obtain ⟨result, isSome, logs, verifies, verdict⟩ := withTip ran
      exact ⟨result, some localTip, isSome, logs, verifies, fun _ => of_readTip read, verdict⟩
  · rename_i noTip
    obtain ⟨result, isSome, logs, verifies, verdict⟩ := withTip ran
    exact ⟨result, none, isSome, logs, verifies, fun needs => absurd needs noTip, verdict⟩

/-- The result of an object is built from its fields. -/
private theorem buildTaskResult_obj {parse : String → Except Exn Json}
    {fields : List (String × Json)} {result : Result} :
    buildTaskResult parse type (.obj fields) = .ok (.ok (some result)) ↔
      ∃ cls, verifiedClass type fields = some cls ∧ HasExpected cls fields ∧
        result = Result.ofFields cls fields := by
  have built : ∀ cls, (buildResult parse cls (some (.obj fields))).map .ok =
      (.ok (.ok (some result)) : Except Exn (Except String (Option Result))) ↔
        HasExpected cls fields ∧ result = Result.ofFields cls fields := by
    intro cls
    rw [buildResult_obj]
    by_cases has : HasExpected cls fields
    · rw [if_pos has]
      exact ⟨fun same => by cases same; exact ⟨has, rfl⟩, fun both => by rw [both.2]; rfl⟩
    · rw [if_neg has]
      exact iff_of_false nofun (fun both => has both.1)
  unfold buildTaskResult verifiedClass
  rw [Json.get?_obj]
  by_cases failed : fields.lookup "status" = some (.str TaskStatus.failed)
  · rw [if_pos failed, if_pos failed]
    refine (built .failed).trans ?_
    simp
  rw [if_neg failed, if_neg failed]
  by_cases deploy : type = some (.str CoreRequests.deploySecretContract)
  · rw [if_pos deploy, if_pos deploy]
    refine (built .deploy).trans ?_
    simp
  rw [if_neg deploy, if_neg deploy]
  by_cases compute : type = some (.str CoreRequests.computeTask)
  · rw [if_pos compute, if_pos compute]
    refine (built .compute).trans ?_
    simp
  · rw [if_neg compute, if_neg compute]
    refine iff_of_false ?_ nofun
    intro same
    obtain ⟨text, -, same⟩ := bind_eq_ok.mp same
    cases same

private theorem of_logReceived {fields : List (String × Json)} {logged : Json}
    (isObj : logReceived (some (.obj fields)) = .ok logged) :
    logged = .obj fields ∧ ∃ text, keyOf (fields.lookup "status") = .ok text := by
  obtain ⟨_, -, rest⟩ := bind_eq_ok.mp isObj
  obtain ⟨text, status, same⟩ := bind_eq_ok.mp rest
  cases same
  exact ⟨rfl, text, status⟩

/-- The task that is stored comes from the fields of an object. -/
theorem of_taskToStore {ethereumFailure : Bool}
    (stored : taskToStore env type resultObj ethereumFailure = .ok (some (task, record))) :
    ∃ fields cls taskId, resultObj = .obj fields ∧ Storable type fields cls taskId ∧
      task.result = some (if ethereumFailure then { storedResult cls fields with status := none }
        else storedResult cls fields) ∧ task.toDbJson = .ok record := by
  obtain ⟨built, isBuilt, stored⟩ := bind_eq_ok.mp stored
  cases built with
  | none => cases stored
  | some built =>
      obtain ⟨changed, isChanged, stored⟩ := bind_eq_ok.mp stored
      obtain ⟨written, isWritten, stored⟩ := bind_eq_ok.mp stored
      split at stored
      · cases stored
      · rename_i taskId isId
        obtain ⟨-, -, same⟩ := bind_eq_ok.mp stored
        cases same
        cases hasResult : built.result with
        | none =>
            cases ethereumFailure with
            | true => simp [OutsideTask.setResultStatus, hasResult] at isChanged
            | false =>
                cases isChanged
                simp [OutsideTask.toDbJson, hasResult] at isWritten
        | some result =>
            have isId' : built.taskId = some taskId := by
              cases ethereumFailure with
              | true =>
                  simp only [if_true, OutsideTask.setResultStatus, hasResult] at isChanged
                  cases isChanged
                  exact isId
              | false =>
                  cases isChanged
                  exact isId
            obtain ⟨cls, fields, isObj, storable, rfl⟩ :=
              storable_of_buildOutsideTask isBuilt isId' hasResult
            cases isObj
            refine ⟨fields, cls, taskId, rfl, storable, ?_, isWritten⟩
            cases ethereumFailure with
            | true =>
                simp only [if_true, OutsideTask.setResultStatus, hasResult] at isChanged
                cases isChanged
                rfl
            | false =>
                cases isChanged
                exact hasResult

/-- With the status of its type, a result is stored as it was verified. -/
private theorem sameResult_of_statusOfType {fields : List (String × Json)}
    {verified stored : ResultClass} {taskId : String}
    (isVerified : verifiedClass type fields = some verified)
    (storable : Storable type fields stored taskId) (status : StatusOfType type fields) :
    SameResult (storedResult stored fields) (Result.ofFields verified fields) := by
  obtain ⟨cls, isClass, isStatus⟩ := status
  rw [storable.isClass] at isClass
  cases isClass
  have same : verified = stored := by
    have byType := storable.isClass
    unfold verifiedClass at isVerified
    unfold rawClass at byType
    rw [isStatus] at isVerified
    cases stored with
    | failed =>
        rw [if_pos (show some (Json.str ResultClass.failed.rawStatus) =
          some (Json.str TaskStatus.failed) from rfl)] at isVerified
        cases isVerified
        rfl
    | compute =>
        rw [if_neg (by decide)] at isVerified
        split at byType
        · cases byType
        · split at byType
          · cases byType
          · rename_i notDeploy
            rw [if_neg notDeploy] at isVerified
            split at isVerified
            · cases isVerified
              rfl
            · cases isVerified
    | deploy =>
        rw [if_neg (by decide)] at isVerified
        split at byType
        · cases byType
        · split at byType
          · rename_i isDeploy
            rw [if_pos isDeploy] at isVerified
            cases isVerified
            rfl
          · split at byType <;> cases byType
  subst same
  refine ⟨rfl, ?_, rfl, rfl⟩
  cases verified with
  | failed => rfl
  | compute => exact isStatus.symm
  | deploy => exact isStatus.symm

/-- A stored record comes from a message that was submitted and is storable, after an answer
that accepts its result or reports the failure of its callback. -/
private theorem of_stores_execute {msgObj : Json} (ethereum : env.hasEthereum = true)
    (stores : .stores task record ∈ execute env msgObj) :
    ∃ fields verified stored taskId localTip, msgObj.get? "result" = some (.obj fields) ∧
      Submitted (msgObj.get? "type") (msgObj.get? "contractAddress") fields verified ∧
      Storable (msgObj.get? "type") fields stored taskId ∧
      .verifies (some (Result.ofFields verified fields)) (msgObj.get? "contractAddress") localTip ∈
        execute env msgObj ∧
      task.toDbJson = .ok record ∧
      (Accepts env.verifyTaskSubmission ∧ task.result = some (storedResult stored fields) ∨
        FailsInEthereum env.verifyTaskSubmission ∧
          task.result = some { storedResult stored fields with status := none }) := by
  obtain ⟨resultObj, taskResult, effects, verifyError, isVerified, logged, built, ran, effects',
    decided, stored⟩ := of_stores stores
  obtain ⟨fields, cls, taskId, rfl, storable, isStored, written⟩ := of_taskToStore stored
  obtain ⟨result, localTip, rfl, -, verifies, tip, outcome⟩ := of_verifyResult ethereum ran decided
  obtain ⟨verified, isVerifiedClass, has, rfl⟩ := buildTaskResult_obj.mp built
  have isObj : msgObj.get? "result" = some (.obj fields) := by
    unfold logReceived at logged
    split at logged
    · cases logged
    · cases logged
    · rename_i resultObj _ isSome
      obtain ⟨_, -, rest⟩ := bind_eq_ok.mp logged
      obtain ⟨_, -, same⟩ := bind_eq_ok.mp rest
      cases same
      exact isSome
  rw [isObj] at logged
  obtain ⟨-, logs⟩ := of_logReceived logged
  refine ⟨fields, verified, cls, taskId, localTip, isObj, ⟨isVerifiedClass, has, logs, tip⟩,
    storable, effects' _ verifies, written, ?_⟩
  rcases outcome with ⟨-, rfl, accepts⟩ | ⟨rfl, failure⟩
  · exact .inl ⟨accepts, isStored⟩
  · rcases decided with verified | decided
    · cases verified
    · rw [decided] at isStored
      exact .inr ⟨failure, isStored⟩

/-- A message that stores well stores what was verified. -/
private theorem storedRight_of_storesWell {msgObj : Json} (ethereum : env.hasEthereum = true)
    (well : StoresWell msgObj env.verifyTaskSubmission) :
    StoredRight env (execute env msgObj) := by
  intro task record stores
  obtain ⟨fields, verified, stored, taskId, localTip, isObj, submitted, storable, verifies, -,
    outcome⟩ := of_stores_execute ethereum stores
  obtain ⟨statusOfType, noFailure⟩ := well fields verified stored taskId isObj submitted storable
  rcases outcome with ⟨accepts, isStored⟩ | ⟨failure, -⟩
  · refine .inl ⟨accepts, _, _, _, _, verifies, isStored, ?_⟩
    exact sameResult_of_statusOfType submitted.isClass storable (statusOfType accepts)
  · exact absurd failure noFailure

/-- The only result that is verified is the one that `_buildTaskResult` builds. -/
private theorem of_verifies {msgObj : Json} {fields : List (String × Json)}
    (isObj : msgObj.get? "result" = some (.obj fields)) {result : Result} {localTip : Option Json}
    (verifies : .verifies (some result) contractAddress localTip ∈ execute env msgObj) :
    ∃ cls, verifiedClass (msgObj.get? "type") fields = some cls ∧
      result = Result.ofFields cls fields := by
  have later : ∀ {type contractAddress' resultObj taskResult verifyError isVerified},
      Effect.verifies (some result) contractAddress localTip ∉ afterVerification env type
        contractAddress' resultObj taskResult verifyError isVerified := by
    intro type contractAddress' resultObj taskResult verifyError isVerified
    have storing : ∀ error, Effect.verifies (some result) contractAddress localTip ∉
        storeAndCall env type resultObj verifyError isVerified error := by
      intro error
      unfold storeAndCall
      (repeat' split) <;> simp
    have announced : Effect.verifies (some result) contractAddress localTip ∉
        (announceContract env type resultObj verifyError).1 := by
      unfold announceContract
      (repeat' split) <;> simp
    unfold afterVerification
    (repeat' split) <;> simp_all
  have verifying : ∀ {taskResult contractAddress' effects outcome},
      verifyResult env taskResult contractAddress' = (effects, outcome) →
        Effect.verifies (some result) contractAddress localTip ∈ effects →
          taskResult = some result := by
    intro taskResult contractAddress' effects outcome ran member
    unfold verifyResult verifyWithTip at ran
    (repeat' split at ran) <;> cases ran <;> simp_all
  unfold execute at verifies
  simp only [isObj] at verifies
  split at verifies
  · simp at verifies
  · rename_i resultObj logged
    obtain ⟨rfl, -⟩ := of_logReceived logged
    split at verifies
    · simp at verifies
    · simp at verifies
    · rename_i taskResult built
      have isResult : taskResult = some result := by
        split at verifies
        · rename_i ran
          rcases List.mem_append.mp verifies with member | other
          · exact verifying ran member
          · simp at other
        · rename_i ran
          rcases List.mem_append.mp verifies with member | other
          · exact verifying ran member
          · exact absurd other later
      subst isResult
      obtain ⟨cls, isClass, -, rfl⟩ := buildTaskResult_obj.mp built
      exact ⟨cls, isClass, rfl⟩

end

/-! ## From the message to a stored record -/

/-- Answers with which a message goes as far as it can. -/
def openEnv (contractAddress : Option Json) (answer : Except Exn Verdict) : Env where
  parse := fun _ => .error .error
  hasEthereum := true
  getTips := .ok (.arr [definedFields [("address", contractAddress)]])
  getEthereumBlockNumber := .ok 0
  verifyTaskSubmission := answer
  updateDb := .ok ()
  createFromSCAddress := false
  announce := .ok ()
  put := .ok ()

section

variable {type contractAddress : Option Json} {fields : List (String × Json)}
  {verified stored : ResultClass} {taskId : String} {answer : Except Exn Verdict}

private theorem verifyResult_openEnv (answer : Except Exn Verdict)
    (submitted : Submitted type contractAddress fields verified) :
    ∃ localTip, verifyResult (openEnv contractAddress answer)
        (some (Result.ofFields verified fields)) contractAddress =
      ([.verifies (some (Result.ofFields verified fields)) contractAddress localTip],
        takeVerdict (some (Result.ofFields verified fields)) answer) := by
  have ethereum : (openEnv contractAddress answer).hasEthereum = true := rfl
  rw [verifyResult, if_pos ethereum]
  by_cases needs : needsTip (some (Result.ofFields verified fields)) = true
  · obtain ⟨truthy, equal⟩ := submitted.tip needs
    cases contractAddress with
    | none => cases truthy
    | some address =>
        have own : (definedFields [("address", some address)]).get? "address" = some address := rfl
        have read : (openEnv (some address) answer).getTips.bind (readTip · (some address)) =
            .ok (.ok (definedFields [("address", some address)])) := by
          change (if _ then _ else _) = _
          rw [if_pos (by rw [own, truthy, equal]; rfl)]
        refine ⟨some (definedFields [("address", some address)]), ?_⟩
        rw [if_pos needs, read]
        rfl
  · refine ⟨none, ?_⟩
    rw [if_neg needs]
    rfl

private theorem taskToStore_openEnv (contractAddress : Option Json)
    (answer : Except Exn Verdict) (storable : Storable type fields stored taskId)
    (ethereumFailure : Bool) :
    ∃ task record, taskToStore (openEnv contractAddress answer) type (.obj fields)
        ethereumFailure = .ok (some (task, record)) := by
  obtain ⟨task, built, isId, isResult⟩ : ∃ task,
      buildOutsideTask (fun _ => .error .error) type (some (.obj fields)) = .ok (some task) ∧
      task.taskId = some taskId ∧ task.result = some (storedResult stored fields) :=
    storable.buildOutsideTask
  cases ethereumFailure with
  | false =>
      simp [taskToStore, built, isId, isResult, OutsideTask.toDbJson, openEnv, bind, Except.bind,
        pure, Except.pure]
  | true =>
      simp [taskToStore, built, isId, isResult, OutsideTask.setResultStatus,
        OutsideTask.toDbJson, openEnv, bind, Except.bind, pure, Except.pure]

private theorem stores_afterVerification {result : Result} {task : OutsideTask} {record : Json}
    {verifyError : Option Fault} {isVerified : Bool}
    (decided : isVerified = true ∨ isEthereumFailure verifyError = true)
    (stored : taskToStore (openEnv contractAddress answer) type (.obj fields)
      (isEthereumFailure verifyError) = .ok (some (task, record))) :
    .stores task record ∈ afterVerification (openEnv contractAddress answer) type contractAddress
      (.obj fields) (some result) verifyError isVerified := by
  have storing : ∀ error, .stores task record ∈ storeAndCall (openEnv contractAddress answer) type
      (.obj fields) verifyError isVerified error := by
    intro error
    rw [storeAndCall, if_pos (by simpa using decided), stored]
    exact List.mem_cons_self
  have announced : announceContract (openEnv contractAddress answer) type (.obj fields)
      verifyError = ([], verifyError) := by
    rw [announceContract, if_neg (fun all => by cases all.2.2)]
  have updated : (openEnv contractAddress answer).updateDb = .ok () := rfl
  unfold afterVerification
  split
  · split
    · rename_i threw
      unfold buildIpcMsg at threw
      simp only at threw
      (repeat' split at threw) <;> cases threw
    · exact storing verifyError
    · simp only [updated, announced]
      exact List.mem_cons_of_mem _ (storing verifyError)
  · exact storing verifyError

/-- With these answers a submitted, storable message is stored. -/
private theorem execute_openEnv {msgObj : Json} (isObj : msgObj.get? "result" = some (.obj fields))
    (submitted : Submitted (msgObj.get? "type") (msgObj.get? "contractAddress") fields verified)
    (storable : Storable (msgObj.get? "type") fields stored taskId)
    (decided : Accepts answer ∨ FailsInEthereum answer) :
    ∃ task record, .stores task record ∈
      execute (openEnv (msgObj.get? "contractAddress") answer) msgObj := by
  obtain ⟨text, logs⟩ := submitted.logs
  have logged : logReceived (msgObj.get? "result") = .ok (.obj fields) := by
    rw [isObj]
    simp [logReceived, storable.isId, logs, bind, Except.bind, pure, Except.pure]
  have built : buildTaskResult (openEnv (msgObj.get? "contractAddress") answer).parse
      (msgObj.get? "type") (.obj fields) = .ok (.ok (some (Result.ofFields verified fields))) :=
    buildTaskResult_obj.mpr ⟨verified, submitted.isClass, submitted.has, rfl⟩
  obtain ⟨localTip, ran⟩ := verifyResult_openEnv answer submitted
  have logsId : canLog (some (Result.ofFields verified fields)) = true := by
    have id : (Result.ofFields verified fields).taskId = some (.str taskId) := storable.isId
    simp [canLog, id, Except.isOk, Except.toBool]
  unfold execute
  simp only [logged, built, ran]
  rcases decided with ⟨verdict, rfl, noError, isVerified⟩ | ⟨verdict, err, rfl, isError, isFailure⟩
  · have taken : takeVerdict (some (Result.ofFields verified fields)) (.ok verdict) =
        .ok (none, true) := by
      simp [takeVerdict, noError, isVerified, logsId]
    obtain ⟨task, record, storing⟩ := taskToStore_openEnv (msgObj.get? "contractAddress")
      (.ok verdict) storable false
    refine ⟨task, record, ?_⟩
    rw [taken]
    exact List.mem_append_right _ (stores_afterVerification (.inl rfl) storing)
  · have taken : takeVerdict (some (Result.ofFields verified fields)) (.ok verdict) =
        .ok (some (.err err), false) := by
      simp [takeVerdict, isError, logsId]
    have failure : isEthereumFailure (some (.err err)) = true := decide_eq_true isFailure
    obtain ⟨task, record, storing⟩ := taskToStore_openEnv (msgObj.get? "contractAddress")
      (.ok verdict) storable true
    refine ⟨task, record, ?_⟩
    rw [taken]
    exact List.mem_append_right _
      (stores_afterVerification (.inr failure) (by rw [failure]; exact storing))

end

/-- The status of a result that is verified is the one of the message. -/
private theorem status_ofFields {type : Option Json} {fields : List (String × Json)}
    {cls : ResultClass} (isClass : verifiedClass type fields = some cls) :
    (Result.ofFields cls fields).status = fields.lookup "status" := by
  cases cls with
  | failed =>
      unfold verifiedClass at isClass
      split at isClass
      · rename_i failed
        exact failed.symm
      · (repeat' split at isClass) <;> cases isClass
  | compute => rfl
  | deploy => rfl

/-- The message is stored as it was verified, whatever the rest of the node answers, exactly
if it stores well. -/
theorem storedRight_iff (msgObj : Json) (answer : Except Exn Verdict) :
    (∀ env : Env, env.hasEthereum = true → env.verifyTaskSubmission = answer →
      StoredRight env (execute env msgObj)) ↔ StoresWell msgObj answer := by
  constructor
  · intro right fields verified stored taskId isObj submitted storable
    have rightOpen := right (openEnv (msgObj.get? "contractAddress") answer) rfl rfl
    have exclusive : Accepts answer → ¬ FailsInEthereum answer := by
      rintro ⟨verdict, rfl, noError, -⟩ ⟨_, err, ⟨rfl⟩, isError, -⟩
      rw [noError] at isError
      cases isError
    constructor
    · intro accepts
      obtain ⟨task, record, stores⟩ := execute_openEnv isObj submitted storable (.inl accepts)
      obtain ⟨fields', _, cls, _, _, isObj', -, storable', -, -, outcome⟩ :=
        @of_stores_execute (openEnv (msgObj.get? "contractAddress") answer) task record msgObj rfl
          stores
      rw [isObj] at isObj'
      cases isObj'
      rcases outcome with ⟨-, isStored⟩ | ⟨failure, -⟩
      · rcases rightOpen task record stores with
          ⟨-, result, _, _, storedResult', verifies, isStored', same⟩ | ⟨notAccepted, -⟩
        · obtain ⟨verified', isClass, rfl⟩ := of_verifies isObj verifies
          rw [isStored] at isStored'
          cases isStored'
          exact ⟨cls, storable'.isClass, (status_ofFields isClass).symm.trans same.status.symm⟩
        · exact absurd accepts notAccepted
      · exact absurd failure (exclusive accepts)
    · intro failure
      obtain ⟨task, record, stores⟩ := execute_openEnv isObj submitted storable (.inr failure)
      obtain ⟨_, _, _, _, _, -, -, -, -, written, outcome⟩ :=
        @of_stores_execute (openEnv (msgObj.get? "contractAddress") answer) task record msgObj rfl
          stores
      rcases outcome with ⟨accepts, -⟩ | ⟨-, isStored⟩
      · exact exclusive accepts failure
      · rcases rightOpen task record stores with ⟨accepts, -⟩ | ⟨-, loaded, result, loads, -⟩
        · exact exclusive accepts failure
        · rw [fromDbJson_of_no_status isStored rfl written] at loads
          cases loads
  · rintro well env ethereum rfl
    exact storedRight_of_storesWell ethereum well

/-! ## A computation with a status -/

/-- The fields of a computation's result. -/
def computeFields (status : String) : List (String × Json) :=
  [("taskId", .str "0a1b"), ("status", .str status), ("output", .str "0c"),
    ("delta", .obj [("key", .num 1), ("data", .str "0d")]), ("usedGas", .num 21000),
    ("ethereumPayload", .str ""), ("ethereumAddress", .str ""), ("signature", .str "0e")]

/-- The message that publishes it. -/
def computeMessage (status : String) : Json :=
  .obj [("type", .str CoreRequests.computeTask), ("contractAddress", .str "0f"),
    ("result", .obj (computeFields status))]

private theorem computeMessage_storable (status : String) :
    Storable (some (.str CoreRequests.computeTask)) (computeFields status) .compute "0a1b" where
  isClass := by decide
  has := by simp [HasExpectedButStatus, ResultClass.expected, hasProperty, computeFields]
  isId := rfl
  noPrefix := by decide

/-- A failed result is verified as such and stored as a successful computation; a result
whose callback failed is stored as a record that loads as `null`. -/
theorem stores_other_result :
    ¬ StoredRight (openEnv (some (.str "0f")) (.ok .accepted))
        (execute (openEnv (some (.str "0f")) (.ok .accepted)) (computeMessage "FAILED")) ∧
    ¬ StoredRight (openEnv (some (.str "0f"))
          (.ok ⟨false, some ⟨.taskEthereumFailureErr, ""⟩⟩))
        (execute (openEnv (some (.str "0f"))
          (.ok ⟨false, some ⟨.taskEthereumFailureErr, ""⟩⟩)) (computeMessage "SUCCESS")) := by
  constructor
  · intro right
    have submitted : Submitted (some (.str CoreRequests.computeTask)) (some (.str "0f"))
        (computeFields "FAILED") .failed :=
      ⟨by decide, by decide, ⟨"FAILED", Json.toKey_str _⟩, fun needs => by cases needs⟩
    obtain ⟨task, record, stores⟩ : ∃ task record, .stores task record ∈
        execute (openEnv (some (.str "0f")) (.ok .accepted)) (computeMessage "FAILED") :=
      @execute_openEnv _ _ _ _ _ (computeMessage "FAILED") rfl submitted
        (computeMessage_storable "FAILED") (.inl ⟨_, rfl, rfl, rfl⟩)
    obtain ⟨_, _, cls, _, _, ⟨rfl⟩, -, storable, -, -, ⟨-, isStored⟩ | ⟨failure, -⟩⟩ :=
      of_stores_execute rfl stores
    · rcases right task record stores with
        ⟨-, result, _, _, stored, verifies, isStored', same⟩ | ⟨notAccepted, -⟩
      · obtain ⟨verified, isClass, rfl⟩ := of_verifies rfl verifies
        have failed : verified = .failed :=
          Option.some.inj (isClass.symm.trans submitted.isClass)
        have compute : cls = .compute :=
          Option.some.inj (storable.isClass.symm.trans (computeMessage_storable "FAILED").isClass)
        rw [isStored] at isStored'
        cases isStored'
        subst failed compute
        cases same.cls
      · exact notAccepted ⟨_, rfl, rfl, rfl⟩
    · obtain ⟨_, _, ⟨rfl⟩, isError, -⟩ := failure
      cases isError
  · intro right
    have submitted : Submitted (some (.str CoreRequests.computeTask)) (some (.str "0f"))
        (computeFields "SUCCESS") .compute :=
      ⟨by decide, by decide, ⟨"SUCCESS", Json.toKey_str _⟩, fun needs => by revert needs; decide⟩
    obtain ⟨task, record, stores⟩ :=
      @execute_openEnv _ _ _ _ _ (computeMessage "SUCCESS") rfl submitted
        (computeMessage_storable "SUCCESS")
        (.inr ⟨⟨false, some ⟨.taskEthereumFailureErr, ""⟩⟩, _, rfl, rfl, rfl⟩)
    obtain ⟨_, _, _, _, _, -, -, -, -, written, ⟨accepts, -⟩ | ⟨-, isStored⟩⟩ :=
      of_stores_execute rfl stores
    · obtain ⟨_, ⟨rfl⟩, isError, -⟩ := accepts
      cases isError
    · rcases right task record stores with
        ⟨⟨_, ⟨rfl⟩, isError, -⟩, -⟩ | ⟨-, loaded, result, loads, -⟩
      · cases isError
      · rw [fromDbJson_of_no_status isStored rfl written] at loads
        cases loads

end Tasks
