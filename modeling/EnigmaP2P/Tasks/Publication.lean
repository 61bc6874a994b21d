import EnigmaP2P.Common.EngCID
import EnigmaP2P.Ethereum.CommitReceipt
import EnigmaP2P.Tasks.OrderlyEnd
import EnigmaP2P.Tasks.Reads

/-!
# From the core to the other workers

`ExecuteTaskAction` hands a verified task to the core and builds a result from the answer.
The finished task comes back from the manager, and `PublishTaskResultAction` puts it on the
task-results topic, commits it and announces a deployed contract. On the other side of the
topic is `VerifyAndStoreResultAction`.

The class of a result is that of the answer, and the type of the message is that of the
task, so a receiver builds what was published only if the two agree. A failed result is
published under a type of its own.
-/

namespace Tasks

open Js Common Ethereum

/-! ## Execution -/

/-- `toCoreJson()` of both classes. -/
def Task.toCoreJson (task : Task) : Json :=
  let fields := task.fields
  let preCode := match task with
    | .deploy _ preCode => [("preCode", preCode)]
    | .compute _ => []
  definedFields (preCode ++ [("encryptedArgs", fields.encryptedArgs),
    ("encryptedFn", fields.encryptedFn), ("userDHKey", fields.userDHKey),
    ("gasLimit", fields.gasLimit),
    ("contractAddress", some (fields.contractAddr.elim .null .str))])

/-- `getTaskType()` of both classes. -/
def Task.getTaskType : Task → String
  | .deploy .. => CoreRequests.deploySecretContract
  | .compute _ => CoreRequests.computeTask

/-- The class that a successful result of the task has. -/
def Task.resultClass : Task → ResultClass
  | .deploy .. => .deploy
  | .compute _ => .compute

/-- `getTaskId()` as a value. -/
def Task.idJson (task : Task) : Json :=
  task.getTaskId.elim .null .str

/-- What the rest of the node answers to one execution. -/
structure ExecuteEnv where
  /-- `JSON.parse`, of a result that is a text. -/
  parse : String → Except Exn Json
  getStateKeys : Except Exn Unit
  /-- The content of the envelope that the core answers with. -/
  sendAndReceive : Except Exn Json

inductive ExecuteEffect where
  | getsStateKeys (address blockNumber : Option Json)
  | sendsToCore (type : String) (input : Json)
  /-- The call of `asyncOnFinishTask`. -/
  | finishes (result : Result)
  | throws (exn : Exn)

/-- `response.result.taskId = …` for a truthy result: primitives throw, and an array keeps its
items. -/
def assignTaskId (taskId : Json) (result : Option Json) : Except Exn (Option Json) :=
  if truthy? result then
    match result with
    | some (.obj fields) => .ok (some (.obj (setField "taskId" taskId fields)))
    | some (.arr items) => .ok (some (.arr items))
    | _ => .error .typeError
  else .ok result

/-- The result that is built from the answer. The `switch` is that of `buildFromRaw`, except
that the log line of a computation reads the delta of `null`. -/
def receivedResult (parse : String → Except Exn Json) (task : Task) (response : Json) :
    Except Exn (Option Result) := do
  let rawResult ← assignTaskId task.idJson (response.get? "result")
  let result ← buildFromRaw parse (response.get? "type") rawResult
  if response.get? "type" = some (.str CoreRequests.computeTask) ∧ result = none then
    .error .typeError
  else pure result

/-- The action from the answer of the core on. -/
def onCoreResponse (parse : String → Except Exn Json) (task : Task) (response : Json) :
    List ExecuteEffect :=
  if response = .null then [.throws .typeError]
  else if truthy? (response.get? "msg") then []
  else
    match receivedResult parse task response with
    | .error exn => [.throws exn]
    | .ok none => []
    | .ok (some result) => [.finishes result]

/-- The action from the request to the core on. -/
def sendTask (env : ExecuteEnv) (task : Task) : List ExecuteEffect :=
  .sendsToCore task.getTaskType task.toCoreJson ::
    match env.sendAndReceive with
    | .error _ => []
    | .ok response => onCoreResponse env.parse task response

/-- `ExecuteTaskAction.execute`. -/
def executeTask (env : ExecuteEnv) (task : Task) : List ExecuteEffect :=
  match task with
  | .compute _ => sendTask env task
  | .deploy fields _ =>
      .getsStateKeys (some (fields.contractAddr.elim .null .str)) fields.blockNumber ::
        match env.getStateKeys with
        | .error _ => []
        | .ok _ => sendTask env task

/-! ## Publication -/

namespace StoredTask

def getTaskType : StoredTask → Option Json
  | .own task => some (.str task.task.getTaskType)
  | .outside task => task.type

/-- `getContractAddr()`; a result from elsewhere has no contract. -/
def getContractAddr : StoredTask → Option String
  | .own task => task.task.fields.contractAddr
  | .outside _ => none

def getResult : StoredTask → Option Result
  | .own task => task.result
  | .outside task => task.result

def isSuccess (task : StoredTask) : Bool :=
  task.getStatus = .str TaskStatus.success

def isDeployTask : StoredTask → Bool
  | .own task => task.task.resultClass = .deploy
  | .outside _ => false

end StoredTask

/-- The message on the topic. -/
def publishedMessage (task : StoredTask) (result : Result) : Json :=
  let taskType :=
    if task.isSuccess then task.getTaskType else some (.str CoreRequests.failedTask)
  definedFields [("contractAddress", some (task.getContractAddr.elim .null .str)),
    ("result", some result.toDbJson), ("type", taskType)]

/-- `EngCID.createFromSCAddress`, without the address that the id keeps. -/
def createFromSCAddress (packages : CidPackages) (scAddr : Option String) : Option EngCID :=
  (CIDUtil.createCID packages scAddr).map EngCID.mk

structure PublishEnv where
  hasEthereum : Bool
  /-- How the action of the commit settles. -/
  commitReceipt : Except Exn (Option CommitError)
  packages : CidPackages

inductive PublishEffect where
  | publishes (message : Json)
  | commits (task : StoredTask)
  | announces (engCid : EngCID)
  | throws (exn : Exn)

/-- The announcement. A failure of the network is only logged. -/
def announceDeployed (env : PublishEnv) (task : StoredTask) (result : Result)
    (err : Option CommitError) : List PublishEffect :=
  if task.isDeployTask ∧ result.isSuccess = true ∧ err = none then
    match createFromSCAddress env.packages task.getContractAddr with
    | some ecid => [.announces ecid]
    | none => []
  else []

/-- `PublishTaskResultAction.execute`. The message of a task without a result throws. -/
def publishTaskResult (env : PublishEnv) (task : StoredTask) : List PublishEffect :=
  match task.getResult with
  | none => [.throws .typeError]
  | some result =>
      .publishes (publishedMessage task result) ::
        if env.hasEthereum then
          .commits task :: match env.commitReceipt with
            | .error exn => [.throws exn]
            | .ok err => announceDeployed env task result err
        else announceDeployed env task result none

/-! ## What should arrive -/

/-- The task as the manager finishes it with a result. -/
def finishedTask (task : Task) (result : Result) : OwnTask :=
  OwnTask.setResult ⟨task, .str TaskStatus.inProgress, none⟩ (some result)

/-- A receiver that accepts the result, if it verifies at all, and whose core and database
take what they are given. -/
structure Receives (env : Env) (task : Task) (result : Result) : Prop where
  verdict : env.hasEthereum = true → Accepts env.verifyTaskSubmission ∧
    ∃ blockNumber, env.getEthereumBlockNumber = .ok blockNumber
  tip : env.hasEthereum = true → needsTip (some result) = true → ∃ localTip,
    env.getTips.bind (readTip · (some (task.fields.contractAddr.elim .null .str))) =
      .ok (.ok localTip)
  updateDb : env.updateDb = .ok ()
  put : env.put = .ok ()

/-- A receiver stores the result, and the record loads as what was stored. -/
def StoresResult (env : Env) (result : Result) (effects : List Effect) : Prop :=
  ∃ stored record, .stores stored record ∈ effects ∧ stored.result = some result ∧
    deserializeTask env.parse record = .ok (some (.outside stored))

/-- The class of the answer is one that the type of the message stands for. -/
def Agrees (task : Task) (result : Result) : Prop :=
  result.cls = .failed ∨ result.cls = task.resultClass

/-- Whatever a receiver verifies, hands to its core or stores is the published result. A
failure in Ethereum is stored without a status. -/
structure OnlyPublished (env : Env) (task : Task) (result : Result) (effects : List Effect) :
    Prop where
  verifies : ∀ verified contractAddress localTip,
    .verifies verified contractAddress localTip ∈ effects → verified = some result
  updatesDb : ∀ coreMsg, .updatesDb coreMsg ∈ effects →
    buildIpcMsg (some result) (some (task.fields.contractAddr.elim .null .str)) =
      .ok (some coreMsg)
  stores : ∀ stored record, .stores stored record ∈ effects →
    stored.result = some result ∨
    FailsInEthereum env.verifyTaskSubmission ∧ stored.result = some { result with status := none }

/-! ## The result and its message -/

section

variable {parse : String → Except Exn Json} {task : Task} {response : Json} {result : Result}

/-- The result of an execution is complete, has the id of the task, and the status of its
class. -/
theorem of_receivedResult (received : receivedResult parse task response = .ok (some result)) :
    Built result ∧ result.taskId = some task.idJson ∧
      result.status = some (.str result.cls.rawStatus) := by
  obtain ⟨rawResult, assigned, received⟩ := bind_eq_ok.mp received
  obtain ⟨built, isBuilt, received⟩ := bind_eq_ok.mp received
  obtain rfl : built = some result := by
    split at received
    · cases received
    · exact Except.ok.inj received
  obtain ⟨cls, fields, -, rfl, has, rfl⟩ := of_buildFromRaw isBuilt
  have hasId : fields.lookup "taskId" = some task.idJson := by
    unfold assignTaskId at assigned
    split at assigned
    · split at assigned
      · cases assigned
        exact lookup_setField_self _ _ _
      · cases assigned
      · cases assigned
    · rename_i falsy
      rw [Except.ok.inj assigned] at falsy
      exact absurd rfl falsy
  refine ⟨⟨setField "status" (.str cls.rawStatus) fields, ?_, ?_⟩, hasId, rfl⟩
  · exact (hasExpected_setField_status cls fields _).mpr has
  · exact (ofFields_setField_status cls fields).symm

theorem isSuccess_of_rawStatus (isStatus : result.status = some (.str result.cls.rawStatus)) :
    result.isSuccess = decide (result.cls ≠ .failed) := by
  rw [Result.isSuccess, isStatus]
  cases result.cls <;> rfl

/-- The result of an execution is attached to the task. -/
theorem finishedTask_eq (sameId : result.taskId = some task.idJson) :
    finishedTask task result = ⟨task, .str (if result.isSuccess then TaskStatus.success
      else TaskStatus.failed), some result⟩ :=
  if_pos sameId

/-- The type under which the result is published. -/
def publishedType (task : Task) (result : Result) : String :=
  if result.cls = .failed then CoreRequests.failedTask else task.getTaskType

/-- The message of a finished task. -/
theorem publishedMessage_finished (sameId : result.taskId = some task.idJson)
    (isStatus : result.status = some (.str result.cls.rawStatus)) :
    publishedMessage (.own (finishedTask task result)) result =
      .obj [("contractAddress", task.fields.contractAddr.elim .null .str),
        ("result", result.toDbJson), ("type", .str (publishedType task result))] := by
  rw [publishedMessage, finishedTask_eq sameId]
  simp only [StoredTask.isSuccess, StoredTask.getStatus, isSuccess_of_rawStatus isStatus,
    publishedType]
  by_cases isFailed : result.cls = .failed
  · simp [isFailed, definedFields, StoredTask.getContractAddr, TaskStatus.failed,
      TaskStatus.success]
  · simp [isFailed, definedFields, StoredTask.getContractAddr, StoredTask.getTaskType]

/-- The types name the class of the result exactly if the answer agrees with the task. -/
theorem rawClass_publishedType :
    rawClass (some (.str (publishedType task result))) = some result.cls ↔ Agrees task result := by
  unfold publishedType Agrees
  cases task <;> cases result.cls <;> simp only [Task.getTaskType, Task.resultClass] <;> decide

/-- If they agree, then the receiver builds the published result to verify it. -/
theorem buildTaskResult_published (agrees : Agrees task result) (built : Built result)
    (isStatus : result.status = some (.str result.cls.rawStatus)) :
    buildTaskResult parse (some (.str (publishedType task result))) result.toDbJson =
      .ok (.ok (some result)) := by
  have isClass : taskClass (some (.str (publishedType task result))) result.toDbJson =
      some result.cls := by
    unfold taskClass
    rw [toDbJson_status, isStatus]
    rcases agrees with isFailed | isClass
    · rw [isFailed]
      rfl
    · unfold publishedType
      rw [isClass]
      cases task <;> rfl
  rw [buildTaskResult_of_class isClass, ← buildResult_eq, built.buildResult]
  rfl

end

/-! ## The receiver -/

/-- The contract address in the message. -/
def publishedAddress (task : Task) : Option Json :=
  some (task.fields.contractAddr.elim .null .str)

section

variable {env : Env} {task : Task} {result : Result}

/-- The id of a task can be written in a log line. -/
theorem keyOf_idJson (task : Task) : ∃ id, keyOf (some task.idJson) = .ok id := by
  rw [Task.idJson]
  cases task.getTaskId with
  | none =>
      refine ⟨"null", ?_⟩
      simp only [keyOf_some, Option.elim_none, Json.toKey]
  | some id => exact ⟨id, Json.toKey_str id⟩

theorem toDbJson_taskId (result : Result) : result.toDbJson.get? "taskId" = result.taskId := by
  rw [Result.toDbJson]
  split <;> simp [get?_definedFields_cons, get?_definedFields_nil]

theorem canLog_published (sameId : result.taskId = some task.idJson) :
    canLog (some result) = true := by
  rw [canLog_some_iff, sameId]
  exact keyOf_idJson task

/-- What the receiver does with the message: its first log line and the building of the
result go through. -/
theorem execute_published (agrees : Agrees task result) (built : Built result)
    (sameId : result.taskId = some task.idJson)
    (isStatus : result.status = some (.str result.cls.rawStatus)) :
    execute env (publishedMessage (.own (finishedTask task result)) result) =
      (verifyResult env (some result) (publishedAddress task)).1 ++
        match (verifyResult env (some result) (publishedAddress task)).2 with
        | .error exn => [.throws exn]
        | .ok (verifyError, isVerified) =>
            afterVerification env (some (.str (publishedType task result)))
              (publishedAddress task) result.toDbJson (some result) verifyError isVerified := by
  rw [publishedMessage_finished sameId isStatus]
  refine execute_eq (logReceived_eq_ok.mpr ⟨rfl, ?_, ?_, ?_⟩)
    (buildTaskResult_published agrees built isStatus)
  · obtain ⟨fields, isObj, -⟩ := toDbJson_obj result
    rw [isObj]
    rintro ⟨⟩
  · rw [toDbJson_taskId, sameId]
    exact keyOf_idJson task
  · rw [toDbJson_status, isStatus]
    exact ⟨_, Json.toKey_str _⟩

/-- The verification of a receiver that accepts. -/
theorem Receives.verifyResult (receives : Receives env task result)
    (sameId : result.taskId = some task.idJson) :
    ∃ effects, Tasks.verifyResult env (some result) (publishedAddress task) =
      (effects, .ok (none, true)) := by
  unfold Tasks.verifyResult
  by_cases ethereum : env.hasEthereum = true
  · obtain ⟨⟨verdict, answer, noError, isVerified⟩, blockNumber, read⟩ := receives.verdict ethereum
    have withTip : ∀ localTip, verifyWithTip env (some result) (publishedAddress task) localTip =
        ([.verifies (some result) (publishedAddress task) localTip], .ok (none, true)) := by
      intro localTip
      simp only [verifyWithTip, read, answer, takeVerdict, noError, isVerified,
        canLog_published sameId, if_true]
    rw [if_pos ethereum]
    by_cases needs : needsTip (some result) = true
    · obtain ⟨localTip, tip⟩ := receives.tip ethereum needs
      rw [if_pos needs]
      simp only [publishedAddress, tip]
      exact ⟨_, withTip _⟩
    · rw [if_neg needs]
      exact ⟨_, withTip _⟩
  · rw [if_neg ethereum]
    exact ⟨_, rfl⟩

/-- The task that a receiver stores for the result, with its record. -/
theorem taskToStore_published (put : env.put = .ok ()) (agrees : Agrees task result)
    (built : Built result) (sameId : result.taskId = some task.idJson)
    (isStatus : result.status = some (.str result.cls.rawStatus)) {id : String}
    (hasId : task.getTaskId = some id) (noPrefix : strip0x id = id) :
    ∃ stored record, taskToStore env (some (.str (publishedType task result))) result.toDbJson
        false = .ok (some (stored, record)) ∧ stored.result = some result ∧
      deserializeTask env.parse record = .ok (some (.outside stored)) := by
  have isClass := rawClass_publishedType.mpr agrees
  have isBuilt : buildOutsideTask env.parse (some (.str (publishedType task result)))
      (some result.toDbJson) = .ok (some (OutsideTask.new _ result)) :=
    buildOutsideTask_toDbJson isClass built isStatus
  have isId : result.taskId = some (.str id) := by
    rw [sameId, Task.idJson, hasId]
    rfl
  have isNew : OutsideTask.new (some (.str (publishedType task result))) result =
      ⟨some id, some (.str (publishedType task result)),
        if result.isSuccess then TaskStatus.success else TaskStatus.failed, some result⟩ := by
    rw [OutsideTask.new, OutsideTask.setResult, isId, remove0x_str, noPrefix]
    exact if_pos rfl
  have reloads := (reloads_outside_iff isBuilt (by rw [isNew]) result.status).mpr isStatus
  rw [isNew] at isBuilt reloads
  obtain ⟨record, serialized, loads⟩ := reloads
  refine ⟨_, record, ?_, rfl, loads⟩
  have written : OutsideTask.toDbJson ⟨some id, some (.str (publishedType task result)),
      if result.isSuccess then TaskStatus.success else TaskStatus.failed, some result⟩ =
    .ok record := serialized
  simp [taskToStore, isBuilt, written, put, bind, Except.bind, pure, Except.pure]

/-- What a receiver that accepts goes on to store. -/
theorem stores_afterVerification_true {type contractAddress : Option Json} {resultObj record : Json}
    {stored : OutsideTask} (updateDb : env.updateDb = .ok ())
    (toStore : taskToStore env type resultObj false = .ok (some (stored, record))) :
    .stores stored record ∈ afterVerification env type contractAddress resultObj (some result)
      none true := by
  have storing : ∀ error, .stores stored record ∈
      storeAndCall env type resultObj none true error := by
    intro error
    have noFailure : isEthereumFailure none = false := rfl
    rw [storeAndCall, noFailure, toStore]
    exact List.mem_cons_self
  obtain ⟨coreMsg, message⟩ := buildIpcMsg_some result contractAddress
  rw [afterVerification, if_pos rfl, message, updateDb]
  cases coreMsg with
  | none => exact storing none
  | some coreMsg => exact List.mem_append_right _ (storing _)

/-- A result that agrees with its task arrives at every receiver that accepts it. -/
theorem storesResult_of_agrees (receives : Receives env task result) (agrees : Agrees task result)
    (built : Built result) (sameId : result.taskId = some task.idJson)
    (isStatus : result.status = some (.str result.cls.rawStatus)) {id : String}
    (hasId : task.getTaskId = some id) (noPrefix : strip0x id = id) :
    StoresResult env result
      (execute env (publishedMessage (.own (finishedTask task result)) result)) := by
  obtain ⟨stored, record, toStore, isResult, loads⟩ :=
    taskToStore_published receives.put agrees built sameId isStatus hasId noPrefix
  obtain ⟨effects, ran⟩ := receives.verifyResult sameId
  refine ⟨stored, record, ?_, isResult, loads⟩
  rw [execute_published agrees built sameId isStatus, ran]
  exact List.mem_append_right _ (stores_afterVerification_true receives.updateDb toStore)

/-- What is stored from the message of a result comes from a type that agrees, and has the id. -/
theorem agrees_of_storesResult (sameId : result.taskId = some task.idJson)
    (isStatus : result.status = some (.str result.cls.rawStatus))
    (stores : StoresResult env result
      (execute env (publishedMessage (.own (finishedTask task result)) result))) :
    Agrees task result ∧ ∃ id, task.getTaskId = some id ∧ strip0x id = id := by
  obtain ⟨stored, record, stores, isResult, -⟩ := stores
  rw [publishedMessage_finished sameId isStatus] at stores
  obtain ⟨resultObj, _, _, verifyError, _, logged, -, -, -, -, toStore⟩ := of_stores stores
  obtain ⟨fields, cls, id, rfl, storable, hasResult, -⟩ := of_taskToStore toStore
  have isObj : result.toDbJson = .obj fields :=
    Option.some.inj (logReceived_eq_ok.mp logged).1
  rw [isResult] at hasResult
  have isClass : result.cls = cls := by
    rw [Option.some.inj hasResult]
    split <;> rfl
  have isId : result.taskId = some (.str id) := by
    rw [← toDbJson_taskId, isObj]
    exact storable.isId
  refine ⟨rawClass_publishedType.mp (isClass ▸ storable.isClass), id, ?_, storable.noPrefix⟩
  rw [sameId, Task.idJson] at isId
  cases hasId : task.getTaskId with
  | none =>
      rw [hasId] at isId
      cases isId
  | some id' =>
      rw [hasId] at isId
      cases isId
      rfl

/-- A complete result is stored as it is in its record. -/
theorem storedResult_of_toDbJson (built : Built result)
    (isStatus : result.status = some (.str result.cls.rawStatus)) {fields : List (String × Json)}
    (isObj : result.toDbJson = .obj fields) : storedResult result.cls fields = result := by
  have rebuilt := @Built.buildResult (fun _ => .error .error) result built
  rw [isObj, buildResult_obj] at rebuilt
  have same : Result.ofFields result.cls fields = result := by
    split at rebuilt
    · exact Option.some.inj (Except.ok.inj rebuilt)
    · cases rebuilt
  rw [storedResult, same, ← isStatus]

theorem not_verifies_afterVerification {type contractAddress address localTip : Option Json}
    {resultObj : Json} {taskResult verified : Option Result} {verifyError : Option Fault}
    {isVerified : Bool} :
    .verifies verified address localTip ∉
      afterVerification env type contractAddress resultObj taskResult verifyError isVerified := by
  have storing : ∀ error, .verifies verified address localTip ∉
      storeAndCall env type resultObj verifyError isVerified error := by
    intro error
    unfold storeAndCall
    (repeat' split) <;> simp
  have announced : .verifies verified address localTip ∉
      (announceContract env type resultObj verifyError).1 := by
    unfold announceContract
    (repeat' split) <;> simp
  unfold afterVerification
  (repeat' split) <;> simp_all

end

/-- The result that the core computed is stored by every worker that accepts it, and loads there
as it was, exactly if its class agrees with the task and the id has no second prefix. -/
theorem published_arrives_iff {parse : String → Except Exn Json} {task : Task} {response : Json}
    {result : Result} (received : receivedResult parse task response = .ok (some result)) :
    (∀ (env : Env) (data : String),
      env.parse data = .ok (publishedMessage (.own (finishedTask task result)) result) →
      Receives env task result → StoresResult env result (executeData env data)) ↔
    Agrees task result ∧ ∃ id, task.getTaskId = some id ∧ strip0x id = id := by
  obtain ⟨built, sameId, isStatus⟩ := of_receivedResult received
  constructor
  · intro arrives
    -- a node without Ethereum accepts everything
    let env : Env := { openEnv none (.ok .accepted) with
      hasEthereum := false
      parse := fun _ => .ok (publishedMessage (.own (finishedTask task result)) result) }
    exact @agrees_of_storesResult env task result sameId isStatus
      (arrives env "" rfl ⟨nofun, nofun, rfl, rfl⟩)
  · rintro ⟨agrees, id, hasId, noPrefix⟩ env data parses receives
    rw [executeData, parses]
    exact storesResult_of_agrees receives agrees built sameId isStatus hasId noPrefix

/-- A computation and an answer of the core to it, under some type. -/
def computation : Task :=
  .compute ⟨some "0a1b", some "0f", some (.str "0c"), some (.str "0d"), some (.str "0e"),
    some (.num 170000), some (.num 7)⟩

def computationAnswer (type : String) : Json :=
  .obj [("type", .str type), ("result", .obj [("output", .str "0c"),
    ("delta", .obj [("key", .num 1), ("data", .str "0d")]), ("usedGas", .num 21000),
    ("ethereumPayload", .str ""), ("ethereumAddress", .str ""), ("signature", .str "0e"),
    ("preCodeHash", .str "0f")])]

/-- The result that is built from it. -/
def computedResult (cls : ResultClass) : Result :=
  ⟨cls, some (.str "0a1b"), some (.str "SUCCESS"), some (.str "0c"),
    some (.obj [("key", .num 1), ("data", .str "0d")]), some (.num 21000), some (.str ""),
    some (.str ""), some (.str "0e"), if cls = .deploy then some (.str "0f") else none⟩

/-- The answer to a computation arrives; the answer of a deployment to a computation does not. -/
theorem published_arrives_computation :
    (∀ (env : Env) (data : String), env.parse data = .ok (publishedMessage
        (.own (finishedTask computation (computedResult .compute))) (computedResult .compute)) →
      Receives env computation (computedResult .compute) →
      StoresResult env (computedResult .compute) (executeData env data)) ∧
    ¬ ∀ (env : Env) (data : String), env.parse data = .ok (publishedMessage
        (.own (finishedTask computation (computedResult .deploy))) (computedResult .deploy)) →
      Receives env computation (computedResult .deploy) →
      StoresResult env (computedResult .deploy) (executeData env data) := by
  have own := @published_arrives_iff (fun _ => .error .error) computation
    (computationAnswer CoreRequests.computeTask) (computedResult .compute) rfl
  have other := @published_arrives_iff (fun _ => .error .error) computation
    (computationAnswer CoreRequests.deploySecretContract) (computedResult .deploy) rfl
  refine ⟨own.mpr ⟨.inr rfl, "0a1b", rfl, by decide⟩, fun arrives => ?_⟩
  rcases (other.mp arrives).1 with isFailed | isCompute
  · cases isFailed
  · cases isCompute

/-- Nothing but the published result is verified, handed to the core or stored. -/
theorem onlyPublished {parse : String → Except Exn Json} {task : Task} {response : Json}
    {result : Result} (received : receivedResult parse task response = .ok (some result))
    (agrees : Agrees task result) (env : Env) {data : String}
    (parses : env.parse data = .ok (publishedMessage (.own (finishedTask task result)) result)) :
    OnlyPublished env task result (executeData env data) := by
  obtain ⟨built, sameId, isStatus⟩ := of_receivedResult received
  rw [executeData, parses]
  have effects := @execute_published env task result agrees built sameId isStatus
  refine ⟨?_, ?_, ?_⟩
  · intro verified contractAddress localTip verifies
    simp only [effects] at verifies
    rcases List.mem_append.mp verifies with early | late
    · rcases @verifyResult_effects env (publishedAddress task) (some result) with
        same | ⟨tip, same⟩
      · rw [same] at early
        cases early
      · rw [same, List.mem_singleton] at early
        cases early
        rfl
    · split at late
      · simp at late
      · exact absurd late not_verifies_afterVerification
  · intro coreMsg updates
    simp only [effects] at updates
    rcases List.mem_append.mp updates with early | late
    · exact absurd early (not_updates_verifyResult coreMsg)
    · split at late
      · simp at late
      · exact (of_updatesDb_afterVerification late).2
  · intro stored record stores
    rw [publishedMessage_finished sameId isStatus] at stores
    obtain ⟨resultObj, taskResult, _, verifyError, isVerified, logged, isBuilt, ran, -, decided,
      toStore⟩ := of_stores stores
    obtain ⟨fields, cls, id, rfl, storable, hasResult, -⟩ := of_taskToStore toStore
    have isObj : result.toDbJson = .obj fields :=
      Option.some.inj (logReceived_eq_ok.mp logged).1
    have isClass : cls = result.cls :=
      Option.some.inj (storable.isClass.symm.trans (rawClass_publishedType.mpr agrees))
    subst isClass
    rw [storedResult_of_toDbJson built isStatus isObj] at hasResult
    cases isFailure : isEthereumFailure verifyError with
    | false =>
        rw [isFailure] at hasResult
        exact .inl hasResult
    | true =>
        rw [isFailure] at hasResult
        refine .inr ⟨?_, hasResult⟩
        by_cases ethereum : env.hasEthereum = true
        · obtain ⟨_, _, -, -, -, -, ⟨-, rfl, -⟩ | ⟨-, fails⟩⟩ :=
            of_verifyResult ethereum ran decided
          · cases isFailure
          · exact fails
        · rw [verifyResult, if_neg ethereum] at ran
          cases ran
          cases isFailure

theorem onlyPublished_computation :
    OnlyPublished { openEnv (some (.str "0f")) (.ok .accepted) with
        parse := fun _ => .ok (publishedMessage
          (.own (finishedTask computation (computedResult .compute))) (computedResult .compute)) }
      computation (computedResult .compute)
      (executeData { openEnv (some (.str "0f")) (.ok .accepted)
        with parse := fun _ => .ok (publishedMessage
          (.own (finishedTask computation (computedResult .compute)))
          (computedResult .compute)) } "") :=
  @onlyPublished (fun _ => .error .error) computation (computationAnswer CoreRequests.computeTask)
    (computedResult .compute) rfl (.inr rfl) _ _ rfl

/-! ## The announcement after the commit -/

section

variable {platform : Platform} {finished : FinishedTask} {outcome : CommitOutcome}
  {update : Except String Unit}

/-- What a deployment reverts is its contract, and the first error is the one that counts. -/
theorem revertState_deploy (fields : TaskFields) (preCode : Option Json) (result : Result)
    (calls : List ChainCall) (err : Option CommitError) :
    revertState (.deploy fields preCode) result update calls err =
      ⟨calls, [.removeContract fields.contractAddr], .ok (err <|> match update with
        | .ok _ => none
        | .error reason => some (.core reason))⟩ := rfl

/-- The commit of a successful deployment settles without an error if the call succeeds, and
also if its callback fails and the contract is removed again. -/
theorem commitDeployTask_settled_none_iff {fields : TaskFields} {preCode : Option Json}
    {result : Result} (isSuccess : result.isSuccess = true) :
    (commitDeployTask platform (.deploy fields preCode) result outcome update).settled = .ok none ↔
      result.hasDelta = true ∧
        (∃ call, deployCall platform (.deploy fields preCode) result = .ok call) ∧
        (outcome = .succeeded ∨ outcome = .receiptFailedETH ∧ update = .ok ()) := by
  rw [commitDeployTask, if_pos isSuccess]
  cases hasDelta : result.hasDelta with
  | false => simp
  | true =>
      cases deployCall platform (.deploy fields preCode) result with
      | error exn => simp [revertState_deploy]
      | ok call =>
          cases outcome with
          | succeeded => simp
          | rejected message => simp [revertState_deploy]
          | receiptFailedETH => cases update <;> simp [revertState_deploy]

theorem announceDeployed_iff {env : PublishEnv} {task : StoredTask} {result : Result}
    {err : Option CommitError} :
    (∃ ecid, .announces ecid ∈ announceDeployed env task result err) ↔
      task.isDeployTask = true ∧ result.isSuccess = true ∧ err = none ∧
        (createFromSCAddress env.packages task.getContractAddr).isSome = true := by
  unfold announceDeployed
  by_cases announces : task.isDeployTask ∧ result.isSuccess = true ∧ err = none
  · rw [if_pos announces]
    cases createFromSCAddress env.packages task.getContractAddr with
    | none => simp
    | some ecid => simpa using announces
  · rw [if_neg announces]
    refine iff_of_false nofun ?_
    rintro ⟨isDeploy, isSuccess, noError, -⟩
    exact announces ⟨isDeploy, isSuccess, noError⟩

/-- What is announced is announced by the last step, where the commit left no error. -/
theorem announces_publishTaskResult_iff {env : PublishEnv} {task : StoredTask} {result : Result}
    (hasResult : task.getResult = some result) :
    (∃ ecid, .announces ecid ∈ publishTaskResult env task) ↔
      (env.hasEthereum = true → env.commitReceipt = .ok none) ∧ task.isDeployTask = true ∧
        result.isSuccess = true ∧
        (createFromSCAddress env.packages task.getContractAddr).isSome = true := by
  rw [publishTaskResult, hasResult]
  dsimp only
  by_cases ethereum : env.hasEthereum = true
  · rw [if_pos ethereum]
    cases env.commitReceipt with
    | error exn => simp [ethereum]
    | ok err =>
        simp only [List.mem_cons, reduceCtorEq, false_or, announceDeployed_iff, ethereum,
          Except.ok.injEq, forall_const]
        constructor
        · rintro ⟨isDeploy, isSuccess, noError, isId⟩
          exact ⟨noError, isDeploy, isSuccess, isId⟩
        · rintro ⟨noError, isDeploy, isSuccess, isId⟩
          exact ⟨isDeploy, isSuccess, noError, isId⟩
  · rw [if_neg ethereum]
    simp only [List.mem_cons, reduceCtorEq, false_or, announceDeployed_iff]
    constructor
    · rintro ⟨isDeploy, isSuccess, -, isId⟩
      exact ⟨fun isTrue => absurd isTrue ethereum, isDeploy, isSuccess, isId⟩
    · rintro ⟨-, isDeploy, isSuccess, isId⟩
      exact ⟨isDeploy, isSuccess, trivial, isId⟩

/-- The node announces a contract exactly if the task deploys it with success, an id can be made
of its address, and the commit, if there is one, succeeds or is taken back: a contract
that was just removed from the core is announced too. -/
theorem announces_iff (finished : FinishedTask) (status : Json) (outcome : CommitOutcome)
    (update : Except String Unit) (packages : CidPackages) (hasEthereum : Bool) :
    (∃ ecid, .announces ecid ∈ publishTaskResult
        ⟨hasEthereum, (commitReceipt platform finished outcome update).settled, packages⟩
        (.own ⟨finished.task, status, some finished.result⟩)) ↔
      ∃ fields preCode, finished.task = .deploy fields preCode ∧
        finished.result.isSuccess = true ∧
        (createFromSCAddress packages fields.contractAddr).isSome = true ∧
        (hasEthereum = true → finished.result.hasDelta = true ∧
          (∃ call, deployCall platform finished.task finished.result = .ok call) ∧
          (outcome = .succeeded ∨ outcome = .receiptFailedETH ∧ update = .ok ())) := by
  refine (announces_publishTaskResult_iff rfl).trans ?_
  obtain ⟨task, result, failed⟩ := finished
  cases task with
  | compute fields =>
      refine iff_of_false ?_ nofun
      rintro ⟨-, isDeploy, -⟩
      cases isDeploy
  | deploy fields preCode =>
      constructor
      · rintro ⟨settled, -, isSuccess, isId⟩
        exact ⟨fields, preCode, rfl, isSuccess, isId, fun ethereum =>
          (commitDeployTask_settled_none_iff isSuccess).mp (settled ethereum)⟩
      · rintro ⟨_, _, ⟨rfl⟩, isSuccess, isId, committed⟩
        exact ⟨fun ethereum => (commitDeployTask_settled_none_iff isSuccess).mpr
          (committed ethereum), rfl, isSuccess, isId⟩

end

end Tasks
