import EnigmaP2P.Tasks.Result
import EnigmaP2P.Tasks.Task

/-!
# Records of tasks

The task manager stores a task as the JSON text of `toDbJson` and loads it with
`_deserializeTask`, which guesses the class from the fields of the record: a record with a
truthy `outsideTask` is an outside task, one with a truthy `preCode` a deployment, and every
other one a computation. The class of a result is guessed from its status.

`JSON.stringify` drops what is `undefined` and `JSON.parse` reads back everything else, so a
record is the `Json` value itself. For a result that is a text the parser is a parameter.
-/

namespace Tasks

open Js Common

/-- A deployment or computation with the fields that change. -/
structure OwnTask where
  task : Task
  status : Json
  result : Option Result
  deriving DecidableEq

/-- A task as the manager stores it. -/
inductive StoredTask where
  | own (task : OwnTask)
  | outside (task : OutsideTask)
  deriving DecidableEq

namespace OwnTask

/-- The id in a record. -/
def idJson (task : OwnTask) : Json :=
  task.task.getTaskId.elim .null .str

/-- `setInProgressStatus`. -/
def setInProgressStatus (task : OwnTask) : OwnTask :=
  { task with status := .str TaskStatus.inProgress }

/-- `setResult`: `null` and a result with another id are ignored. -/
def setResult (task : OwnTask) (result : Option Result) : OwnTask :=
  match result with
  | none => task
  | some result =>
      if result.taskId = some task.idJson then
        { task with
          result := some result
          status := .str (if result.isSuccess then TaskStatus.success else TaskStatus.failed) }
      else task

/-- `isFinished()`. -/
def isFinished (task : OwnTask) : Bool :=
  task.status = .str TaskStatus.success || task.status = .str TaskStatus.failed

/-- The object literal of `toDbJson`; a deployment has its pre-code. -/
def dbFields (task : OwnTask) : List (String × Option Json) :=
  let fields := task.task.fields
  let preCode := match task.task with
    | .deploy _ preCode => [("preCode", preCode)]
    | .compute _ => []
  [("status", some task.status), ("taskId", some task.idJson)] ++ preCode ++
    [("encryptedArgs", fields.encryptedArgs), ("encryptedFn", fields.encryptedFn),
      ("userDHKey", fields.userDHKey), ("gasLimit", fields.gasLimit),
      ("contractAddress", some (fields.contractAddr.elim .null .str)),
      ("blockNumber", fields.blockNumber)]

/-- `toDbJson` of both classes. -/
def toDbJson (task : OwnTask) : Except Exn Json :=
  if task.isFinished then
    match task.result with
    | none => .error .typeError
    | some result => .ok (definedFields (task.dbFields ++ [("result", some result.toDbJson)]))
  else .ok (definedFields task.dbFields)

end OwnTask

variable (parse : String → Except Exn Json)

/-- `fromDbJson` of both classes. The status of a task that is `null` cannot be set. -/
def loadTask (build : List (String × Json) → Option Task)
    (resultClass : Option Json → ResultClass) (taskObj : List (String × Json)) :
    Except Exn (Option OwnTask) :=
  let status := taskObj.lookup "status"
  if truthy? status then
    match build taskObj with
    | none => .error .typeError
    | some task => do
        let loaded : OwnTask := ⟨task, status.getD .null, none⟩
        let result := taskObj.lookup "result"
        if truthy? result then
          let built ← buildResult parse (resultClass (result.bind (·.get? "status"))) result
          pure (some (loaded.setResult built))
        else pure (some loaded)
  else .ok none

/-- `DeployTask.fromDbJson`. -/
def DeployTask.fromDbJson : List (String × Json) → Except Exn (Option OwnTask) :=
  loadTask parse buildDeployTask fun status =>
    if status ≠ some (.str TaskStatus.failed) then .deploy else .failed

/-- `ComputeTask.fromDbJson`. -/
def ComputeTask.fromDbJson : List (String × Json) → Except Exn (Option OwnTask) :=
  loadTask parse buildComputeTask fun status =>
    if status = some (.str TaskStatus.success) then .compute else .failed

/-- `_deserializeTask` after `JSON.parse`. -/
def deserializeTask (taskJson : Json) : Except Exn (Option StoredTask) :=
  match taskJson with
  | .null => .error .typeError
  | .obj fields =>
      if truthy? (fields.lookup "outsideTask") then do
        pure ((← OutsideTask.fromDbJson parse (.obj fields)).map .outside)
      else if truthy? (fields.lookup "preCode") then do
        pure ((← DeployTask.fromDbJson parse fields).map .own)
      else do pure ((← ComputeTask.fromDbJson parse fields).map .own)
  | _ => .ok none

/-- The value that `_serializeTask` writes. -/
def serializeTask : StoredTask → Except Exn Json
  | .own task => task.toDbJson
  | .outside task => task.toDbJson

/-! ## What is stored -/

/-- Every field is a JSON value, and the task has an id. -/
structure JsonValued (task : Task) : Prop where
  taskId : task.getTaskId ≠ none
  encryptedArgs : task.fields.encryptedArgs ≠ none
  encryptedFn : task.fields.encryptedFn ≠ none
  userDHKey : task.fields.userDHKey ≠ none
  gasLimit : task.fields.gasLimit ≠ none
  blockNumber : task.fields.blockNumber ≠ none
  preCode : ∀ fields preCode, task = .deploy fields preCode → preCode ≠ none

/-- The result comes from a message with the properties that its class expects. -/
def Built (result : Result) : Prop :=
  ∃ fields, HasExpected result.cls fields ∧ result = Result.ofFields result.cls fields

/-- The tasks that the program stores: verified ones, those that are finished with a
result, results from elsewhere, and these with the status of a failure in Ethereum. -/
inductive Stored : StoredTask → Prop
  | inProgress {task : Task} (valued : JsonValued task) :
      Stored (.own ⟨task, .str TaskStatus.inProgress, none⟩)
  | finished {task : Task} (valued : JsonValued task) {result : Result} (built : Built result)
      (sameId : result.taskId = some (task.getTaskId.elim .null .str)) :
      Stored (.own (OwnTask.setResult ⟨task, .str TaskStatus.inProgress, none⟩ (some result)))
  | outside {type rawResult : Option Json} {task : OutsideTask}
      (built : buildOutsideTask parse type rawResult = .ok (some task))
      (attached : task.result ≠ none) : Stored (.outside task)
  | ethereumFailure {type rawResult status : Option Json} {task failed : OutsideTask}
      (built : buildOutsideTask parse type rawResult = .ok (some task))
      (isFailed : task.setResultStatus status = .ok failed) : Stored (.outside failed)

/-- The task is loaded from its record as it was. -/
def Reloads (task : StoredTask) : Prop :=
  ∃ record, serializeTask task = .ok record ∧ deserializeTask parse record = .ok (some task)

/-- The class that is guessed for the result of a computation or deployment is its own. -/
def ResultGuessed (task : Task) (result : Result) : Prop :=
  result.cls = .failed ∨
  match task with
  | .compute _ => result.cls = .compute ∧ result.status = some (.str TaskStatus.success)
  | .deploy .. => result.cls = .deploy ∧ result.status ≠ some (.str TaskStatus.failed)

/-- The pre-code of a deployment is truthy, id and contract address have no second prefix,
and the class of a result follows from its status. The result of an outside task has the
status that its type stands for. -/
def ReloadHarmless : StoredTask → Prop
  | .own ⟨task, _, result⟩ =>
      (∀ fields preCode, task = .deploy fields preCode → truthy? preCode = true) ∧
      (∀ taskId ∈ task.getTaskId, strip0x taskId = taskId) ∧
      (∀ contractAddr ∈ task.fields.contractAddr, strip0x contractAddr = contractAddr) ∧
      ∀ result' ∈ result, ResultGuessed task result'
  | .outside task =>
      ∀ result ∈ task.result, result.status = some (.str result.cls.rawStatus)

variable {parse}

/-! ## Results -/

/-- What is expected is there, since no object inherits a property of that name. -/
theorem HasExpected.lookup {cls : ResultClass} {fields : List (String × Json)}
    (has : HasExpected cls fields) {attr : String} (expected : attr ∈ cls.expected) :
    ∃ value, fields.lookup attr = some value := by
  have own : ∀ attr ∈ cls.expected, attr ∉ objectPrototype := by
    cases cls <;> decide
  have isSome := has attr expected
  rw [hasProperty_eq_isSome (own attr expected)] at isSome
  exact Option.isSome_iff_exists.mp isSome

/-- A result is built again from its record. -/
theorem Built.buildResult {result : Result} (built : Built result) :
    Tasks.buildResult parse result.cls (some result.toDbJson) = .ok (some result) := by
  obtain ⟨fields, has, isResult⟩ := built
  generalize result.cls = cls at has isResult ⊢
  subst isResult
  have value := fun attr => @HasExpected.lookup cls fields has attr
  cases cls with
  | failed =>
      obtain ⟨taskId, isTaskId⟩ := value "taskId" (by decide)
      obtain ⟨output, isOutput⟩ := value "output" (by decide)
      obtain ⟨usedGas, isUsedGas⟩ := value "usedGas" (by decide)
      obtain ⟨signature, isSignature⟩ := value "signature" (by decide)
      rw [Result.ofFields, isTaskId, isOutput, isUsedGas, isSignature]
      rfl
  | compute =>
      obtain ⟨taskId, isTaskId⟩ := value "taskId" (by decide)
      obtain ⟨status, isStatus⟩ := value "status" (by decide)
      obtain ⟨output, isOutput⟩ := value "output" (by decide)
      obtain ⟨delta, isDelta⟩ := value "delta" (by decide)
      obtain ⟨usedGas, isUsedGas⟩ := value "usedGas" (by decide)
      obtain ⟨payload, isPayload⟩ := value "ethereumPayload" (by decide)
      obtain ⟨address, isAddress⟩ := value "ethereumAddress" (by decide)
      obtain ⟨signature, isSignature⟩ := value "signature" (by decide)
      simp only [Result.ofFields, isTaskId, isStatus, isOutput, isDelta, isUsedGas, isPayload,
        isAddress, isSignature]
      rfl
  | deploy =>
      obtain ⟨taskId, isTaskId⟩ := value "taskId" (by decide)
      obtain ⟨status, isStatus⟩ := value "status" (by decide)
      obtain ⟨output, isOutput⟩ := value "output" (by decide)
      obtain ⟨delta, isDelta⟩ := value "delta" (by decide)
      obtain ⟨usedGas, isUsedGas⟩ := value "usedGas" (by decide)
      obtain ⟨payload, isPayload⟩ := value "ethereumPayload" (by decide)
      obtain ⟨address, isAddress⟩ := value "ethereumAddress" (by decide)
      obtain ⟨signature, isSignature⟩ := value "signature" (by decide)
      obtain ⟨preCodeHash, isPreCodeHash⟩ := value "preCodeHash" (by decide)
      simp only [Result.ofFields, isTaskId, isStatus, isOutput, isDelta, isUsedGas, isPayload,
        isAddress, isSignature, isPreCodeHash]
      rfl

/-- The status in the record of a result. -/
theorem toDbJson_status (result : Result) : result.toDbJson.get? "status" = result.status := by
  rw [Result.toDbJson]
  split <;> simp [get?_definedFields_cons, get?_definedFields_nil]

theorem toDbJson_truthy (result : Result) : result.toDbJson.truthy = true := by
  rw [Result.toDbJson]
  split <;> rfl

/-! ## Deployments and computations -/

/-- The class that a loader guesses for the result of a task. -/
def guessedClass (task : Task) (status : Option Json) : ResultClass :=
  match task with
  | .deploy .. => if status ≠ some (.str TaskStatus.failed) then .deploy else .failed
  | .compute _ => if status = some (.str TaskStatus.success) then .compute else .failed

/-- The task after its identifiers went through `remove0x` once more. -/
def reread : Task → Task
  | .deploy fields preCode => .deploy { fields with
      taskId := fields.taskId.map strip0x
      contractAddr := fields.contractAddr.map strip0x } preCode
  | .compute fields => .compute { fields with
      taskId := fields.taskId.map strip0x
      contractAddr := fields.contractAddr.map strip0x }

theorem reread_eq_iff {task : Task} :
    reread task = task ↔ (∀ taskId ∈ task.getTaskId, strip0x taskId = taskId) ∧
      ∀ contractAddr ∈ task.fields.contractAddr, strip0x contractAddr = contractAddr := by
  have map_eq_iff : ∀ text : Option String, text.map strip0x = text ↔
      ∀ inside ∈ text, strip0x inside = inside := by
    rintro (- | text)
    · exact iff_of_true rfl nofun
    · simp
  cases task with
  | deploy fields preCode =>
      rw [reread, Task.deploy.injEq, eq_self, and_true, Task.getTaskId, ← map_eq_iff, ← map_eq_iff]
      constructor
      · exact fun same => ⟨congrArg TaskFields.taskId same, congrArg TaskFields.contractAddr same⟩
      · rintro ⟨taskId, contractAddr⟩
        simp only [Task.fields] at taskId contractAddr
        rw [taskId, contractAddr]
  | compute fields =>
      rw [reread, Task.compute.injEq, Task.getTaskId, ← map_eq_iff, ← map_eq_iff]
      constructor
      · exact fun same => ⟨congrArg TaskFields.taskId same, congrArg TaskFields.contractAddr same⟩
      · rintro ⟨taskId, contractAddr⟩
        simp only [Task.fields] at taskId contractAddr
        rw [taskId, contractAddr]

/-- The task with the result of its record, if there is one. -/
def loadedWith (parse : String → Except Exn Json) (cls : Option Json → ResultClass)
    (loaded : OwnTask) : Option Result → Except Exn (Option OwnTask)
  | none => .ok (some loaded)
  | some result => do
      let built ← buildResult parse (cls result.status) (some result.toDbJson)
      pure (some (loaded.setResult built))

theorem loadTask_eq {build : List (String × Json) → Option Task}
    {cls : Option Json → ResultClass} {fields : List (String × Json)} {task : Task} {status : Json}
    (hasStatus : fields.lookup "status" = some status) (isStatus : status.truthy = true)
    (built : build fields = some task) {result : Option Result}
    (hasResult : fields.lookup "result" = result.map Result.toDbJson) :
    loadTask parse build cls fields = loadedWith parse cls ⟨task, status, none⟩ result := by
  have truthyStatus : truthy? (some status) = true := isStatus
  rw [loadTask, hasStatus, hasResult, built, if_pos truthyStatus]
  cases result with
  | none => rfl
  | some result =>
      have truthyResult : truthy? (some result.toDbJson) = true := toDbJson_truthy result
      simp only [Option.map_some, if_pos truthyResult, Option.bind_some, toDbJson_status]
      rfl

/-- The record of a computation is loaded by the computation's loader. -/
theorem deserializeTask_compute {fields : TaskFields} (valued : JsonValued (.compute fields))
    {status : Json} (isStatus : status.truthy = true) (old result : Option Result) :
    deserializeTask parse (definedFields ((OwnTask.mk (.compute fields) status old).dbFields ++
        [("result", result.map Result.toDbJson)])) = (do
      let loaded ← loadedWith parse (guessedClass (.compute fields))
        ⟨reread (.compute fields), status, none⟩ result
      pure (loaded.map .own)) := by
  obtain ⟨taskId, contractAddr, args, fn, key, gas, block⟩ := fields
  obtain ⟨isId, isArgs, isFn, isKey, isGas, isBlock, -⟩ := valued
  obtain ⟨taskId, rfl⟩ := Option.ne_none_iff_exists'.mp isId
  obtain ⟨args, rfl⟩ := Option.ne_none_iff_exists'.mp isArgs
  obtain ⟨fn, rfl⟩ := Option.ne_none_iff_exists'.mp isFn
  obtain ⟨key, rfl⟩ := Option.ne_none_iff_exists'.mp isKey
  obtain ⟨gas, rfl⟩ := Option.ne_none_iff_exists'.mp isGas
  obtain ⟨block, rfl⟩ := Option.ne_none_iff_exists'.mp isBlock
  have built : ∀ tail, buildComputeTask ([("status", status), ("taskId", .str taskId),
      ("encryptedArgs", args), ("encryptedFn", fn), ("userDHKey", key), ("gasLimit", gas),
      ("contractAddress", contractAddr.elim .null .str), ("blockNumber", block)] ++ tail) =
      some (reread (.compute ⟨some taskId, contractAddr, some args, some fn, some key, some gas,
        some block⟩)) := by
    intro tail
    cases contractAddr <;> rfl
  have loads := fun tail => @loadTask_eq parse buildComputeTask (guessedClass (.compute
    ⟨some taskId, contractAddr, some args, some fn, some key, some gas, some block⟩)) _ _ status rfl
    isStatus (built tail)
  cases result with
  | none =>
      change (ComputeTask.fromDbJson parse _ >>= _) = _
      exact congrArg (· >>= _) (loads [] rfl)
  | some result =>
      change (ComputeTask.fromDbJson parse _ >>= _) = _
      exact congrArg (· >>= _) (loads [("result", result.toDbJson)] rfl)

/-- The record of a deployment whose pre-code is truthy is loaded by the deployment's loader. -/
theorem deserializeTask_deploy {fields : TaskFields} {preCode : Option Json}
    (valued : JsonValued (.deploy fields preCode)) (isPreCode : truthy? preCode = true)
    {status : Json} (isStatus : status.truthy = true) (old result : Option Result) :
    deserializeTask parse
        (definedFields ((OwnTask.mk (.deploy fields preCode) status old).dbFields ++
          [("result", result.map Result.toDbJson)])) = (do
      let loaded ← loadedWith parse (guessedClass (.deploy fields preCode))
        ⟨reread (.deploy fields preCode), status, none⟩ result
      pure (loaded.map .own)) := by
  obtain ⟨taskId, contractAddr, args, fn, key, gas, block⟩ := fields
  obtain ⟨isId, isArgs, isFn, isKey, isGas, isBlock, hasPreCode⟩ := valued
  obtain ⟨taskId, rfl⟩ := Option.ne_none_iff_exists'.mp isId
  obtain ⟨args, rfl⟩ := Option.ne_none_iff_exists'.mp isArgs
  obtain ⟨fn, rfl⟩ := Option.ne_none_iff_exists'.mp isFn
  obtain ⟨key, rfl⟩ := Option.ne_none_iff_exists'.mp isKey
  obtain ⟨gas, rfl⟩ := Option.ne_none_iff_exists'.mp isGas
  obtain ⟨block, rfl⟩ := Option.ne_none_iff_exists'.mp isBlock
  obtain ⟨preCode, rfl⟩ := Option.ne_none_iff_exists'.mp (hasPreCode _ _ rfl)
  have built : ∀ tail, buildDeployTask ([("status", status), ("taskId", .str taskId),
      ("preCode", preCode), ("encryptedArgs", args), ("encryptedFn", fn), ("userDHKey", key),
      ("gasLimit", gas), ("contractAddress", contractAddr.elim .null .str),
      ("blockNumber", block)] ++ tail) =
      some (reread (.deploy ⟨some taskId, contractAddr, some args, some fn, some key, some gas,
        some block⟩ (some preCode))) := by
    intro tail
    cases contractAddr <;> rfl
  have loads := fun tail => @loadTask_eq parse buildDeployTask (guessedClass (.deploy
    ⟨some taskId, contractAddr, some args, some fn, some key, some gas, some block⟩
      (some preCode))) _ _ status rfl isStatus (built tail)
  cases result with
  | none =>
      change (if truthy? (some preCode) = true then DeployTask.fromDbJson parse _ >>= _ else _) = _
      rw [if_pos isPreCode]
      exact congrArg (· >>= _) (loads [] rfl)
  | some result =>
      change (if truthy? (some preCode) = true then DeployTask.fromDbJson parse _ >>= _ else _) = _
      rw [if_pos isPreCode]
      exact congrArg (· >>= _) (loads [("result", result.toDbJson)] rfl)

/-- A loader returns what its builder builds. -/
theorem of_loadTask {build : List (String × Json) → Option Task}
    {cls : Option Json → ResultClass} {fields : List (String × Json)} {loaded : OwnTask}
    (loads : loadTask parse build cls fields = .ok (some loaded)) :
    build fields = some loaded.task := by
  have setResult_task : ∀ (task : OwnTask) result, (task.setResult result).task = task.task := by
    rintro task (- | result)
    · rfl
    · rw [OwnTask.setResult]
      split <;> rfl
  rw [loadTask] at loads
  split at loads
  · split at loads
    · cases loads
    · rename_i task built
      simp only [] at loads
      split at loads
      · obtain ⟨result, -, loads⟩ := bind_eq_ok.mp loads
        cases loads
        rw [built, setResult_task]
      · cases loads
        exact built
  · cases loads

/-- With a falsy pre-code a record is never loaded as a deployment. -/
theorem not_deserializeTask_deploy {record : List (String × Json)}
    (noPreCode : truthy? (record.lookup "preCode") = false)
    (own : truthy? (record.lookup "outsideTask") = false) {fields : TaskFields}
    {preCode : Option Json} {status : Json} {result : Option Result} :
    deserializeTask parse (.obj record) ≠
      .ok (some (.own ⟨.deploy fields preCode, status, result⟩)) := by
  intro loads
  rw [deserializeTask, own, noPreCode] at loads
  obtain ⟨loaded, isLoaded, loads⟩ := bind_eq_ok.mp loads
  cases loaded with
  | none => cases loads
  | some loaded =>
      cases loads
      have built := of_loadTask isLoaded
      rw [buildComputeTask] at built
      simp only [] at built
      split at built
      · cases built
      · cases built

/-- The guess is right exactly where the class follows from the status. -/
theorem guessedClass_eq_iff {task : Task} {result : Result} (built : Built result) :
    guessedClass task result.status = result.cls ↔ ResultGuessed task result := by
  have failedStatus : result.cls = .failed → result.status = some (.str TaskStatus.failed) := by
    obtain ⟨fields, -, isResult⟩ := built
    intro isFailed
    rw [isFailed] at isResult
    rw [isResult]
    rfl
  cases task with
  | deploy fields preCode =>
      simp only [guessedClass, ResultGuessed]
      split
      · rename_i notFailed
        constructor
        · intro isDeploy
          exact .inr ⟨isDeploy.symm, notFailed⟩
        · rintro (isFailed | ⟨isDeploy, -⟩)
          · exact absurd (failedStatus isFailed) notFailed
          · exact isDeploy.symm
      · rename_i isFailed
        constructor
        · intro same
          exact .inl same.symm
        · rintro (same | ⟨-, notFailed⟩)
          · exact same.symm
          · exact absurd notFailed isFailed
  | compute fields =>
      simp only [guessedClass, ResultGuessed]
      split
      · rename_i isSuccess
        constructor
        · intro isCompute
          exact .inr ⟨isCompute.symm, isSuccess⟩
        · rintro (isFailed | ⟨isCompute, -⟩)
          · rw [failedStatus isFailed] at isSuccess
            exact absurd isSuccess (by decide)
          · exact isCompute.symm
      · rename_i notSuccess
        constructor
        · intro same
          exact .inl same.symm
        · rintro (same | ⟨-, isSuccess⟩)
          · exact same.symm
          · exact absurd isSuccess notSuccess

/-- A builder makes results of its own class. -/
theorem cls_of_buildResult {cls : ResultClass} {result built : Result}
    (isBuilt : buildResult parse cls (some result.toDbJson) = .ok (some built)) :
    built.cls = cls := by
  obtain ⟨fields, isRecord⟩ : ∃ fields, result.toDbJson = .obj fields := by
    rw [Result.toDbJson]
    split <;> exact ⟨_, rfl⟩
  rw [isRecord, buildResult_obj] at isBuilt
  split at isBuilt
  · cases isBuilt
    rfl
  · cases isBuilt

/-- What the result of a stored task is, apart from its class. -/
def Attached (task : OwnTask) : Prop :=
  ∀ result ∈ task.result, Built result ∧ result.taskId = some task.idJson ∧
    task.status = .str (if result.isSuccess then TaskStatus.success else TaskStatus.failed)

/-- Where the loader of the right class runs, the task is the same exactly if its
identifiers are stable and the class of its result is guessed. -/
theorem loadedWith_eq_iff {task : OwnTask} (attached : Attached task) :
    (do
      let loaded ← loadedWith parse (guessedClass task.task)
        ⟨reread task.task, task.status, none⟩ task.result
      pure (loaded.map .own)) = (.ok (some (.own task)) : Except Exn (Option StoredTask)) ↔
    reread task.task = task.task ∧ ∀ result ∈ task.result, ResultGuessed task.task result := by
  obtain ⟨task, status, result⟩ := task
  cases result with
  | none =>
      change Except.ok (some (StoredTask.own ⟨reread task, status, none⟩)) = _ ↔ _
      rw [Except.ok.injEq, Option.some.injEq, StoredTask.own.injEq, OwnTask.mk.injEq]
      exact ⟨fun same => ⟨same.1, fun _ member => absurd member (Option.not_mem_none _)⟩,
        fun same => ⟨same.1, rfl, rfl⟩⟩
  | some result =>
      obtain ⟨built, sameId, isStatus⟩ := attached result rfl
      have guess : (∀ other ∈ some result, ResultGuessed task other) ↔
          guessedClass task result.status = result.cls := by
        rw [guessedClass_eq_iff built]
        exact ⟨fun all => all result rfl,
          fun right other isOther => Option.some.inj isOther ▸ right⟩
      rw [guess]
      constructor
      · intro loads
        obtain ⟨loaded, isLoaded, isOwn⟩ := bind_eq_ok.mp loads
        obtain ⟨result', isBuilt, isLoaded⟩ := bind_eq_ok.mp isLoaded
        cases isLoaded
        have same : OwnTask.setResult ⟨reread task, status, none⟩ result' =
            ⟨task, status, some result⟩ :=
          StoredTask.own.inj (Option.some.inj (Except.ok.inj isOwn))
        cases result' with
        | none => cases congrArg OwnTask.result same
        | some result' =>
            rw [OwnTask.setResult] at same
            split at same
            · rw [OwnTask.mk.injEq, Option.some.injEq] at same
              obtain ⟨sameTask, -, rfl⟩ := same
              exact ⟨sameTask, (cls_of_buildResult isBuilt).symm⟩
            · cases congrArg OwnTask.result same
      · rintro ⟨sameTask, guessed⟩
        have isBuilt : buildResult parse (guessedClass task result.status)
            (some result.toDbJson) = .ok (some result) := guessed ▸ built.buildResult
        have set : OwnTask.setResult ⟨task, status, none⟩ (some result) =
            ⟨task, status, some result⟩ := by
          have own : result.taskId = some (OwnTask.idJson ⟨task, status, none⟩) := sameId
          rw [OwnTask.setResult]
          simp only [if_pos own, OwnTask.mk.injEq, true_and, and_true]
          exact isStatus.symm
        change (buildResult parse (guessedClass task result.status) (some result.toDbJson) >>=
          _) >>= _ = _
        rw [isBuilt]
        change Except.ok (some (StoredTask.own (OwnTask.setResult ⟨reread task, status, none⟩
          (some result)))) = _
        rw [sameTask, set]

/-- A task in progress can be written. -/
theorem serializeTask_inProgress (task : OwnTask) :
    ∃ record, serializeTask (.own task.setInProgressStatus) = .ok record := by
  have unfinished : task.setInProgressStatus.isFinished = false := by
    simp [OwnTask.isFinished, OwnTask.setInProgressStatus, TaskStatus.inProgress,
      TaskStatus.success, TaskStatus.failed]
  rw [serializeTask, OwnTask.toDbJson, if_neg (by rw [unfinished]; exact Bool.false_ne_true)]
  exact ⟨_, rfl⟩

/-- A finished task has a result. -/
theorem serializeTask_own {task : OwnTask}
    (finished : task.isFinished = true ↔ task.result ≠ none) :
    serializeTask (.own task) = .ok (definedFields (task.dbFields ++
      [("result", task.result.map Result.toDbJson)])) := by
  rw [serializeTask, OwnTask.toDbJson]
  cases isResult : task.result with
  | none =>
      have unfinished : ¬ task.isFinished = true := fun is => finished.mp is isResult
      rw [if_neg unfinished, definedFields, definedFields, List.filterMap_append]
      exact congrArg (fun fields => Except.ok (Json.obj fields)) (List.append_nil _).symm
  | some result =>
      have isFinished : task.isFinished = true :=
        finished.mpr (isResult ▸ Option.some_ne_none result)
      rw [if_pos isFinished]
      rfl

/-- A deployment or computation is loaded as it was exactly if its record is harmless. -/
theorem reloads_own_iff {task : OwnTask} (valued : JsonValued task.task)
    (attached : Attached task) (isStatus : task.status.truthy = true)
    (finished : task.isFinished = true ↔ task.result ≠ none) :
    Reloads parse (.own task) ↔ ReloadHarmless (.own task) := by
  have written : Reloads parse (.own task) ↔ deserializeTask parse (definedFields
      (task.dbFields ++ [("result", task.result.map Result.toDbJson)])) =
        .ok (some (.own task)) := by
    rw [Reloads, serializeTask_own finished]
    simp
  rw [written]
  have ids := @reread_eq_iff task.task
  obtain ⟨task, status, result⟩ := task
  cases task with
  | compute fields =>
      rw [deserializeTask_compute valued isStatus result result, loadedWith_eq_iff attached, ids]
      exact ⟨fun right => ⟨fun _ _ same => (nomatch same), right.1.1, right.1.2, right.2⟩,
        fun right => ⟨⟨right.2.1, right.2.2.1⟩, right.2.2.2⟩⟩
  | deploy fields preCode =>
      cases isPreCode : truthy? preCode with
      | true =>
          rw [deserializeTask_deploy valued isPreCode isStatus result result,
            loadedWith_eq_iff attached, ids]
          refine ⟨fun right => ⟨?_, right.1.1, right.1.2, right.2⟩,
            fun right => ⟨⟨right.2.1, right.2.2.1⟩, right.2.2.2⟩⟩
          rintro _ _ ⟨rfl⟩
          exact isPreCode
      | false =>
          refine iff_of_false ?_ fun right => ?_
          · refine not_deserializeTask_deploy ?_ ?_
            · change truthy? ((definedFields _).get? "preCode") = false
              simpa [OwnTask.dbFields, get?_definedFields_cons, get?_definedFields_nil]
                using isPreCode
            · change truthy? ((definedFields _).get? "outsideTask") = false
              simp [get?_definedFields_cons, get?_definedFields_nil]
          · exact absurd (right.1 fields preCode rfl) (by rw [isPreCode]; decide)

/-! ## Outside tasks -/

/-- An outside task that was built has the result of a raw one, or none. -/
theorem of_buildOutsideTask {type rawResult : Option Json} {task : OutsideTask}
    (built : buildOutsideTask parse type rawResult = .ok (some task)) {result : Result}
    (hasResult : task.result = some result) :
    rawClass type = some result.cls ∧ Built result ∧
      result.status = some (.str result.cls.rawStatus) ∧
      task = OutsideTask.new type result := by
  obtain ⟨raw, rawBuilt, same⟩ := bind_eq_ok.mp built
  cases raw with
  | none => cases same
  | some raw =>
      cases same
      obtain ⟨cls, fields, isClass, rfl, has, rfl⟩ := of_buildFromRaw rawBuilt
      obtain rfl : storedResult cls fields = result := by
        change (OutsideTask.setResult _ (storedResult cls fields)).result = _ at hasResult
        rw [OutsideTask.setResult] at hasResult
        split at hasResult
        · exact Option.some.inj hasResult
        · cases hasResult
      refine ⟨isClass, ⟨setField "status" (.str cls.rawStatus) fields, ?_, ?_⟩, rfl, rfl⟩
      · exact (hasExpected_setField_status cls fields _).mpr has
      · exact (ofFields_setField_status cls fields).symm

theorem toDbJson_obj (result : Result) :
    ∃ fields, result.toDbJson = .obj fields ∧ fields.lookup "status" = result.status := by
  obtain ⟨fields, isRecord⟩ : ∃ fields, result.toDbJson = .obj fields := by
    rw [Result.toDbJson]
    split <;> exact ⟨_, rfl⟩
  refine ⟨fields, isRecord, ?_⟩
  rw [← toDbJson_status, isRecord]
  rfl

/-- A raw result that has its status already is built again. -/
theorem buildOutsideTask_toDbJson {type : Option Json} {result : Result}
    (isClass : rawClass type = some result.cls) (built : Built result)
    (isStatus : result.status = some (.str result.cls.rawStatus)) :
    buildOutsideTask parse type (some result.toDbJson) =
      .ok (some (OutsideTask.new type result)) := by
  obtain ⟨fields, isRecord, hasStatus⟩ := toDbJson_obj result
  have assigned : assignStatus result.cls.rawStatus (some result.toDbJson) =
      .ok result.toDbJson := by
    rw [isRecord, assignStatus, setField_of_lookup (hasStatus.trans isStatus)]
  rw [Tasks.buildOutsideTask, buildFromRaw, isClass]
  simp only [assigned]
  change (buildResult parse result.cls (some result.toDbJson) >>= _) = _
  rw [built.buildResult]
  rfl

/-- An outside task is loaded as it was exactly if its result has the status that the
loader writes. -/
theorem reloads_outside_iff {type rawResult : Option Json} {task : OutsideTask} {result : Result}
    (built : buildOutsideTask parse type rawResult = .ok (some task))
    (hasResult : task.result = some result) (status : Option Json) :
    Reloads parse (.outside { task with result := some { result with status := status } }) ↔
      status = some (.str result.cls.rawStatus) := by
  obtain ⟨isClass, isBuilt, isStatus, isNew⟩ := of_buildOutsideTask built hasResult
  constructor
  · rintro ⟨record, serialized, loads⟩
    cases serialized
    obtain ⟨loaded, fromDb, isOutside⟩ := bind_eq_ok.mp loads
    cases loaded with
    | none => cases isOutside
    | some loaded =>
        have same := StoredTask.outside.inj (Option.some.inj (Except.ok.inj isOutside))
        rw [OutsideTask.fromDbJson] at fromDb
        split at fromDb
        · have hasStatus := (of_buildOutsideTask fromDb (congrArg OutsideTask.result same)).2.2.1
          exact hasStatus
        · cases fromDb
  · rintro rfl
    have same : { result with status := some (.str result.cls.rawStatus) } = result := by
      rw [← isStatus]
    have sameTask : { task with result := some result } = task := by
      rw [← hasResult]
    rw [same, sameTask]
    have isType : task.type = type := by
      rw [isNew, OutsideTask.new, OutsideTask.setResult]
      split <;> rfl
    have truthyStatus : (Json.str result.cls.rawStatus).truthy = true := by
      cases result.cls <;> rfl
    cases type with
    | none => cases isClass
    | some type =>
        refine ⟨definedFields [("outsideTask", some (.bool true)),
          ("status", some (.str result.cls.rawStatus)), ("type", some type),
          ("taskId", some (task.taskId.elim .null .str)), ("result", some result.toDbJson)], ?_, ?_⟩
        · rw [serializeTask, OutsideTask.toDbJson, hasResult, isType]
          simp only [isStatus]
        · change ((if (Json.str result.cls.rawStatus).truthy = true then
            buildOutsideTask parse (some type) (some result.toDbJson) else _) >>= _) = _
          rw [if_pos truthyStatus, buildOutsideTask_toDbJson isClass isBuilt isStatus, ← isNew]
          rfl

/-! ## Every stored task -/

/-- Whether a stored task is loaded as it was. The pre-code of a deployment has to be
truthy, the class of a result has to follow from its status, and the failure of a
submission in Ethereum is forgotten. -/
theorem reloads_iff {task : StoredTask} (stored : Stored parse task) :
    Reloads parse task ↔ ReloadHarmless task := by
  cases stored with
  | inProgress valued =>
      refine reloads_own_iff valued ?_ ?_ ?_
      · intro result isResult
        cases isResult
      · rfl
      -- A task in progress is not finished, and has no result.
      · exact iff_of_false Bool.false_ne_true (not_not.mpr rfl)
  | @finished task valued result built sameId =>
      have set : OwnTask.setResult ⟨task, .str TaskStatus.inProgress, none⟩ (some result) =
          ⟨task, .str (if result.isSuccess then TaskStatus.success else TaskStatus.failed),
            some result⟩ := by
        have own : result.taskId =
          some (OwnTask.idJson ⟨task, .str TaskStatus.inProgress, none⟩) := sameId
        rw [OwnTask.setResult]
        exact if_pos own
      rw [set]
      refine reloads_own_iff valued ?_ ?_ ?_
      · rintro _ ⟨rfl⟩
        exact ⟨built, sameId, rfl⟩
      · cases result.isSuccess <;> rfl
      · refine iff_of_true ?_ (Option.some_ne_none _)
        rw [OwnTask.isFinished]
        cases result.isSuccess <;> rfl
  | @outside type rawResult task built attached =>
      obtain ⟨result, hasResult⟩ := Option.ne_none_iff_exists'.mp attached
      have isStatus := (of_buildOutsideTask built hasResult).2.2.1
      have same : { task with result := some { result with status := result.status } } = task := by
        rw [← hasResult]
      have reloads := @reloads_outside_iff parse _ _ _ _ built hasResult result.status
      rw [same] at reloads
      rw [reloads]
      refine iff_of_true isStatus fun other isResult => ?_
      cases hasResult.symm.trans isResult
      exact isStatus
  | @ethereumFailure type rawResult status task failed built isFailed =>
      rw [OutsideTask.setResultStatus] at isFailed
      split at isFailed
      · cases isFailed
      · rename_i result hasResult
        cases isFailed
        rw [reloads_outside_iff built hasResult status]
        constructor
        · rintro isStatus _ ⟨rfl⟩
          exact isStatus
        · intro right
          exact right _ rfl

/-- A deployment in progress. -/
def deploymentOf (preCode : String) : OwnTask where
  task := .deploy ⟨some "aa", some "bb", some (.str "03"), some (.str "02"), some (.str "05"),
    some (.num 7), some (.num 3)⟩ (some (.str preCode))
  status := .str TaskStatus.inProgress
  result := none

/-- No result is a text. -/
def noTexts : String → Except Exn Json := fun _ => .error .error

theorem deploymentOf_stored (preCode : String) :
    Stored noTexts (.own (deploymentOf preCode)) := by
  refine .inProgress ⟨nofun, nofun, nofun, nofun, nofun, nofun, ?_⟩
  rintro _ _ ⟨rfl⟩
  exact Option.some_ne_none _

theorem reloads_iff_deployment :
    Reloads noTexts (.own (deploymentOf "01")) ↔ ReloadHarmless (.own (deploymentOf "01")) :=
  reloads_iff (deploymentOf_stored "01")

/-- The raw result of a computation elsewhere. -/
def rawComputation : Json :=
  .obj [("taskId", .str "aa"), ("status", .str TaskStatus.success), ("output", .str "05"),
    ("delta", .null), ("usedGas", .num 1), ("ethereumPayload", .str ""),
    ("ethereumAddress", .str ""), ("signature", .str "")]

/-- The result of that computation, whose submission failed in Ethereum: the constant that
is written as its status is `undefined`. -/
def failedInEthereum : OutsideTask where
  taskId := some "aa"
  type := some (.str CoreRequests.computeTask)
  status := TaskStatus.success
  result := some ⟨.compute, some (.str "aa"), none, some (.str "05"), some .null, some (.num 1),
    some (.str ""), some (.str ""), some (.str ""), none⟩

/-- A deployment with an empty pre-code is loaded as a computation, and the result of a
computation that failed in Ethereum as `null`. -/
theorem not_reloads :
    Stored noTexts (.own (deploymentOf "")) ∧ ¬ Reloads noTexts (.own (deploymentOf "")) ∧
    Stored noTexts (.outside failedInEthereum) ∧
      ¬ Reloads noTexts (.outside failedInEthereum) := by
  refine ⟨deploymentOf_stored "", ?_, ?_, ?_⟩
  · rintro ⟨record, ⟨rfl⟩, loads⟩
    exact absurd loads (by decide)
  · exact @Stored.ethereumFailure noTexts (some (.str CoreRequests.computeTask))
      (some rawComputation) none
      (OutsideTask.new (some (.str CoreRequests.computeTask))
        (storedResult .compute [("taskId", .str "aa"), ("output", .str "05"), ("delta", .null),
          ("usedGas", .num 1), ("ethereumPayload", .str ""), ("ethereumAddress", .str ""),
          ("signature", .str "")])) failedInEthereum (by decide) (by decide)
  · rintro ⟨record, ⟨rfl⟩, loads⟩
    exact absurd loads (by decide)

/-! ## Queries -/

/-- `_getAllDbTasks`, without the ids. -/
def getAllDbTasks (parse : String → Except Exn Json) (records : List Json) :
    Except Exn (List (Option StoredTask)) :=
  records.mapM (deserializeTask parse)

/-- `isFinished()` of any task. -/
def StoredTask.isFinished : StoredTask → Bool
  | .own task => task.isFinished
  | .outside task => task.status = TaskStatus.success || task.status = TaskStatus.failed

/-- The filter of `asyncGetFinishedTasks`, which throws at a `null`. -/
def finishedTasks : List (Option StoredTask) → Except Exn (List StoredTask)
  | [] => .ok []
  | none :: _ => .error .typeError
  | some task :: rest => do
      let finished ← finishedTasks rest
      pure (if task.isFinished then task :: finished else finished)

/-- If every stored task is loaded as it was, the queries see all of them. -/
theorem getAllDbTasks_of_reloads {tasks : List StoredTask} {records : List Json}
    (written : List.Forall₂ (fun task record => serializeTask task = .ok record) tasks records)
    (reload : ∀ task ∈ tasks, Reloads parse task) :
    getAllDbTasks parse records = .ok (tasks.map some) ∧
      finishedTasks (tasks.map some) = .ok (tasks.filter (·.isFinished)) := by
  induction written with
  | nil => exact ⟨rfl, rfl⟩
  | @cons task record tasks records isRecord rest ih =>
      obtain ⟨first, later⟩ := List.forall_mem_cons.mp reload
      obtain ⟨all, finished⟩ := ih later
      obtain ⟨record', serialized, loads⟩ := first
      cases isRecord.symm.trans serialized
      constructor
      · rw [getAllDbTasks, List.mapM_cons, loads]
        change (getAllDbTasks parse records >>= _) = _
        rw [all]
        rfl
      · rw [List.map_cons, finishedTasks, finished, List.filter_cons]
        rfl

end Tasks
