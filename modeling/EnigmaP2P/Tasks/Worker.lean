import EnigmaP2P.Tasks.KeyTransfer
import EnigmaP2P.Tasks.Lifecycle
import EnigmaP2P.Tasks.Publication

/-!
# A worker from submission to publication

The controller connects the actions by the notifications of the task manager: a task that is
added is verified, a verified one waits for the end of a transfer of state keys or is
executed, the answer of the core finishes it, and a finished one is published. Results of
other workers are stored in between. The state is that of the manager, with its database,
and that of the key transfer, and every answer from outside comes at any time.

A task object is shared: the verification writes its gas limit and block number into the
object that is in the pool. Accepted tasks are known by their number, as in the manager.
-/

namespace Tasks

open Js Common Transition ManagerState

/-! ## Verification -/

/-- What the verification of a new task comes to: the node has no Ethereum, something throws,
or the verifier answers. -/
inductive VerifyAnswer where
  | noEthereum
  | threw
  | answered (error : Option String) (isVerified : Bool) (gasLimit blockNumber : Option Json)
  deriving DecidableEq

/-- `isVerified` at the end of `VerifyNewTaskAction`. -/
def VerifyAnswer.isVerified : VerifyAnswer → Bool
  | noEthereum => true
  | threw => false
  | answered error isVerified _ _ => error.isNone && isVerified

/-- `setGasLimit` and `setBlockNumber`. -/
def TaskFields.setLimits (fields : TaskFields) (gasLimit blockNumber : Option Json) : TaskFields :=
  { fields with gasLimit, blockNumber }

def Task.setLimits (gasLimit blockNumber : Option Json) : Task → Task
  | .deploy fields preCode => .deploy (fields.setLimits gasLimit blockNumber) preCode
  | .compute fields => .compute (fields.setLimits gasLimit blockNumber)

/-- The task object after its verification. -/
def VerifyAnswer.apply (answer : VerifyAnswer) (task : Task) : Task :=
  match answer with
  | answered _ _ gasLimit blockNumber =>
      if answer.isVerified then task.setLimits gasLimit blockNumber else task
  | _ => task

/-- The object in the pool is the one that the verification with this number changes. -/
def Pooled.changedBy (serial : Nat) (answer : VerifyAnswer) (pooled : Pooled) : Pooled :=
  if pooled.serial = serial then
    { pooled with task := { pooled.task with task := answer.apply pooled.task.task } }
  else pooled

def ManagerState.applyTo (state : ManagerState) (serial : Nat) (answer : VerifyAnswer) :
    ManagerState :=
  { state with pool := state.pool.map fun entry => (entry.1, entry.2.changedBy serial answer) }

/-! ## The worker -/

/-- A task that the manager accepted, as it was submitted, and the answer that its verification
got. -/
structure AcceptedTask where
  task : Task
  answer : Option VerifyAnswer
  deriving DecidableEq

/-- The task object as it is now. -/
def AcceptedTask.current (accepted : AcceptedTask) : Task :=
  match accepted.answer with
  | some answer => answer.apply accepted.task
  | none => accepted.task

/-- Its key in the pool and in the database. -/
def AcceptedTask.key (accepted : AcceptedTask) : String :=
  orNull accepted.task.getTaskId

/-- The requests to the core are known by their number among those that were sent. The last
four fields are observations: the accepted tasks, the requests that were answered, the
results that were built from answers, and what was published. -/
structure WorkerState where
  manager : ManagerState
  ptt : PttState
  accepted : List AcceptedTask
  answered : List Nat
  results : List (Nat × Result)
  published : List (StoredTask × Result)

def WorkerState.initial (db : List (String × Json)) : WorkerState :=
  ⟨.initial db, .initial, [], [], [], []⟩

inductive WorkerLabel where
  /-- A request arrives on the topic of the worker. -/
  | start (type : Option Json) (request : List (String × Json))
  /-- The verification of the task with this number ends. -/
  | verify (serial : Nat) (answer : VerifyAnswer)
  /-- The database performs a request of the manager, or its callback runs. -/
  | perform (i : Nat) (fails : Bool)
  | callback (i : Nat)
  /-- A new epoch starts a transfer of state keys, or the transfer gets an answer. -/
  | newEpoch
  | pttAnswer (isError : Bool)
  /-- The core answers a request for a task, or the channel to it fails. -/
  | coreResult (i : Nat) (response : Except Exn Json)
  /-- A result of another worker is stored. -/
  | outside (type : Option Json) (resultObj : Json) (ethereumFailure : Bool)

/-- The task of `StartTaskExecutionAction`; `none` is `null`. A deployment takes its contract
address as id, and without one it is not built. -/
def buildTask (type : Option Json) (request : List (String × Json)) : Option Task :=
  let request := setField "blockNumber" (.num 0) (setField "gasLimit" (.num 0) request)
  if type = some (.str CoreRequests.deploySecretContract) then
    buildDeployTask (match request.lookup "contractAddress" with
      | some address => setField "taskId" address request
      | none => request)
  else if type = some (.str CoreRequests.computeTask) then buildComputeTask request
  else none

/-- `addOutsideResult` with the task of `VerifyAndStoreResultAction`. -/
def outsideTask (parse : String → Except Exn Json) (type : Option Json) (resultObj : Json)
    (ethereumFailure : Bool) : Except Exn (Option OutsideTask) := do
  match ← buildOutsideTask parse type (some resultObj) with
  | none => pure none
  | some task => if ethereumFailure then (task.setResultStatus none).map some else pure (some task)

/-- The database refuses a key that is `null`. -/
def DbWork.hasKey : DbWork → Bool
  | verify _ task _ | store (.own task) _ => task.task.getTaskId.isSome
  | store (.outside task) _ | outside task _ => task.taskId.isSome
  | read .. | erase .. | remove _ => true

namespace WorkerState

variable (parse : String → Except Exn Json)

/-- `StartTaskExecutionAction`; the verification of an accepted task starts. -/
def start (state : WorkerState) (type : Option Json) (request : List (String × Json)) :
    WorkerState :=
  match buildTask type request with
  | none => state
  | some task =>
      let manager := addTaskUnverified (some ⟨task, .str TaskStatus.unverified, none⟩) state.manager
      if manager.accepted = state.manager.accepted then state
      else { state with manager, accepted := state.accepted ++ [⟨task, none⟩] }

/-- The end of `VerifyNewTaskAction`. -/
def verify (state : WorkerState) (serial : Nat) (answer : VerifyAnswer) : WorkerState :=
  match state.accepted[serial]? with
  | some ⟨task, none⟩ =>
      { state with
        manager := onVerifyTask (orNull task.getTaskId) answer.isVerified
          (state.manager.applyTo serial answer)
        accepted := state.accepted.set serial ⟨task, some answer⟩ }
  | _ => state

/-- What the notification of a callback of the database starts. -/
def notify (state : WorkerState) (request : DbRequest) : WorkerState :=
  match request with
  | ⟨.verify _ task _, .replied .done⟩ =>
      { state with ptt := state.ptt.handleVerifiedTask task.task }
  | ⟨.store task _, .replied .done⟩ =>
      { state with published := state.published ++ (task.getResult.map (task, ·)).toList }
  | _ => state

/-- A callback of the database. -/
def callback (state : WorkerState) (i : Nat) : WorkerState :=
  match state.manager.requests[i]? with
  | none => state
  | some request =>
      notify { state with manager := managerStep parse state.manager (.callback i) } request

/-- A request is answered once; a result that is built finishes its task. -/
def coreResult (state : WorkerState) (i : Nat) (response : Except Exn Json) : WorkerState :=
  match state.ptt.sent[i]? with
  | none => state
  | some request =>
      if i ∈ state.answered then state
      else
        let state := { state with answered := state.answered ++ [i] }
        match response with
        | .error _ => state
        | .ok response =>
            match onCoreResponse parse request.arrival.task response with
            | [.finishes result] =>
                { state with
                  manager := onFinishTask result state.manager
                  results := state.results ++ [(i, result)] }
            | _ => state

end WorkerState

open WorkerState

def workerStep (parse : String → Except Exn Json) (state : WorkerState) : WorkerLabel → WorkerState
  | .start type request => state.start type request
  | .verify serial answer => state.verify serial answer
  | .perform i fails =>
      match state.manager.requests[i]? with
      | none => state
      | some request => { state with
          manager := managerStep parse state.manager (.perform i (fails || !request.work.hasKey)) }
  | .callback i => state.callback parse i
  | .newEpoch => { state with ptt := pttStep state.ptt .newEpoch }
  | .pttAnswer isError => { state with ptt := pttStep state.ptt (.answer isError) }
  | .coreResult i response => state.coreResult parse i response
  | .outside type resultObj ethereumFailure =>
      match outsideTask parse type resultObj ethereumFailure with
      | .ok task => { state with manager := addOutsideResult task state.manager }
      | .error _ => state

/-! ## Task objects -/

@[simp] theorem getTaskId_setLimits (task : Task) (gasLimit blockNumber : Option Json) :
    (task.setLimits gasLimit blockNumber).getTaskId = task.getTaskId := by
  cases task <;> rfl

@[simp] theorem VerifyAnswer.getTaskId_apply (answer : VerifyAnswer) (task : Task) :
    (answer.apply task).getTaskId = task.getTaskId := by
  cases answer with
  | answered error isVerified gasLimit blockNumber =>
      rw [VerifyAnswer.apply]
      split
      · exact getTaskId_setLimits task gasLimit blockNumber
      · rfl
  | _ => rfl

theorem AcceptedTask.getTaskId_current (accepted : AcceptedTask) :
    accepted.current.getTaskId = accepted.task.getTaskId := by
  rw [AcceptedTask.current]
  split
  · exact VerifyAnswer.getTaskId_apply _ _
  · rfl

/-- A pooled task has the key of its object. -/
theorem key_own (task : OwnTask) : (StoredTask.own task).key = orNull task.task.getTaskId := rfl

theorem lookup_applyTo (state : ManagerState) (serial : Nat) (answer : VerifyAnswer)
    (key : String) : (state.applyTo serial answer).pool.lookup key =
      (state.pool.lookup key).map (Pooled.changedBy serial answer) :=
  lookup_mapValue _ _ _

@[simp] theorem Pooled.serial_changedBy (serial : Nat) (answer : VerifyAnswer) (pooled : Pooled) :
    (pooled.changedBy serial answer).serial = pooled.serial := by
  rw [Pooled.changedBy]
  split <;> rfl

/-- The object has its key before and after. -/
theorem Pooled.key_changedBy (serial : Nat) (answer : VerifyAnswer) (pooled : Pooled) :
    (StoredTask.own (pooled.changedBy serial answer).task).key =
      (StoredTask.own pooled.task).key := by
  rw [Pooled.changedBy]
  split
  · rw [key_own, VerifyAnswer.getTaskId_apply, key_own]
  · rfl

theorem serialAt_applyTo (state : ManagerState) (serial : Nat) (answer : VerifyAnswer)
    (key : String) :
    serialAt (state.applyTo serial answer).pool key = serialAt state.pool key := by
  rw [serialAt, serialAt, lookup_applyTo, Option.map_map]
  exact congrArg (Option.map · _) (funext (Pooled.serial_changedBy serial answer))

/-- The numbers and the keys are those before the object was changed. -/
theorem SerialInv.applyTo {state : ManagerState} (inv : SerialInv state) (serial : Nat)
    (answer : VerifyAnswer) : SerialInv (state.applyTo serial answer) := by
  refine inv.of_fewer ?_ ?_ rfl rfl fun _ _ _ _ phase active => ⟨phase, active⟩
  · intro key other found
    rwa [serialAt_applyTo] at found
  · intro key entry found
    rw [lookup_applyTo] at found
    obtain ⟨before, isBefore, rfl⟩ := Option.map_eq_some_iff.mp found
    exact (Pooled.key_changedBy serial answer before).trans (inv.keys key before isBefore)

/-! ## Accepted tasks and their verification -/

/-- The task with this number is verified, and this is its object. -/
def Verified (tasks : List AcceptedTask) (serial : Nat) (task : Task) : Prop :=
  ∃ accepted answer, tasks[serial]? = some accepted ∧ accepted.answer = some answer ∧
    answer.isVerified = true ∧ task = accepted.current

/-- A pooled task is the object of its number; a task whose verification has not ended is in
the pool, and a verdict is stored and announced only for a verified one. -/
structure VerifiedInv (manager : ManagerState) (tasks : List AcceptedTask) : Prop where
  serials : SerialInv manager
  length : tasks.length = manager.accepted
  pooled : ∀ key entry, manager.pool.lookup key = some entry →
    ∃ accepted, tasks[entry.serial]? = some accepted ∧ entry.task.task = accepted.current
  unanswered : ∀ serial accepted, tasks[serial]? = some accepted → accepted.answer = none →
    serialAt manager.pool accepted.key = some serial
  storing : ∀ i serial task record phase, manager.Active i (.verify serial task record) phase →
    Verified tasks serial task.task ∧
      serialAt manager.pool (StoredTask.own task).key = some serial
  announced : ∀ serial ∈ manager.verified, ∃ task, Verified tasks serial task

theorem verifiedInv_initial (db : List (String × Json)) : VerifiedInv (.initial db) [] where
  serials := serialInv_initial db
  length := rfl
  pooled := by
    intro key entry found
    cases found
  unanswered := by
    intro serial accepted found
    cases found
  storing := fun _ _ _ _ _ active => absurd active not_active_initial
  announced := fun _ member => absurd member List.not_mem_nil

section

variable {parse : String → Except Exn Json} {manager after : ManagerState}
  {tasks : List AcceptedTask}

/-- The verified tasks stay verified when one more is accepted. -/
theorem Verified.accept {serial : Nat} {task : Task} (verified : Verified tasks serial task)
    (accepted : AcceptedTask) : Verified (tasks ++ [accepted]) serial task := by
  obtain ⟨other, answer, found, rest⟩ := verified
  exact ⟨other, answer, getElem?_concat_eq_some.mpr (.inl found), rest⟩

/-- They do so when the verification of another one ends. -/
theorem Verified.answer {serial other : Nat} {task unverified : Task}
    (verified : Verified tasks serial task) (open_ : tasks[other]? = some ⟨unverified, none⟩)
    (answer : VerifyAnswer) :
    Verified (tasks.set other ⟨unverified, some answer⟩) serial task := by
  obtain ⟨accepted, isAnswer, found, hasAnswer, rest⟩ := verified
  refine ⟨accepted, isAnswer, ?_, hasAnswer, rest⟩
  rw [List.getElem?_set_ne, found]
  rintro rfl
  rw [open_] at found
  cases found
  cases hasAnswer

/-- What does not touch the pool, the numbers and the verdicts in flight is no matter. -/
theorem VerifiedInv.of_same (inv : VerifiedInv manager tasks) (serials : SerialInv after)
    (total : after.accepted = manager.accepted) (pool : after.pool = manager.pool)
    (verified : after.verified = manager.verified)
    (active : ∀ i serial task record phase, after.Active i (.verify serial task record) phase →
      ∃ before, manager.Active i (.verify serial task record) before) :
    VerifiedInv after tasks := by
  refine ⟨serials, ?_, ?_, ?_, ?_, ?_⟩
  · rw [total]
    exact inv.length
  · rw [pool]
    exact inv.pooled
  · rw [pool]
    exact inv.unanswered
  · intro i serial task record phase isActive
    obtain ⟨before, wasActive⟩ := active i serial task record phase isActive
    rw [pool]
    exact inv.storing i serial task record before wasActive
  · rw [verified]
    exact inv.announced

/-- A task is added under the next number, or nothing changes. -/
theorem addTaskUnverified_cases (task : OwnTask) (manager : ManagerState) :
    addTaskUnverified (some task) manager = manager ∨
      (manager.isUnverifiedInPool (StoredTask.own task).key = false ∧
        addTaskUnverified (some task) manager = { manager with
          pool := setField (StoredTask.own task).key ⟨manager.accepted, task⟩ manager.pool
          accepted := manager.accepted + 1 }) := by
  rw [addTaskUnverified]
  split
  · exact .inl rfl
  · rename_i notPooled
    exact .inr ⟨Bool.eq_false_iff.mpr notPooled, rfl⟩

theorem VerifiedInv.add (inv : VerifiedInv manager tasks) (task : Task)
    (free : manager.isUnverifiedInPool (orNull task.getTaskId) = false) :
    VerifiedInv { manager with
      pool := setField (orNull task.getTaskId)
        ⟨manager.accepted, ⟨task, .str TaskStatus.unverified, none⟩⟩ manager.pool
      accepted := manager.accepted + 1 } (tasks ++ [⟨task, none⟩]) := by
  have serials := inv.serials.add (some ⟨task, .str TaskStatus.unverified, none⟩)
  rcases addTaskUnverified_cases ⟨task, .str TaskStatus.unverified, none⟩ manager with
    same | ⟨-, added⟩
  · have total := congrArg ManagerState.accepted same
    rw [addTaskUnverified, if_neg] at total
    · exact absurd total (Nat.succ_ne_self _)
    · rw [key_own, free]
      exact Bool.false_ne_true
  rw [added] at serials
  have notFree : ∀ {key serial}, serialAt manager.pool key = some serial →
      key ≠ orNull task.getTaskId := by
    rintro key serial found rfl
    rw [serialAt, lookup_of_hasProperty_eq_false free] at found
    cases found
  refine ⟨serials, ?_, ?_, ?_, ?_, ?_⟩
  · rw [List.length_append, inv.length]
    rfl
  · intro key entry found
    rw [lookup_setField] at found
    split at found
    · cases found
      exact ⟨⟨task, none⟩, getElem?_concat_eq_some.mpr (.inr ⟨inv.length.symm, rfl⟩), rfl⟩
    · obtain ⟨accepted, isAccepted, same⟩ := inv.pooled key entry found
      exact ⟨accepted, getElem?_concat_eq_some.mpr (.inl isAccepted), same⟩
  · intro serial accepted found unanswered
    refine (serialAt_setField _ _ _ _).trans ?_
    rcases getElem?_concat_eq_some.mp found with before | ⟨atEnd, rfl⟩
    · have here := inv.unanswered serial accepted before unanswered
      rw [if_neg (notFree here), here]
    · have isKey : AcceptedTask.key ⟨task, none⟩ = orNull task.getTaskId := rfl
      rw [if_pos isKey, atEnd, inv.length]
  · intro i serial task' record phase active
    obtain ⟨verified, here⟩ := inv.storing i serial task' record phase active
    refine ⟨verified.accept _, (serialAt_setField _ _ _ _).trans ?_⟩
    rw [if_neg (notFree here), here]
  · exact fun serial member => (inv.announced serial member).imp fun _ verified =>
      verified.accept _

/-- A verdict changes statuses in the pool only, and asks to store a task of the pool. -/
structure VerdictEffect (before after : ManagerState) (key : String) (isVerified : Bool) :
    Prop where
  accepted : after.accepted = before.accepted
  verified : after.verified = before.verified
  pool : ∀ other entry, after.pool.lookup other = some entry →
    ∃ old, before.pool.lookup other = some old ∧ entry.serial = old.serial ∧
      entry.task.task = old.task.task
  serialAt : ∀ other, serialAt after.pool other = serialAt before.pool other
  active : ∀ i work phase, after.Active i work phase → before.Active i work phase ∨
    ∃ entry record, before.pool.lookup key = some entry ∧ isVerified = true ∧
      work = .verify entry.serial entry.task.setInProgressStatus record ∧
      serializeTask (.own entry.task.setInProgressStatus) = .ok record

theorem verdictEffect_onVerifyTask (key : String) (isVerified : Bool) (before : ManagerState) :
    VerdictEffect before (onVerifyTask key isVerified before) key isVerified := by
  cases pooled : before.pool.lookup key with
  | none =>
      rw [onVerifyTask, pooled]
      exact ⟨rfl, rfl, fun _ entry found => ⟨entry, found, rfl, rfl⟩, fun _ => rfl,
        fun _ _ _ active => .inl active⟩
  | some entry =>
      obtain ⟨serial, task⟩ := entry
      rw [onVerifyTask, pooled]
      cases isVerified with
      | false =>
          exact ⟨rfl, rfl, fun _ entry found => ⟨entry, found, rfl, rfl⟩, fun _ => rfl,
            fun _ _ _ active => .inl active⟩
      | true =>
          obtain ⟨record, written⟩ := serializeTask_inProgress task
          simp only [if_true, written]
          refine ⟨rfl, rfl, ?_, ?_, ?_⟩
          · intro other entry found
            have isEntry : (setField key ⟨serial, task.setInProgressStatus⟩ before.pool).lookup
                other = some entry := found
            rw [lookup_setField] at isEntry
            split at isEntry
            · rename_i same
              cases isEntry
              exact ⟨⟨serial, task⟩, same ▸ pooled, rfl, rfl⟩
            · exact ⟨entry, isEntry, rfl, rfl⟩
          · intro other
            refine (serialAt_setField before.pool key other _).trans ?_
            split
            · rename_i same
              rw [same, serialAt, pooled]
              rfl
            · rfl
          · intro i work phase active
            rcases active_ask.mp active with old | ⟨-, rfl, -⟩
            · exact .inl old
            · exact .inr ⟨⟨serial, task⟩, record, pooled, rfl, rfl, written⟩

/-- The end of a verification, which is the first one for its task. -/
theorem VerifiedInv.verify (inv : VerifiedInv manager tasks) {serial : Nat} {task : Task}
    (found : tasks[serial]? = some ⟨task, none⟩) (answer : VerifyAnswer) :
    VerifiedInv (onVerifyTask (orNull task.getTaskId) answer.isVerified
      (manager.applyTo serial answer)) (tasks.set serial ⟨task, some answer⟩) := by
  have here : serialAt manager.pool (orNull task.getTaskId) = some serial :=
    inv.unanswered serial ⟨task, none⟩ found rfl
  have unstored : ∀ i task' record phase,
      ¬ manager.Active i (.verify serial task' record) phase := by
    intro i task' record phase active
    obtain ⟨⟨accepted, other, isAccepted, isAnswer, -⟩, -⟩ :=
      inv.storing i serial task' record phase active
    rw [found] at isAccepted
    cases isAccepted
    cases isAnswer
  have effect := verdictEffect_onVerifyTask (orNull task.getTaskId) answer.isVerified
    (manager.applyTo serial answer)
  have isNow : (tasks.set serial ⟨task, some answer⟩)[serial]? = some ⟨task, some answer⟩ :=
    List.getElem?_set_self (List.getElem?_eq_some_iff.mp found).1
  have others : ∀ {other}, other ≠ serial →
      (tasks.set serial ⟨task, some answer⟩)[other]? = tasks[other]? :=
    fun differs => List.getElem?_set_ne (Ne.symm differs)
  have objects : ∀ key old, (manager.applyTo serial answer).pool.lookup key = some old →
      ∃ accepted, (tasks.set serial ⟨task, some answer⟩)[old.serial]? = some accepted ∧
        old.task.task = accepted.current := by
    intro key old isOld
    rw [lookup_applyTo] at isOld
    obtain ⟨entry, isEntry, rfl⟩ := Option.map_eq_some_iff.mp isOld
    obtain ⟨accepted, isAccepted, same⟩ := inv.pooled key entry isEntry
    rw [Pooled.serial_changedBy, Pooled.changedBy]
    by_cases isSerial : entry.serial = serial
    · rw [isSerial] at isAccepted ⊢
      rw [found] at isAccepted
      cases isAccepted
      refine ⟨_, isNow, ?_⟩
      rw [if_pos rfl]
      exact congrArg answer.apply same
    · rw [others isSerial, if_neg isSerial]
      exact ⟨accepted, isAccepted, same⟩
  refine ⟨?_, ?_, ?_, ?_, ?_, ?_⟩
  · refine (inv.serials.applyTo serial answer).verdict fun _ other isThere i => ?_
    rw [serialAt_applyTo, here] at isThere
    cases isThere
    exact unstored i
  · rw [List.length_set, effect.accepted]
    exact inv.length
  · intro key entry isEntry
    obtain ⟨old, isOld, sameSerial, sameTask⟩ := effect.pool key entry isEntry
    rw [sameSerial, sameTask]
    exact objects key old isOld
  · intro other accepted isAccepted unanswered
    have differs : other ≠ serial := by
      rintro rfl
      rw [isNow] at isAccepted
      cases isAccepted
      cases unanswered
    rw [effect.serialAt, serialAt_applyTo]
    exact inv.unanswered other accepted (others differs ▸ isAccepted) unanswered
  · intro i other task' record phase active
    rcases effect.active i _ phase active with
      before | ⟨entry, _, isEntry, verified, ⟨rfl⟩, -⟩
    · rw [effect.serialAt, serialAt_applyTo]
      exact (inv.storing i other task' record phase before).imp_left (·.answer found answer)
    · obtain ⟨accepted, isAccepted, isTask⟩ := objects _ entry isEntry
      have isSerial : entry.serial = serial := by
        have there := serialAt_applyTo manager serial answer (orNull task.getTaskId)
        rw [here, serialAt, isEntry] at there
        exact Option.some.inj there
      rw [isSerial, isNow] at isAccepted
      cases isAccepted
      have sameTask : entry.task.setInProgressStatus.task =
          AcceptedTask.current ⟨task, some answer⟩ := isTask
      rw [effect.serialAt, serialAt_applyTo, isSerial, key_own, sameTask,
        AcceptedTask.getTaskId_current]
      exact ⟨⟨_, answer, isNow, rfl, verified, rfl⟩, here⟩
  · intro other member
    rw [effect.verified] at member
    exact (inv.announced other member).imp fun _ verified => verified.answer found answer

/-- What the database does for a request leaves the pool, the numbers and the other requests as
they are. -/
structure SamePool (before after : ManagerState) : Prop where
  pool : after.pool = before.pool
  accepted : after.accepted = before.accepted
  verified : after.verified = before.verified
  active : ∀ i work phase, after.Active i work phase → ∃ old, before.Active i work old

theorem samePool_perform (manager : ManagerState) (i : Nat) (fails : Bool) :
    SamePool manager (managerStep parse manager (.perform i fails)) := by
  rw [managerStep]
  split
  · rename_i work found
    have phases : ∀ (performed : ManagerState) (reply : DbReply),
        performed.requests = manager.requests → ∀ j other phase,
          (performed.setPhase i (.replied reply)).Active j other phase →
          ∃ old, manager.Active j other old := by
      intro performed reply requests j other phase active
      obtain ⟨-, before, going⟩ | ⟨rfl, -, before, isWork⟩ := of_active_setPhase active
      · exact ⟨phase, requests ▸ before, going⟩
      · rw [requests, found] at isWork
        cases isWork
        exact ⟨.waiting, active_of_waiting found⟩
    split
    · exact ⟨rfl, rfl, rfl, phases manager .failed rfl⟩
    · cases work with
      | read taskId result =>
          cases stored : manager.db.lookup taskId with
          | none =>
              simp only [performWork, stored]
              exact ⟨rfl, rfl, rfl, phases manager .failed rfl⟩
          | some record =>
              simp only [performWork, stored]
              exact ⟨rfl, rfl, rfl, phases manager (.found record) rfl⟩
      | _ => exact ⟨rfl, rfl, rfl, phases _ .done rfl⟩
  · exact ⟨rfl, rfl, rfl, fun _ _ phase active => ⟨phase, active⟩⟩

theorem VerifiedInv.perform (inv : VerifiedInv manager tasks) (i : Nat) (fails : Bool) :
    VerifiedInv (managerStep parse manager (.perform i fails)) tasks := by
  have same := @samePool_perform parse manager i fails
  exact inv.of_same (inv.serials.perform i fails) same.accepted same.pool same.verified
    fun i _ _ _ phase active => same.active i _ phase active

/-- A request that stores no verdict is added. -/
theorem VerifiedInv.ask (inv : VerifiedInv manager tasks) {work : DbWork}
    (other : work.serial? = none) : VerifiedInv (manager.ask work) tasks := by
  refine inv.of_same (inv.serials.ask other) rfl rfl rfl ?_
  intro i serial task record phase active
  rcases active_ask.mp active with before | ⟨-, rfl, -⟩
  · exact ⟨phase, before⟩
  · cases other

/-- A request that is over is one less. -/
theorem VerifiedInv.over (inv : VerifiedInv manager tasks) (i : Nat) :
    VerifiedInv (manager.setPhase i .over) tasks := by
  refine inv.of_same ?_ rfl rfl rfl fun _ _ _ _ phase active =>
    ⟨phase, (of_active_over active).2⟩
  exact inv.serials.of_fewer (fun _ _ found => found) inv.serials.keys rfl rfl
    fun _ _ _ _ phase active => ⟨phase, (of_active_over active).2⟩

/-- The callback that announces a verified task takes it from the pool. -/
theorem VerifiedInv.announce (inv : VerifiedInv manager tasks) {i serial : Nat} {task : OwnTask}
    {record : Json} (going : manager.Active i (.verify serial task record) (.replied .done)) :
    VerifiedInv (continueWork parse (.verify serial task record) .done
      (manager.setPhase i .over)) tasks := by
  obtain ⟨stored, here⟩ := inv.storing i serial task record _ going
  -- under the key that is deleted there is this task only
  have stays : ∀ {other key}, other ≠ serial → serialAt manager.pool key = some other →
      serialAt (deleteField (StoredTask.own task).key manager.pool) key = some other := by
    intro other key differs there
    rw [serialAt_deleteField, if_neg]
    · exact there
    · rintro rfl
      rw [here] at there
      exact differs (Option.some.inj there).symm
  refine ⟨inv.serials.announce going, inv.length, ?_, ?_, ?_, ?_⟩
  · intro key entry found
    have found : (deleteField (StoredTask.own task).key manager.pool).lookup key = some entry :=
      found
    rw [lookup_deleteField] at found
    split at found
    · cases found
    · exact inv.pooled key entry found
  · intro other candidate isAccepted unanswered
    refine stays ?_ (inv.unanswered other candidate isAccepted unanswered)
    rintro rfl
    obtain ⟨verified, answer, isVerified, isAnswer, -⟩ := stored
    rw [isAccepted] at isVerified
    cases isVerified
    rw [unanswered] at isAnswer
    cases isAnswer
  · intro j other task' record' phase active
    obtain ⟨differs, before⟩ := of_active_over active
    obtain ⟨verified, there⟩ := inv.storing j other task' record' phase before
    refine ⟨verified, stays ?_ there⟩
    rintro rfl
    exact differs (inv.serials.once j i _ _ _ _ _ _ _ before going)
  · intro other member
    rcases List.mem_append.mp member with before | now
    · exact inv.announced other before
    · cases List.mem_singleton.mp now
      exact ⟨_, stored⟩

theorem VerifiedInv.callback (inv : VerifiedInv manager tasks) (i : Nat) :
    VerifiedInv (managerStep parse manager (.callback i)) tasks := by
  rw [managerStep]
  split
  · rename_i work reply found
    have isOver := inv.over i
    rw [continueWork.eq_def]
    split
    · exact @announce parse _ _ inv _ _ _ _ (active_of_replied found)
    · split
      · exact isOver.ask rfl
      · exact isOver
    · simp only []
      split
      · exact isOver
      · exact isOver.ask rfl
    · exact isOver
  · exact inv

theorem VerifiedInv.onFinishTask (inv : VerifiedInv manager tasks) (result : Result) :
    VerifiedInv (Tasks.onFinishTask result manager) tasks := by
  rw [Tasks.onFinishTask]
  split
  · exact inv
  · split
    · exact inv
    · exact inv.ask rfl

theorem VerifiedInv.addOutsideResult (inv : VerifiedInv manager tasks)
    (task : Option OutsideTask) : VerifiedInv (Tasks.addOutsideResult task manager) tasks := by
  rw [Tasks.addOutsideResult.eq_def]
  split
  · exact inv
  · split
    · exact inv
    · exact inv.ask rfl

end

/-! ## From the verification to the core -/

/-- Where the verified tasks are: they wait, own a transfer, or were sent. -/
def PttState.places (state : PttState) : List Arrival :=
  state.waiting ++ (state.round.bind (·.owner)).toList ++ state.sent.map (·.arrival)

/-- The task that a label brings. -/
def PttState.arriving (state : PttState) : PttLabel → List Arrival
  | .verified task => [⟨state.arrivals, task⟩]
  | _ => []

section

variable {state : PttState}

/-- The end of a transfer drops its owner, and maybe some that waited. -/
theorem places_onPTTEnd (state : PttState) :
    state.onPTTEnd.places.Subperm (state.waiting ++ state.sent.map (·.arrival)) := by
  rcases onPTTEnd_cases state with ⟨-, ends⟩ | ⟨before, deploy, after, split, -, -, ends⟩
  · rw [ends]
    simp only [PttState.places, Option.bind_none, Option.toList_none, List.nil_append,
      List.append_nil, List.map_append, List.map_map]
    have arrivals : state.waiting.map ((·.arrival) ∘ fun arrival => TaskRequest.mk arrival false) =
        state.waiting := List.map_id _
    rw [arrivals]
    exact List.perm_append_comm.subperm
  · rw [ends, split]
    simp only [PttState.places, Option.bind_some, Option.toList_some, List.nil_append,
      List.map_append, List.map_map]
    have arrivals : ∀ (inPTT : Bool) (items : List Arrival),
        items.map ((·.arrival) ∘ fun arrival => TaskRequest.mk arrival inPTT) = items :=
      fun _ => List.map_id
    rw [arrivals, arrivals]
    have moved : ([deploy] ++ (state.sent.map (·.arrival) ++ before ++
        after.filter (!·.isDeploy))).Perm
        (before ++ deploy :: after.filter (!·.isDeploy) ++ state.sent.map (·.arrival)) := by
      rw [List.perm_iff_count]
      intro arrival
      simp only [List.count_append, List.count_cons, List.count_nil]
      omega
    refine moved.subperm.trans (List.Sublist.subperm ?_)
    exact List.Sublist.append_right
      (List.Sublist.append_left (List.filter_sublist.cons_cons deploy) before) _

/-- A step moves verified tasks to other places, drops some, and brings one at most. -/
theorem places_pttStep (inv : PttInv state) (label : PttLabel) :
    (pttStep state label).places.Subperm (state.places ++ state.arriving label) := by
  have idle : state.pttInProgress = false → state.round = none := fun isIdle =>
    Option.not_isSome_iff_eq_none.mp (inv.flag ▸ Bool.eq_false_iff.mp isIdle)
  have perm : ∀ {items others : List Arrival},
      (∀ arrival, items.count arrival = others.count arrival) →
      items.Subperm others := fun same => (List.perm_iff_count.mpr same).subperm
  cases label with
  | verified task =>
      refine perm fun arrival => ?_
      rw [pttStep, PttState.handleVerifiedTask]
      simp only []
      split
      · simp only [PttState.places, PttState.arriving, List.count_append]
        omega
      · rename_i notBusy
        have noRound := idle (Bool.eq_false_of_not_eq_true notBusy)
        rw [PttState.executeTask]
        split
        · rw [PttState.getStateKeys, if_neg notBusy]
          simp only [PttState.places, PttState.arriving, noRound, List.count_append,
            Option.bind_none, Option.bind_some, Option.toList_none, Option.toList_some,
            List.count_nil]
          omega
        · simp only [PttState.sendToCore, PttState.places, PttState.arriving, List.count_append,
            List.map_append, List.map_cons, List.map_nil]
          omega
  | newEpoch =>
      rw [pttStep, PttState.getStateKeys]
      split
      · exact (List.sublist_append_left _ _).subperm
      · rename_i notBusy
        have noRound := idle (Bool.eq_false_of_not_eq_true notBusy)
        refine perm fun arrival => ?_
        simp [PttState.places, PttState.arriving, noRound]
  | answer isError =>
      rw [pttStep, PttState.answer.eq_def]
      split
      · exact (List.sublist_append_left _ _).subperm
      · rename_i owner stage round
        have waits : (state.waiting ++ state.sent.map (·.arrival)).Sublist
            (state.places ++ state.arriving (.answer isError)) := by
          simp only [PttState.places, PttState.arriving, List.append_nil]
          exact (List.sublist_append_left _ _).append (List.Sublist.refl _)
        split
        · exact (places_onPTTEnd state).trans waits.subperm
        · cases stage with
          | response =>
              cases owner with
              | none => exact (places_onPTTEnd state).trans waits.subperm
              | some owner =>
                  have resumed : ((state.onPTTEnd.resume (some owner)).places).Perm
                      (owner :: state.onPTTEnd.places) := by
                    rw [List.perm_iff_count]
                    intro arrival
                    simp only [PttState.resume, PttState.sendToCore, PttState.places,
                      List.map_append, List.map_cons, List.map_nil, List.count_append,
                      List.count_cons, List.count_nil]
                    omega
                  have dropped := (List.subperm_cons owner).mpr (places_onPTTEnd state)
                  refine resumed.subperm.trans (dropped.trans ?_)
                  refine perm fun arrival => ?_
                  simp only [PttState.places, PttState.arriving, round, Option.bind_some,
                    Option.toList_some, List.count_append, List.count_cons, List.count_nil]
                  omega
          | _ =>
              refine perm fun arrival => ?_
              simp [PttState.places, PttState.arriving, round]

/-- What was sent stays sent, in its order. -/
theorem sent_pttStep (state : PttState) (label : PttLabel) :
    state.sent <+: (pttStep state label).sent := by
  have ended : state.sent <+: state.onPTTEnd.sent := by
    rcases onPTTEnd_cases state with ⟨-, ends⟩ | ⟨before, deploy, after, -, -, -, ends⟩
    · rw [ends]
      exact List.prefix_append _ _
    · rw [ends]
      exact (List.prefix_append _ _).trans (List.prefix_append _ _)
  cases label with
  | verified task =>
      rw [pttStep, PttState.handleVerifiedTask]
      simp only []
      split
      · exact List.prefix_refl _
      · rw [PttState.executeTask]
        split
        · rw [PttState.getStateKeys]
          split <;> exact List.prefix_refl _
        · exact List.prefix_append _ _
  | newEpoch =>
      rw [pttStep, PttState.getStateKeys]
      split <;> exact List.prefix_refl _
  | answer isError =>
      rw [pttStep, PttState.answer.eq_def]
      split
      · exact List.prefix_refl _
      · rename_i owner stage round
        split
        · exact ended
        · cases stage with
          | request => exact List.prefix_refl _
          | principal => exact List.prefix_refl _
          | response =>
              cases owner with
              | none => exact ended
              | some owner => exact ended.trans (List.prefix_append _ _)

end

/-- Every verified task is at one place at most, and what is there is its object. -/
structure PlacedInv (ptt : PttState) (verified : List Nat) (tasks : List AcceptedTask) :
    Prop where
  transfers : PttInv ptt
  arrivals : ptt.arrivals = verified.length
  once : (ptt.places.map (·.serial)).Nodup
  object : ∀ arrival ∈ ptt.places, arrival.task.getTaskId ≠ none ∧
    ∃ serial, verified[arrival.serial]? = some serial ∧ Verified tasks serial arrival.task

theorem placedInv_initial : PlacedInv .initial [] [] where
  transfers := pttInv_initial
  arrivals := rfl
  once := .nil
  object := fun _ member => absurd member List.not_mem_nil

section

variable {ptt : PttState} {verified : List Nat} {tasks after : List AcceptedTask}

/-- What is at fewer places is at one at most. -/
theorem nodup_of_subperm {items others : List Arrival} (fewer : items.Subperm others)
    (once : (others.map (·.serial)).Nodup) : (items.map (·.serial)).Nodup := by
  obtain ⟨middle, perm, sublist⟩ := fewer
  exact (perm.map _).nodup_iff.mp ((sublist.map _).nodup once)

/-- More is known about the tasks. -/
theorem PlacedInv.mono (inv : PlacedInv ptt verified tasks)
    (kept : ∀ serial task, Verified tasks serial task → Verified after serial task) :
    PlacedInv ptt verified after where
  transfers := inv.transfers
  arrivals := inv.arrivals
  once := inv.once
  object := fun arrival member => (inv.object arrival member).imp_right
    fun ⟨serial, isSerial, isVerified⟩ => ⟨serial, isSerial, kept _ _ isVerified⟩

/-- A transfer starts, or gets an answer. -/
theorem PlacedInv.transfer (inv : PlacedInv ptt verified tasks) {label : PttLabel}
    (nothing : ptt.arriving label = []) (same : (pttStep ptt label).arrivals = ptt.arrivals) :
    PlacedInv (pttStep ptt label) verified tasks := by
  have places := places_pttStep inv.transfers label
  rw [nothing, List.append_nil] at places
  refine ⟨inv.transfers.step label, same.trans inv.arrivals, ?_, ?_⟩
  · exact nodup_of_subperm places inv.once
  · exact fun arrival member => inv.object arrival (places.subset member)

/-- A task is announced as verified. -/
theorem PlacedInv.announce (inv : PlacedInv ptt verified tasks) {serial : Nat} {task : Task}
    (isVerified : Verified tasks serial task) (hasId : task.getTaskId ≠ none) :
    PlacedInv (ptt.handleVerifiedTask task) (verified ++ [serial]) tasks := by
  have places : (ptt.handleVerifiedTask task).places.Subperm
      (ptt.places ++ [⟨ptt.arrivals, task⟩]) := places_pttStep inv.transfers (.verified task)
  have below : ∀ arrival ∈ ptt.places, arrival.serial < ptt.arrivals := by
    intro arrival member
    obtain ⟨-, other, isOther, -⟩ := inv.object arrival member
    rw [inv.arrivals]
    exact (List.getElem?_eq_some_iff.mp isOther).1
  refine ⟨inv.transfers.step (.verified task), ?_, ?_, ?_⟩
  · rw [List.length_append, List.length_singleton, ← inv.arrivals,
      PttState.handleVerifiedTask]
    simp only []
    split
    · rfl
    · rw [PttState.executeTask]
      split
      · rw [PttState.getStateKeys]
        split <;> rfl
      · rfl
  · refine nodup_of_subperm places ?_
    rw [List.map_append]
    refine List.nodup_append.mpr ⟨inv.once, List.nodup_singleton _, ?_⟩
    rintro old isOld now isNow rfl
    obtain ⟨arrival, member, rfl⟩ := List.mem_map.mp isOld
    have isLast : arrival.serial = ptt.arrivals := List.mem_singleton.mp isNow
    exact Nat.ne_of_lt (below arrival member) isLast
  · intro arrival member
    rcases List.mem_append.mp (places.subset member) with old | now
    · obtain ⟨hasId', other, isOther, rest⟩ := inv.object arrival old
      exact ⟨hasId', other, getElem?_concat_eq_some.mpr (.inl isOther), rest⟩
    · cases List.mem_singleton.mp now
      exact ⟨hasId, serial, getElem?_concat_eq_some.mpr (.inr ⟨inv.arrivals, rfl⟩), isVerified⟩

/-- What was sent is one of the places. -/
theorem places_of_sent {request : TaskRequest} (sent : request ∈ ptt.sent) :
    request.arrival ∈ ptt.places :=
  List.mem_append_right _ (List.mem_map_of_mem sent)

/-- No two requests are for one verified task. -/
theorem PlacedInv.sentOnce (inv : PlacedInv ptt verified tasks) :
    (ptt.sent.map (·.arrival.serial)).Nodup := by
  have once := inv.once
  rw [PttState.places, List.map_append, List.map_map] at once
  exact (List.nodup_append.mp once).2.1

end

end Tasks
