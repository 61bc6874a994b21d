import EnigmaP2P.Tasks.Worker

/-!
# What a worker computes and publishes

Over all runs of the worker: a task is sent to the core once, after its verification, as the
object that the verification left; a result is one that is built from an answer of the core to
such a request; and a result is published no more often than the core computed it.

The manager reads the task that it finishes back from the database, where anything may have
been written under the id meanwhile. That nothing else is published rests on the ids: a
result in a record has the id of its key, so the new result replaces whatever result was
loaded, or nothing is published.
-/

namespace Tasks

open Js Common Transition ManagerState

/-! ## Results and their keys -/

/-- The result in a record, if there is one, is an object with the key as id. -/
def ResultKeyed (key : String) (record : Json) : Prop :=
  record.get? "result" = none ∨
    ∃ fields, record.get? "result" = some (.obj fields) ∧
      fields.lookup "taskId" = some (.str key)

/-- `getTaskId()` of any task. -/
def StoredTask.getTaskId : StoredTask → Option String
  | .own task => task.task.getTaskId
  | .outside task => task.taskId

/-- The result of a task has the id of the task. -/
def TaskKeyed (task : StoredTask) : Prop :=
  ∀ result ∈ task.getResult, result.taskId = some (task.getTaskId.elim .null .str)

theorem taskKeyed_own_new (task : Task) (status : Json) : TaskKeyed (.own ⟨task, status, none⟩) :=
  fun _ member => absurd member (Option.not_mem_none _)

/-- Whatever result is set, it is one with the id of the task. -/
theorem TaskKeyed.setResult {task : StoredTask} (keyed : TaskKeyed task) (result : Result) :
    TaskKeyed (task.setResult result) := by
  cases task with
  | own task =>
      rw [StoredTask.setResult, OwnTask.setResult]
      split
      · rename_i sameId
        rintro _ ⟨⟩
        exact sameId
      · exact keyed
  | outside task =>
      rw [StoredTask.setResult, OutsideTask.setResult]
      split
      · rename_i sameId
        rintro _ ⟨⟩
        exact sameId
      · exact keyed

/-- A new outside task has the result it was made of, or none. -/
theorem result_of_outside_new {type : Option Json} {result found : Result}
    (member : found ∈ (OutsideTask.new type result).result) : found = result := by
  rw [OutsideTask.new, OutsideTask.setResult] at member
  split at member
  · exact (Option.some.inj member).symm
  · cases member

theorem taskKeyed_outside_new (type : Option Json) (result : Result) :
    TaskKeyed (.outside (OutsideTask.new type result)) := by
  have bare : TaskKeyed
      (.outside ⟨remove0x result.taskId, type, TaskStatus.unverified, none⟩) :=
    fun _ member => absurd member (Option.not_mem_none _)
  exact bare.setResult result

/-- A result with the id of the task is set. -/
theorem getResult_setResult {task : StoredTask} {result : Result}
    (sameId : result.taskId = some (task.getTaskId.elim .null .str)) :
    (task.setResult result).getResult = some result := by
  cases task with
  | own task =>
      have isId : result.taskId = some task.idJson := sameId
      rw [StoredTask.setResult, OwnTask.setResult, if_pos isId]
      rfl
  | outside task =>
      have isId : result.taskId = some (task.taskId.elim .null .str) := sameId
      rw [StoredTask.setResult, OutsideTask.setResult, if_pos isId]
      rfl

/-- Any other result is ignored. -/
theorem setResult_of_ne {task : StoredTask} {result : Result}
    (otherId : result.taskId ≠ some (task.getTaskId.elim .null .str)) :
    task.setResult result = task := by
  cases task with
  | own task =>
      have isOther : ¬ result.taskId = some task.idJson := otherId
      rw [StoredTask.setResult, OwnTask.setResult, if_neg isOther]
  | outside task =>
      have isOther : ¬ result.taskId = some (task.taskId.elim .null .str) := otherId
      rw [StoredTask.setResult, OutsideTask.setResult, if_neg isOther]

theorem toDbJson_obj_taskId (result : Result) :
    ∃ fields, result.toDbJson = .obj fields ∧ fields.lookup "taskId" = result.taskId := by
  obtain ⟨fields, isObj, -⟩ := toDbJson_obj result
  refine ⟨fields, isObj, ?_⟩
  rw [← toDbJson_taskId, isObj]
  rfl

/-- The record of a task whose result has its id. -/
theorem resultKeyed_of_serializeTask {task : StoredTask} (keyed : TaskKeyed task) {record : Json}
    (written : serializeTask task = .ok record) {id : String} (hasId : task.getTaskId = some id) :
    ResultKeyed id record := by
  have isKey : ∀ result ∈ task.getResult, result.taskId = some (.str id) := by
    intro result member
    rw [keyed result member, hasId]
    rfl
  cases task with
  | own task =>
      rw [serializeTask, OwnTask.toDbJson] at written
      split at written
      · split at written
        · cases written
        · rename_i result isResult
          cases written
          obtain ⟨fields, isObj, taskId⟩ := toDbJson_obj_taskId result
          refine .inr ⟨fields, ?_, taskId.trans (isKey result isResult)⟩
          cases isTask : task.task <;>
            simp [OwnTask.dbFields, isTask, get?_definedFields_cons, get?_definedFields_nil, isObj]
      · cases written
        refine .inl ?_
        cases isTask : task.task <;>
          simp [OwnTask.dbFields, isTask, get?_definedFields_cons, get?_definedFields_nil]
  | outside task =>
      rw [serializeTask, OutsideTask.toDbJson] at written
      split at written
      · cases written
      · rename_i result isResult
        cases written
        obtain ⟨fields, isObj, taskId⟩ := toDbJson_obj_taskId result
        refine .inr ⟨fields, ?_, taskId.trans (isKey result isResult)⟩
        simp [get?_definedFields_cons, get?_definedFields_nil, isObj]

/-- A task in progress has no result in its record. -/
theorem resultKeyed_inProgress {task : OwnTask} {record : Json}
    (written : serializeTask (.own task.setInProgressStatus) = .ok record) (id : String) :
    ResultKeyed id record := by
  have unfinished : task.setInProgressStatus.isFinished = false := by
    simp [OwnTask.isFinished, OwnTask.setInProgressStatus, TaskStatus.inProgress,
      TaskStatus.success, TaskStatus.failed]
  rw [serializeTask, OwnTask.toDbJson, if_neg (by rw [unfinished]; exact Bool.false_ne_true)]
    at written
  cases written
  refine .inl ?_
  cases isTask : task.task <;>
    simp [OwnTask.dbFields, OwnTask.setInProgressStatus, isTask, get?_definedFields_cons,
      get?_definedFields_nil]

section

variable {parse : String → Except Exn Json} {record : Json}

/-- A result that is built from an object has the id of the object. -/
theorem taskId_of_buildResult {cls : ResultClass} {fields : List (String × Json)}
    {result : Result} (built : buildResult parse cls (some (.obj fields)) = .ok (some result)) :
    result.taskId = fields.lookup "taskId" := by
  rw [buildResult_obj] at built
  split at built
  · cases built
    rfl
  · cases built

/-- A loader of deployments or computations sets the result of the record, or none. -/
theorem keyed_of_loadTask {build : List (String × Json) → Option Task}
    {cls : Option Json → ResultClass} {fields : List (String × Json)} {loaded : OwnTask}
    (loads : loadTask parse build cls fields = .ok (some loaded)) {key : String}
    (keyed : ResultKeyed key (.obj fields)) :
    TaskKeyed (.own loaded) ∧ ∀ result ∈ loaded.result, result.taskId = some (.str key) := by
  rw [loadTask] at loads
  split at loads
  · split at loads
    · cases loads
    · rename_i task _
      simp only [] at loads
      split at loads
      · rename_i isResult
        obtain ⟨built, isBuilt, loads⟩ := bind_eq_ok.mp loads
        cases loads
        rcases keyed with none | ⟨resultFields, isObj, isKey⟩
        · rw [Json.get?_obj] at none
          rw [none] at isResult
          cases isResult
        rw [Json.get?_obj] at isObj
        rw [isObj] at isBuilt
        cases built with
        | none =>
            exact ⟨taskKeyed_own_new task _, fun _ member => absurd member (Option.not_mem_none _)⟩
        | some built =>
            refine ⟨(taskKeyed_own_new task _).setResult built, fun result member => ?_⟩
            have attached : result = built := by
              rw [OwnTask.setResult] at member
              split at member
              · exact (Option.some.inj member).symm
              · cases member
            rw [attached, taskId_of_buildResult isBuilt, isKey]
      · cases loads
        exact ⟨taskKeyed_own_new task _, fun _ member => absurd member (Option.not_mem_none _)⟩
  · cases loads

/-- A task that is loaded from a record under its key. -/
theorem keyed_of_deserializeTask {task : StoredTask} {key : String}
    (loads : deserializeTask parse record = .ok (some task)) (keyed : ResultKeyed key record) :
    TaskKeyed task ∧ ∀ result ∈ task.getResult, result.taskId = some (.str key) := by
  cases record with
  | obj fields =>
      rw [deserializeTask] at loads
      split at loads
      · obtain ⟨loaded, isLoaded, isOutside⟩ := bind_eq_ok.mp loads
        cases loaded with
        | none => cases isOutside
        | some loaded =>
            cases isOutside
            rw [OutsideTask.fromDbJson] at isLoaded
            split at isLoaded
            · obtain ⟨raw, built, isNew⟩ := bind_eq_ok.mp isLoaded
              cases raw with
              | none => cases isNew
              | some raw =>
                  cases isNew
                  obtain ⟨cls, resultFields, -, isObj, -, rfl⟩ := of_buildFromRaw built
                  have isKey : resultFields.lookup "taskId" = some (.str key) := by
                    rcases keyed with none | ⟨others, isOthers, isKey⟩
                    · rw [none] at isObj
                      cases isObj
                    · rw [isOthers] at isObj
                      cases isObj
                      exact isKey
                  exact ⟨taskKeyed_outside_new _ _, fun result member =>
                    (result_of_outside_new member) ▸ isKey⟩
            · cases isLoaded
      · split at loads
        all_goals
          obtain ⟨loaded, isLoaded, isOwn⟩ := bind_eq_ok.mp loads
          cases loaded with
          | none => cases isOwn
          | some loaded =>
              cases isOwn
              exact keyed_of_loadTask isLoaded keyed
  | _ => cases loads

end

/-- After a result with this id is set on what was loaded, there is that result or none. -/
theorem eq_of_getResult_setResult {task : StoredTask} {key : String} (keyed : TaskKeyed task)
    (loaded : ∀ result ∈ task.getResult, result.taskId = some (.str key)) {result found : Result}
    (isKey : result.taskId = some (.str key)) (member : found ∈ (task.setResult result).getResult) :
    found = result := by
  by_cases sameId : result.taskId = some (task.getTaskId.elim .null .str)
  · rw [getResult_setResult sameId] at member
    exact (Option.some.inj member).symm
  · rw [setResult_of_ne sameId] at member
    exact absurd ((isKey.trans (loaded found member).symm).trans (keyed found member)) sameId

/-- What a request may rely on: the record that it writes has the id of its key, and
`onFinishTask` goes on with the result that it was called with. -/
def Askable : DbWork → Prop
  | .read key result => result.taskId = some (.str key)
  | .erase _ task result =>
      TaskKeyed task ∧ ∀ found ∈ (task.setResult result).getResult, found = result
  | .verify _ task record => ResultKeyed (StoredTask.own task).key record
  | .store task record => task.getTaskId.isSome = true → ResultKeyed task.key record
  | .outside task record =>
      task.taskId.isSome = true → ResultKeyed (StoredTask.outside task).key record
  | .remove _ => True

/-- The records in the database and on the way to it have the ids of their keys. -/
structure KeyedInv (manager : ManagerState) : Prop where
  key : ∀ i work, manager.Active i work (.replied .done) → work.hasKey = true
  db : ∀ key record, manager.db.lookup key = some record → ResultKeyed key record
  asked : ∀ i work phase, manager.Active i work phase → Askable work
  found : ∀ i key result record, manager.Active i (.read key result) (.replied (.found record)) →
    ResultKeyed key record

theorem keyedInv_initial {db : List (String × Json)}
    (keyed : ∀ key record, db.lookup key = some record → ResultKeyed key record) :
    KeyedInv (.initial db) where
  key := fun _ _ active => absurd active not_active_initial
  db := keyed
  asked := fun _ _ _ active => absurd active not_active_initial
  found := fun _ _ _ _ active => absurd active not_active_initial

section

variable {parse : String → Except Exn Json} {manager after : ManagerState}

/-- Fewer requests on the same database are no harm. -/
theorem KeyedInv.of_fewer (inv : KeyedInv manager) (db : after.db = manager.db)
    (active : ∀ i work phase, after.Active i work phase → manager.Active i work phase) :
    KeyedInv after where
  key := fun i work isActive => inv.key i work (active i _ _ isActive)
  db := db ▸ inv.db
  asked := fun i work phase isActive => inv.asked i work phase (active i _ _ isActive)
  found := fun i key result record isActive =>
    inv.found i key result record (active i _ _ isActive)

theorem KeyedInv.ask (inv : KeyedInv manager) {work : DbWork} (askable : Askable work) :
    KeyedInv (manager.ask work) := by
  refine ⟨?_, inv.db, ?_, ?_⟩
  · intro i other active
    rcases active_ask.mp active with before | ⟨-, -, waits⟩
    · exact inv.key i other before
    · cases waits
  · intro i other phase active
    rcases active_ask.mp active with before | ⟨-, rfl, -⟩
    · exact inv.asked i other phase before
    · exact askable
  · intro i key result record active
    rcases active_ask.mp active with before | ⟨-, -, waits⟩
    · exact inv.found i key result record before
    · cases waits

theorem KeyedInv.over (inv : KeyedInv manager) (i : Nat) : KeyedInv (manager.setPhase i .over) :=
  inv.of_fewer rfl fun _ _ _ active => (of_active_over active).2

/-- A request gets a reply, on a database whose records are right. -/
theorem KeyedInv.reply (inv : KeyedInv manager) {i : Nat} {work : DbWork} {reply : DbReply}
    (waits : manager.requests[i]? = some ⟨work, .waiting⟩)
    (requests : after.requests = manager.requests)
    (db : ∀ key record, after.db.lookup key = some record → ResultKeyed key record)
    (hasKey : reply = .done → work.hasKey = true)
    (found : ∀ key result record, work = .read key result → reply = .found record →
      ResultKeyed key record) :
    KeyedInv (after.setPhase i (.replied reply)) := by
  have origin : ∀ {j other phase}, (after.setPhase i (.replied reply)).Active j other phase →
      manager.Active j other phase ∨ (other = work ∧ phase = .replied reply) := by
    intro j other phase active
    obtain ⟨-, before, going⟩ | ⟨rfl, isReply, before, isWork⟩ := of_active_setPhase active
    · exact .inl ⟨requests ▸ before, going⟩
    · rw [requests, waits] at isWork
      cases isWork
      exact .inr ⟨rfl, isReply⟩
  refine ⟨?_, db, ?_, ?_⟩
  · intro j other active
    rcases origin active with before | ⟨rfl, isDone⟩
    · exact inv.key j other before
    · cases isDone
      exact hasKey rfl
  · intro j other phase active
    rcases origin active with before | ⟨rfl, -⟩
    · exact inv.asked j other phase before
    · exact inv.asked i other .waiting (active_of_waiting waits)
  · intro j key result record active
    rcases origin active with before | ⟨isRead, isFound⟩
    · exact inv.found j key result record before
    · cases isFound
      exact found key result record isRead.symm rfl

theorem KeyedInv.put (inv : KeyedInv manager) {key : String} {record : Json}
    (keyed : ResultKeyed key record) (other : String) (stored : Json)
    (found : (setField key record manager.db).lookup other = some stored) :
    ResultKeyed other stored := by
  rw [lookup_setField] at found
  split at found
  · rename_i same
    cases found
    exact same ▸ keyed
  · exact inv.db other stored found

theorem KeyedInv.erased (inv : KeyedInv manager) (key other : String) (stored : Json)
    (found : (deleteField key manager.db).lookup other = some stored) :
    ResultKeyed other stored := by
  rw [lookup_deleteField] at found
  split at found
  · cases found
  · exact inv.db other stored found

/-- The database performs a request with a key, or fails. -/
theorem KeyedInv.perform (inv : KeyedInv manager) {i : Nat} {request : DbRequest}
    (isRequest : manager.requests[i]? = some request) (fails : Bool) :
    KeyedInv (managerStep parse manager (.perform i (fails || !request.work.hasKey))) := by
  obtain ⟨work, phase⟩ := request
  rw [managerStep, isRequest]
  split
  · rename_i same
    cases same
    have askable := inv.asked i work .waiting (active_of_waiting isRequest)
    split
    · exact inv.reply isRequest rfl inv.db (by rintro ⟨⟩) (by rintro _ _ _ - ⟨⟩)
    · rename_i performs
      have hasKey : work.hasKey = true := by
        cases isKey : work.hasKey with
        | true => rfl
        | false => simp [isKey] at performs
      have done : ∀ (key : String) (result : Result) (record : Json), work = .read key result →
          DbReply.done = .found record → ResultKeyed key record := by
        rintro _ _ _ - ⟨⟩
      cases work with
      | verify serial task record =>
          exact inv.reply isRequest rfl (inv.put askable) (fun _ => hasKey) done
      | store task record =>
          have isSome : task.getTaskId.isSome = true := by
            cases task <;> exact hasKey
          exact inv.reply isRequest rfl (inv.put (askable isSome)) (fun _ => hasKey) done
      | outside task record =>
          exact inv.reply isRequest rfl (inv.put (askable hasKey)) (fun _ => hasKey) done
      | erase key task result =>
          exact inv.reply isRequest rfl (inv.erased key) (fun _ => hasKey) done
      | remove key => exact inv.reply isRequest rfl (inv.erased key) (fun _ => hasKey) done
      | read key result =>
          cases stored : manager.db.lookup key with
          | none =>
              simp only [performWork, stored]
              exact inv.reply isRequest rfl inv.db (by rintro ⟨⟩) (by rintro _ _ _ - ⟨⟩)
          | some record =>
              simp only [performWork, stored]
              refine inv.reply isRequest rfl inv.db (by rintro ⟨⟩) ?_
              rintro key' result' record' ⟨⟩ ⟨⟩
              exact inv.db key record stored
  · exact inv

theorem StoredTask.key_of_getTaskId {task : StoredTask} {id : String}
    (hasId : task.getTaskId = some id) : task.key = id := by
  cases task with
  | own task =>
      have hasId : task.task.getTaskId = some id := hasId
      rw [StoredTask.key, hasId]
      rfl
  | outside task =>
      have hasId : task.taskId = some id := hasId
      rw [StoredTask.key, hasId]
      rfl

/-- The put of a task whose result has its id. -/
theorem TaskKeyed.written {task : StoredTask} {record : Json} (keyed : TaskKeyed task)
    (written : serializeTask task = .ok record) (isSome : task.getTaskId.isSome = true) :
    ResultKeyed task.key record := by
  obtain ⟨id, hasId⟩ := Option.isSome_iff_exists.mp isSome
  rw [StoredTask.key_of_getTaskId hasId]
  exact resultKeyed_of_serializeTask keyed written hasId

theorem KeyedInv.callback (inv : KeyedInv manager) (i : Nat) :
    KeyedInv (managerStep parse manager (.callback i)) := by
  rw [managerStep]
  split
  · rename_i work reply isRequest
    have going := active_of_replied isRequest
    have askable := inv.asked i work _ going
    have isOver := inv.over i
    rw [continueWork.eq_def]
    split
    · exact inv.of_fewer rfl fun _ _ _ active => (of_active_over active).2
    · rename_i key result record
      split
      · rename_i task loads
        obtain ⟨keyed, loaded⟩ :=
          keyed_of_deserializeTask loads (inv.found i key result record going)
        exact isOver.ask ⟨keyed, fun found member =>
          eq_of_getResult_setResult keyed loaded askable member⟩
      · exact isOver
    · rename_i key task result
      simp only []
      split
      · exact isOver
      · rename_i record written
        exact isOver.ask (fun isSome => (askable.1.setResult result).written written isSome)
    · exact isOver
  · exact inv

theorem KeyedInv.onVerifyTask (inv : KeyedInv manager) (key : String) (isVerified : Bool) :
    KeyedInv (Tasks.onVerifyTask key isVerified manager) := by
  rw [Tasks.onVerifyTask]
  split
  · exact inv
  · rename_i serial task pooled
    have pool : KeyedInv { manager with
        pool := setField key ⟨serial, task.setInProgressStatus⟩ manager.pool } :=
      inv.of_fewer rfl fun _ _ _ active => active
    split
    · simp only []
      split
      · exact pool
      · rename_i record written
        exact pool.ask (resultKeyed_inProgress written _)
    · exact inv.of_fewer rfl fun _ _ _ active => active

theorem KeyedInv.onFinishTask (inv : KeyedInv manager) {result : Result} {id : String}
    (isId : result.taskId = some (.str id)) : KeyedInv (Tasks.onFinishTask result manager) := by
  rw [Tasks.onFinishTask, isId, keyOf_some, Json.toKey_str]
  dsimp only
  split
  · exact inv
  · exact inv.ask isId

/-- The task of another worker's result. -/
theorem taskKeyed_outsideTask {type : Option Json} {resultObj : Json} {ethereumFailure : Bool}
    {task : OutsideTask}
    (built : outsideTask parse type resultObj ethereumFailure = .ok (some task)) :
    TaskKeyed (.outside task) := by
  obtain ⟨raw, isRaw, built⟩ := bind_eq_ok.mp built
  obtain ⟨result, -, isNew⟩ := bind_eq_ok.mp isRaw
  cases result with
  | none =>
      cases isNew
      cases built
  | some result =>
      cases isNew
      have isNew := taskKeyed_outside_new type result
      change (if ethereumFailure then _ else _) = _ at built
      split at built
      · rw [OutsideTask.setResultStatus.eq_def] at built
        split at built
        · cases built
        · rename_i found isFound
          cases built
          rintro _ ⟨⟩
          exact isNew found isFound
      · cases built
        exact isNew

theorem KeyedInv.addOutsideResult (inv : KeyedInv manager) {task : Option OutsideTask}
    (keyed : ∀ outside ∈ task, TaskKeyed (.outside outside)) :
    KeyedInv (Tasks.addOutsideResult task manager) := by
  rw [Tasks.addOutsideResult.eq_def]
  split
  · exact inv
  · rename_i outside
    split
    · exact inv
    · rename_i record written
      exact inv.ask fun isSome => (keyed outside rfl).written written isSome

end

/-! ## Results on their way -/

/-- The results that a request has still to store or to announce. -/
def DbWork.finishing : DbWork → List Result
  | .read _ result | .erase _ _ result => [result]
  | .store task _ => task.getResult.toList
  | .verify .. | .outside .. | .remove _ => []

def DbRequest.finishing (request : DbRequest) : List Result :=
  if request.phase = .over then [] else request.work.finishing

def ManagerState.finishing (manager : ManagerState) : List Result :=
  manager.requests.flatMap DbRequest.finishing

/-- What the callback of a request publishes. -/
def DbRequest.publishes : DbRequest → List (StoredTask × Result)
  | ⟨.store task _, .replied .done⟩ => (task.getResult.map (task, ·)).toList
  | _ => []

theorem notify_published (state : WorkerState) (request : DbRequest) :
    (state.notify request).published = state.published ++ request.publishes := by
  rw [WorkerState.notify.eq_def]
  split <;> simp [DbRequest.publishes]

/-- What is published was on its way. -/
theorem publishes_le (request : DbRequest) (result : Result) :
    (request.publishes.map (·.2)).count result ≤ request.work.finishing.count result := by
  rw [DbRequest.publishes.eq_def]
  split
  · rename_i task record
    cases isResult : task.getResult <;> simp [DbWork.finishing, isResult]
  · exact Nat.zero_le _

/-- An item is changed: what comes from the others stays. -/
theorem count_flatMap_modify {α β : Type} [DecidableEq β] {items : List α} {i : Nat} {item : α}
    (found : items[i]? = some item) (f : α → α) (g : α → List β) (value : β) :
    ((items.modify i f).flatMap g).count value + (g item).count value =
      (items.flatMap g).count value + (g (f item)).count value := by
  induction items generalizing i with
  | nil => simp at found
  | cons head rest ih =>
      cases i with
      | zero =>
          cases found
          simp only [List.modify_zero_cons, List.flatMap_cons, List.count_append]
          omega
      | succ i =>
          have later := ih (i := i) (by simpa using found)
          simp only [List.modify_succ_cons, List.flatMap_cons, List.count_append]
          omega

section

variable {parse : String → Except Exn Json} {manager : ManagerState}

theorem finishing_ask (work : DbWork) :
    (manager.ask work).finishing = manager.finishing ++ work.finishing := by
  simp [ManagerState.finishing, ManagerState.ask, DbRequest.finishing]

theorem count_finishing_over {i : Nat} {work : DbWork} {phase : DbPhase}
    (isRequest : manager.requests[i]? = some ⟨work, phase⟩) (going : phase ≠ .over)
    (result : Result) :
    (manager.setPhase i .over).finishing.count result + work.finishing.count result =
      manager.finishing.count result := by
  have changed := count_flatMap_modify isRequest ({ · with phase := .over }) DbRequest.finishing
    result
  simpa [ManagerState.finishing, ManagerState.setPhase, DbRequest.finishing, going] using changed

/-- What the database does finishes nothing. -/
theorem count_finishing_perform (i : Nat) (fails : Bool) (result : Result) :
    (managerStep parse manager (.perform i fails)).finishing.count result =
      manager.finishing.count result := by
  rw [managerStep]
  split
  · rename_i work isRequest
    have replied : ∀ (performed : ManagerState) (reply : DbReply),
        performed.requests = manager.requests →
        (performed.setPhase i (.replied reply)).finishing.count result =
          manager.finishing.count result := by
      intro performed reply requests
      have changed := count_flatMap_modify isRequest ({ · with phase := .replied reply })
        DbRequest.finishing result
      simp only [DbRequest.finishing, reduceCtorEq, if_false] at changed
      rw [ManagerState.finishing, ManagerState.setPhase, requests]
      exact Nat.add_right_cancel changed
    split
    · exact replied manager .failed rfl
    · cases work with
      | read key read =>
          cases stored : manager.db.lookup key with
          | none =>
              simp only [performWork, stored]
              exact replied manager .failed rfl
          | some record =>
              simp only [performWork, stored]
              exact replied manager (.found record) rfl
      | _ => exact replied _ .done rfl
  · rfl

/-- A callback publishes what it has stored; what it goes on with is the result it had. -/
theorem count_finishing_callback (inv : KeyedInv manager) {i : Nat} {request : DbRequest}
    (isRequest : manager.requests[i]? = some request) (result : Result) :
    (managerStep parse manager (.callback i)).finishing.count result +
        (request.publishes.map (·.2)).count result ≤ manager.finishing.count result := by
  obtain ⟨work, phase⟩ := request
  rw [managerStep, isRequest]
  split
  · rename_i work' reply same
    cases same
    have isOver := count_finishing_over isRequest (by rintro ⟨⟩) result
    have askable := inv.asked i _ _ (active_of_replied isRequest)
    rw [continueWork.eq_def]
    split
    · exact Nat.le_of_eq isOver
    · rename_i key read record
      have erased : ∀ task, ((manager.setPhase i .over).ask (.erase key task read)).finishing.count
          result = manager.finishing.count result := by
        intro task
        rw [finishing_ask, List.count_append]
        exact isOver
      split
      · exact Nat.le_of_eq (erased _)
      · exact Nat.le_of_add_right_le (Nat.le_of_eq isOver)
    · rename_i key task read
      simp only []
      split
      · exact Nat.le_of_add_right_le (Nat.le_of_eq isOver)
      · rename_i record written
        rw [finishing_ask, List.count_append]
        have fewer : (DbWork.store (task.setResult read) record).finishing.count result ≤
            (DbWork.erase key task read).finishing.count result := by
          simp only [DbWork.finishing]
          cases isResult : (task.setResult read).getResult with
          | none => exact Nat.zero_le _
          | some found => rw [askable.2 found isResult, Option.toList_some]
        have nothing : (DbRequest.publishes ⟨.erase key task read, .replied .done⟩) = [] := rfl
        rw [nothing]
        simp only [List.map_nil, List.count_nil]
        omega
    · have published := publishes_le ⟨work, .replied reply⟩ result
      simp only [] at published
      omega
  · rename_i noReply
    have nothing : DbRequest.publishes ⟨work, phase⟩ = [] := by
      rw [DbRequest.publishes.eq_def]
      split
      · rename_i same
        cases same
        exact (noReply _ _ rfl).elim
      · rfl
    rw [nothing]
    exact Nat.le_refl _

theorem finishing_onVerifyTask (key : String) (isVerified : Bool) :
    (onVerifyTask key isVerified manager).finishing = manager.finishing := by
  rw [onVerifyTask]
  split
  · rfl
  · split
    · simp only []
      split
      · rfl
      · rw [finishing_ask]
        exact List.append_nil _
    · rfl

theorem finishing_addOutsideResult (task : Option OutsideTask) :
    (addOutsideResult task manager).finishing = manager.finishing := by
  rw [addOutsideResult.eq_def]
  split
  · rfl
  · split
    · rfl
    · rw [finishing_ask]
      exact List.append_nil _

/-- The result that the manager is called with is on its way, unless the task is in the pool. -/
theorem count_finishing_onFinishTask (finished result : Result) :
    (onFinishTask finished manager).finishing.count result ≤
      manager.finishing.count result + [finished].count result := by
  rw [onFinishTask]
  split
  · exact Nat.le_add_right _ _
  · split
    · exact Nat.le_add_right _ _
    · rw [finishing_ask, List.count_append]
      exact Nat.le_refl _

theorem verified_onFinishTask (result : Result) :
    (onFinishTask result manager).verified = manager.verified := by
  rw [onFinishTask]
  split
  · rfl
  · split <;> rfl

theorem verified_addOutsideResult (task : Option OutsideTask) :
    (addOutsideResult task manager).verified = manager.verified := by
  rw [addOutsideResult.eq_def]
  split
  · rfl
  · split <;> rfl

/-- Only the callback of a stored verdict announces a task. -/
theorem verified_callback {i : Nat} {request : DbRequest}
    (isRequest : manager.requests[i]? = some request) :
    (∃ serial task record, request = ⟨.verify serial task record, .replied .done⟩ ∧
      (managerStep parse manager (.callback i)).verified = manager.verified ++ [serial]) ∨
    ((∀ serial task record, request ≠ ⟨.verify serial task record, .replied .done⟩) ∧
      (managerStep parse manager (.callback i)).verified = manager.verified) := by
  rw [managerStep, isRequest]
  split
  · rename_i work reply same
    cases same
    rw [continueWork.eq_def]
    split
    · rename_i serial task record
      exact .inl ⟨serial, task, record, rfl, rfl⟩
    · refine .inr ⟨by rintro _ _ _ ⟨⟩, ?_⟩
      split <;> rfl
    · refine .inr ⟨by rintro _ _ _ ⟨⟩, ?_⟩
      simp only []
      split <;> rfl
    · rename_i verifies _ _
      refine .inr ⟨?_, rfl⟩
      rintro serial task record ⟨⟩
      exact verifies _ _ _ rfl rfl
  · rename_i noReply
    refine .inr ⟨?_, rfl⟩
    rintro serial task record rfl
    exact noReply _ _ rfl

theorem notify_ptt (state : WorkerState) {request : DbRequest}
    (other : ∀ serial task record, request ≠ ⟨.verify serial task record, .replied .done⟩) :
    (state.notify request).ptt = state.ptt := by
  rw [WorkerState.notify.eq_def]
  split
  · exact absurd rfl (other _ _ _)
  · rfl
  · rfl

end

/-! ## The worker -/

/-- The results that were built from answers of the core, each to another request. -/
structure AnswersInv (parse : String → Except Exn Json) (sent : List TaskRequest)
    (answered : List Nat) (results : List (Nat × Result)) : Prop where
  once : (results.map (·.1)).Nodup
  answered : ∀ entry ∈ results, entry.1 ∈ answered
  built : ∀ entry ∈ results, ∃ request response, sent[entry.1]? = some request ∧
    receivedResult parse request.arrival.task response = .ok (some entry.2)

structure WorkerInv (parse : String → Except Exn Json) (state : WorkerState) : Prop where
  verified : VerifiedInv state.manager state.accepted
  placed : PlacedInv state.ptt state.manager.verified state.accepted
  keyed : KeyedInv state.manager
  answers : AnswersInv parse state.ptt.sent state.answered state.results
  counts : ∀ result, (state.published.map (·.2)).count result +
    state.manager.finishing.count result ≤ (state.results.map (·.2)).count result

/-- What a run of the worker does. A request to the core is for a verified task, and no two are
for one. A result comes from an answer to such a request, which has one result at most. What
is published was computed, and no more often than it was computed. -/
structure WorkerRight (parse : String → Except Exn Json) (state : WorkerState) : Prop where
  sent : ∀ request ∈ state.ptt.sent, ∃ serial,
    state.manager.verified[request.arrival.serial]? = some serial ∧
    Verified state.accepted serial request.arrival.task
  sentOnce : ∀ (i j : Nat) (first second : TaskRequest) (serial : Nat),
    state.ptt.sent[i]? = some first →
    state.ptt.sent[j]? = some second →
    state.manager.verified[first.arrival.serial]? = some serial →
    state.manager.verified[second.arrival.serial]? = some serial → i = j
  answers : AnswersInv parse state.ptt.sent state.answered state.results
  published : ∀ result, (state.published.map (·.2)).count result ≤
    (state.results.map (·.2)).count result

theorem workerInv_initial {parse : String → Except Exn Json} {db : List (String × Json)}
    (keyed : ∀ key record, db.lookup key = some record → ResultKeyed key record) :
    WorkerInv parse (.initial db) where
  verified := verifiedInv_initial db
  placed := placedInv_initial
  keyed := keyedInv_initial keyed
  answers := ⟨.nil, fun _ member => absurd member List.not_mem_nil,
    fun _ member => absurd member List.not_mem_nil⟩
  counts := fun _ => Nat.le_refl _

section

variable {parse : String → Except Exn Json} {state : WorkerState}

/-- More requests to the core are no harm to the answers. -/
theorem AnswersInv.of_prefix {sent more : List TaskRequest} {answered : List Nat}
    {results : List (Nat × Result)} (inv : AnswersInv parse sent answered results)
    (later : sent <+: more) : AnswersInv parse more answered results where
  once := inv.once
  answered := inv.answered
  built := by
    intro entry member
    obtain ⟨request, response, isRequest, built⟩ := inv.built entry member
    obtain ⟨rest, rfl⟩ := later
    exact ⟨request, response, (List.getElem?_append_left
      (List.getElem?_eq_some_iff.mp isRequest).1).trans isRequest, built⟩

/-- The answer to a request that had none gives a result. -/
theorem AnswersInv.add {sent : List TaskRequest} {answered : List Nat}
    {results : List (Nat × Result)} {i : Nat} {request : TaskRequest} {response : Json}
    {result : Result} (inv : AnswersInv parse sent (answered ++ [i]) results)
    (unanswered : ∀ entry ∈ results, entry.1 ≠ i) (isRequest : sent[i]? = some request)
    (received : receivedResult parse request.arrival.task response = .ok (some result)) :
    AnswersInv parse sent (answered ++ [i]) (results ++ [(i, result)]) where
  once := by
    rw [List.map_append]
    refine List.nodup_append.mpr ⟨inv.once, List.nodup_singleton i, ?_⟩
    rintro old isOld now isNow rfl
    obtain ⟨entry, member, rfl⟩ := List.mem_map.mp isOld
    exact unanswered entry member (List.mem_singleton.mp isNow)
  answered := by
    intro entry member
    rcases List.mem_append.mp member with before | now
    · exact inv.answered entry before
    · cases List.mem_singleton.mp now
      exact List.mem_append_right _ (List.mem_singleton_self i)
  built := by
    intro entry member
    rcases List.mem_append.mp member with before | now
    · exact inv.built entry before
    · cases List.mem_singleton.mp now
      exact ⟨request, response, isRequest, received⟩

theorem WorkerInv.start (inv : WorkerInv parse state) (type : Option Json)
    (request : List (String × Json)) : WorkerInv parse (state.start type request) := by
  rw [WorkerState.start]
  split
  · exact inv
  · rename_i task built
    rcases addTaskUnverified_cases ⟨task, .str TaskStatus.unverified, none⟩ state.manager with
      same | ⟨free, added⟩
    · rw [same]
      simp only [if_true]
      exact inv
    · rw [added]
      simp only
      rw [if_neg (Nat.succ_ne_self _)]
      exact ⟨inv.verified.add task free, inv.placed.mono fun _ _ verified => verified.accept _,
        inv.keyed.of_fewer rfl fun _ _ _ active => active, inv.answers, inv.counts⟩

theorem WorkerInv.verify (inv : WorkerInv parse state) (serial : Nat) (answer : VerifyAnswer) :
    WorkerInv parse (state.verify serial answer) := by
  rw [WorkerState.verify]
  split
  · rename_i task found
    have effect := verdictEffect_onVerifyTask (orNull task.getTaskId) answer.isVerified
      (state.manager.applyTo serial answer)
    have placed := inv.placed.mono fun _ _ verified => verified.answer found answer
    have changed : KeyedInv (state.manager.applyTo serial answer) :=
      inv.keyed.of_fewer rfl fun _ _ _ active => active
    refine ⟨inv.verified.verify found answer, ?_, changed.onVerifyTask _ _, inv.answers, ?_⟩
    · rw [effect.verified]
      exact placed
    · intro result
      rw [finishing_onVerifyTask]
      exact inv.counts result
  · exact inv

/-- A notification is about transfers and publications only. -/
theorem notify_same (state : WorkerState) (request : DbRequest) :
    (state.notify request).manager = state.manager ∧
      (state.notify request).accepted = state.accepted ∧
      (state.notify request).answered = state.answered ∧
      (state.notify request).results = state.results := by
  rw [WorkerState.notify.eq_def]
  split <;> exact ⟨rfl, rfl, rfl, rfl⟩

/-- A notification sends more to the core, if anything. -/
theorem sent_notify (state : WorkerState) (request : DbRequest) :
    state.ptt.sent <+: (state.notify request).ptt.sent := by
  rw [WorkerState.notify.eq_def]
  split
  · exact sent_pttStep state.ptt (.verified _)
  · exact List.prefix_refl _
  · exact List.prefix_refl _

theorem WorkerInv.callback (inv : WorkerInv parse state) (i : Nat) :
    WorkerInv parse (state.callback parse i) := by
  rw [WorkerState.callback]
  split
  · exact inv
  · rename_i request isRequest
    have verified := @VerifiedInv.callback parse _ _ inv.verified i
    have keyed := @KeyedInv.callback parse _ inv.keyed i
    have counts : ∀ result, (state.published ++ request.publishes |>.map (·.2)).count result +
        (managerStep parse state.manager (.callback i)).finishing.count result ≤
          (state.results.map (·.2)).count result := by
      intro result
      have before := inv.counts result
      have less := @count_finishing_callback parse _ inv.keyed _ _ isRequest result
      rw [List.map_append, List.count_append]
      omega
    obtain ⟨manager, accepted, answered, results⟩ := notify_same
      { state with manager := managerStep parse state.manager (.callback i) } request
    refine ⟨?_, ?_, ?_, ?_, ?_⟩
    · rw [manager, accepted]
      exact verified
    · rw [manager, accepted]
      rcases @verified_callback parse _ _ _ isRequest with
        ⟨serial, task, record, rfl, isNow⟩ | ⟨other, same⟩
      · have going := active_of_replied isRequest
        have hasId := Option.isSome_iff_ne_none.mp (inv.keyed.key i _ going)
        simp only [isNow]
        exact inv.placed.announce (inv.verified.storing i _ _ _ _ going).1 hasId
      · simp only [same, notify_ptt _ other]
        exact inv.placed
    · rw [manager]
      exact keyed
    · rw [answered, results]
      have more := sent_notify
        { state with manager := managerStep parse state.manager (.callback i) } request
      exact inv.answers.of_prefix more
    · intro result
      rw [manager, results, notify_published]
      exact counts result

/-- A result that finishes a task was built from the answer. -/
theorem received_of_finishes {task : Task} {response : Json} {result : Result}
    (finishes : onCoreResponse parse task response = [.finishes result]) :
    receivedResult parse task response = .ok (some result) := by
  rw [onCoreResponse] at finishes
  split at finishes
  · cases finishes
  · split at finishes
    · cases finishes
    · split at finishes
      · cases finishes
      · cases finishes
      · rename_i built received
        cases finishes
        exact received

theorem WorkerInv.coreResult (inv : WorkerInv parse state) (i : Nat)
    (response : Except Exn Json) : WorkerInv parse (state.coreResult parse i response) := by
  rw [WorkerState.coreResult]
  split
  · exact inv
  · rename_i request isRequest
    split
    · exact inv
    · rename_i unanswered
      have waits : WorkerInv parse { state with answered := state.answered ++ [i] } :=
        ⟨inv.verified, inv.placed, inv.keyed, ⟨inv.answers.once,
          fun entry member => List.mem_append_left _ (inv.answers.answered entry member),
          inv.answers.built⟩, inv.counts⟩
      split
      · exact waits
      · rename_i response
        split
        · rename_i result finishes
          have received := received_of_finishes finishes
          obtain ⟨-, sameId, -⟩ := of_receivedResult received
          obtain ⟨hasId, -⟩ := inv.placed.object request.arrival
            (places_of_sent (List.mem_of_getElem? isRequest))
          obtain ⟨id, isId⟩ := Option.ne_none_iff_exists'.mp hasId
          have isKey : result.taskId = some (.str id) := by
            rw [sameId, Task.idJson, isId]
            rfl
          refine ⟨inv.verified.onFinishTask result, ?_, inv.keyed.onFinishTask isKey, ?_, ?_⟩
          · simp only [verified_onFinishTask]
            exact inv.placed
          · exact waits.answers.add (fun entry member same => unanswered
              (same ▸ inv.answers.answered entry member)) isRequest received
          · intro other
            have before := inv.counts other
            have more := @count_finishing_onFinishTask state.manager result other
            simp only [List.map_append, List.map_cons, List.map_nil, List.count_append]
            omega
        · exact waits

/-- A transfer starts, or gets an answer. -/
theorem WorkerInv.transfer (inv : WorkerInv parse state) {label : PttLabel}
    (isTransfer : label = .newEpoch ∨ ∃ isError, label = .answer isError) :
    WorkerInv parse { state with ptt := pttStep state.ptt label } := by
  have arriving : state.ptt.arriving label = [] := by
    rcases isTransfer with rfl | ⟨isError, rfl⟩ <;> rfl
  have arrivals : (pttStep state.ptt label).arrivals = state.ptt.arrivals := by
    rcases isTransfer with rfl | ⟨isError, rfl⟩
    · rw [pttStep, PttState.getStateKeys]
      split <;> rfl
    · rw [pttStep, PttState.answer.eq_def]
      split
      · rfl
      · rename_i owner stage round
        split
        · exact onPTTEnd_arrivals state.ptt
        · cases stage with
          | response =>
              cases owner <;> exact onPTTEnd_arrivals state.ptt
          | _ => rfl
  exact ⟨inv.verified, inv.placed.transfer arriving arrivals, inv.keyed,
    inv.answers.of_prefix (sent_pttStep _ _), inv.counts⟩

theorem WorkerInv.step (inv : WorkerInv parse state) (label : WorkerLabel) :
    WorkerInv parse (workerStep parse state label) := by
  cases label with
  | start type request => exact inv.start type request
  | verify serial answer => exact inv.verify serial answer
  | perform i fails =>
      rw [workerStep]
      split
      · exact inv
      · rename_i request isRequest
        refine ⟨@VerifiedInv.perform parse _ _ inv.verified i _, ?_,
          @KeyedInv.perform parse _ inv.keyed _ _ isRequest fails, inv.answers, ?_⟩
        · rw [(samePool_perform _ _ _).verified]
          exact inv.placed
        · intro result
          rw [count_finishing_perform]
          exact inv.counts result
  | callback i => exact inv.callback i
  | newEpoch => exact inv.transfer (.inl rfl)
  | pttAnswer isError => exact inv.transfer (.inr ⟨isError, rfl⟩)
  | coreResult i response => exact inv.coreResult i response
  | outside type resultObj ethereumFailure =>
      rw [workerStep]
      split
      · rename_i task built
        refine ⟨inv.verified.addOutsideResult task, ?_, inv.keyed.addOutsideResult ?_,
          inv.answers, ?_⟩
        · rw [verified_addOutsideResult]
          exact inv.placed
        · rintro outside rfl
          exact taskKeyed_outsideTask built
        · intro result
          rw [finishing_addOutsideResult]
          exact inv.counts result
      · exact inv

theorem WorkerInv.right (inv : WorkerInv parse state) : WorkerRight parse state where
  sent := fun request sent => (inv.placed.object _ (places_of_sent sent)).2
  sentOnce := by
    intro i j first second serial isFirst isSecond verified verified'
    have sameArrival : first.arrival.serial = second.arrival.serial :=
      (List.getElem?_inj (List.getElem?_eq_some_iff.mp verified).1
        inv.verified.serials.nodup).mp (verified.trans verified'.symm)
    have bound : i < (state.ptt.sent.map (·.arrival.serial)).length := by
      rw [List.length_map]
      exact (List.getElem?_eq_some_iff.mp isFirst).1
    refine (List.getElem?_inj bound inv.placed.sentOnce).mp ?_
    rw [List.getElem?_map, List.getElem?_map, isFirst, isSecond]
    exact congrArg some sameArrival
  answers := inv.answers
  published := fun result => Nat.le_of_add_right_le (inv.counts result)

end

/-- Over all runs of the worker, from a database in which the result of a record has the id of
its key: every task that is sent to the core is verified, and sent once; every result is one
the core computed for it; and a result is published no more often than it was computed. -/
theorem workerRight_run (parse : String → Except Exn Json) {db : List (String × Json)}
    (keyed : ∀ key record, db.lookup key = some record → ResultKeyed key record)
    (labels : List WorkerLabel) :
    WorkerRight parse (run (workerStep parse) (.initial db) labels) := by
  have inv : WorkerInv parse (run (workerStep parse) (.initial db) labels) :=
    invariant_of_step (workerInv_initial keyed) (fun _ label inv => inv.step label) labels
  exact inv.right

/-- A computation from its submission to its publication, on a node without Ethereum. -/
def computationRun : List WorkerLabel :=
  [.start (some (.str CoreRequests.computeTask)) [("taskId", .str "0a1b"),
      ("encryptedArgs", .str "0c"), ("encryptedFn", .str "0d"), ("userDHKey", .str "0e"),
      ("contractAddress", .str "0f")],
    .verify 0 .noEthereum, .perform 0 false, .callback 0,
    .coreResult 0 (.ok (computationAnswer CoreRequests.computeTask)),
    .perform 1 false, .callback 1, .perform 2 false, .callback 2, .perform 3 false, .callback 3]

/-- The record of a failed task of another day. -/
def earlierRecord : Json :=
  .obj [("status", .str TaskStatus.failed), ("result", .obj [("taskId", .str "07")])]

theorem workerRight_computation :
    (run (workerStep fun _ => .error .error) (.initial [("07", earlierRecord)])
      computationRun).published.map (·.2) = [computedResult .compute] ∧
    WorkerRight (fun _ => .error .error) (run (workerStep fun _ => .error .error)
      (.initial [("07", earlierRecord)]) computationRun) := by
  refine ⟨by decide, workerRight_run _ ?_ computationRun⟩
  intro key record found
  rw [List.lookup_cons] at found
  split at found
  · rename_i same
    cases found
    rw [eq_of_beq same]
    exact .inr ⟨_, rfl, rfl⟩
  · cases found

end Tasks
