import EnigmaP2P.Tasks.TaskManager

/-!
# Reading tasks

A task is in the pool, in memory, or in the database, which answers by a callback. Four
functions read one: with a callback or with a promise, the task or its status.

`getTask` returns the task of the pool and calls nothing. So none of the four functions
completes for an id in the pool, and none does if loading a record throws.
-/

namespace Tasks

open Js Common Transition ManagerState

/-- The error of a read: that of the database, or a text. -/
inductive ReadErr where
  | db
  | text (message : String)
  deriving DecidableEq

/-- `getStatus()`. -/
def StoredTask.getStatus : StoredTask → Json
  | .own task => task.status
  | .outside task => .str task.status

section

variable (parse : String → Except Exn Json) {α : Type}

/-- What the database has for an id, unless the read fails. -/
def dbGet (state : ManagerState) (fails : Bool) (taskId : String) : Option Json :=
  if fails then none else state.db.lookup taskId

/-- `_readTask`. An exception in the callback of the database calls nothing. -/
def readTask (reply : Option Json) (callback : Except ReadErr StoredTask → List α) : List α :=
  match reply with
  | none => callback (.error .db)
  | some record =>
      match deserializeTask parse record with
      | .error _ => []
      | .ok (some task) => callback (.ok task)
      | .ok none => callback (.error (.text "error loading task from db"))

/-- `getTask` is what its callback does. -/
def getTask (state : ManagerState) (fails : Bool) (taskId : String)
    (callback : Except ReadErr StoredTask → List α) : List α :=
  if state.isUnverifiedInPool taskId then []
  else readTask parse (dbGet state fails taskId) callback

/-- `getTaskStatus`; `none` is `null`. -/
def getTaskStatus (state : ManagerState) (fails : Bool) (taskId : String)
    (callback : Option Json → List α) : List α :=
  getTask parse state fails taskId fun
    | .error _ => callback none
    | .ok task => callback (some task.getStatus)

/-- A promise is settled by the first call. -/
def settled (calls : List α) : Option α := calls.head?

/-- `asyncGetTask`. -/
def asyncGetTask (state : ManagerState) (fails : Bool) (taskId : String) :
    Option (Except ReadErr StoredTask) :=
  settled (getTask parse state fails taskId fun answer => [answer])

/-- `asyncGetTaskStatus`. -/
def asyncGetTaskStatus (state : ManagerState) (fails : Bool) (taskId : String) :
    Option (Except ReadErr Json) :=
  settled (getTask parse state fails taskId fun answer => [answer.map StoredTask.getStatus])

/-- The task of the pool, or else that of the database. -/
def taskOf (state : ManagerState) (fails : Bool) (taskId : String) : Option StoredTask :=
  match state.pool.lookup taskId with
  | some entry => some (.own entry.task)
  | none => (dbGet state fails taskId).bind fun record =>
      (deserializeTask parse record).toOption.join

/-- Each function completes once, with the task or its status, or with an error. -/
structure ReadsRight (state : ManagerState) (fails : Bool) (taskId : String) : Prop where
  getTask : (getTask parse state fails taskId fun answer => [answer.toOption]) =
    [taskOf parse state fails taskId]
  asyncGetTask : (asyncGetTask parse state fails taskId).map Except.toOption =
    some (taskOf parse state fails taskId)
  getTaskStatus : (getTaskStatus parse state fails taskId fun status => [status]) =
    [(taskOf parse state fails taskId).map StoredTask.getStatus]
  asyncGetTaskStatus : (asyncGetTaskStatus parse state fails taskId).map Except.toOption =
    some ((taskOf parse state fails taskId).map StoredTask.getStatus)

/-- The id is not in the pool and not the name of an inherited property, and the record of the
id is loaded without an exception. -/
structure ReadClear (state : ManagerState) (fails : Bool) (taskId : String) : Prop where
  notPooled : state.isUnverifiedInPool taskId = false
  loads : ∀ record ∈ dbGet state fails taskId, (deserializeTask parse record).isOk = true

end

variable {parse : String → Except Exn Json} {state : ManagerState} {fails : Bool} {taskId : String}

/-- A clear read calls back once, with the task or an error. -/
theorem getTask_of_clear (clear : ReadClear parse state fails taskId) :
    ∃ answer : Except ReadErr StoredTask, answer.toOption = taskOf parse state fails taskId ∧
      ∀ {α : Type} (callback : Except ReadErr StoredTask → List α),
        getTask parse state fails taskId callback = callback answer := by
  have notOwn := lookup_of_hasProperty_eq_false clear.notPooled
  have reads : ∀ {α : Type} (callback : Except ReadErr StoredTask → List α),
      getTask parse state fails taskId callback =
        readTask parse (dbGet state fails taskId) callback := by
    intro α callback
    rw [getTask, clear.notPooled]
    rfl
  rw [taskOf, notOwn]
  cases reply : dbGet state fails taskId with
  | none => exact ⟨.error .db, rfl, fun callback => by rw [reads, reply, readTask]⟩
  | some record =>
      have isOk := clear.loads record reply
      cases loaded : deserializeTask parse record with
      | error exn =>
          rw [loaded] at isOk
          cases isOk
      | ok task =>
          cases task with
          | none =>
              refine ⟨.error (.text "error loading task from db"), ?_, fun callback => ?_⟩
              · rw [Option.bind_some, loaded]
                rfl
              · rw [reads, reply, readTask, loaded]
          | some task =>
              refine ⟨.ok task, ?_, fun callback => ?_⟩
              · rw [Option.bind_some, loaded]
                rfl
              · rw [reads, reply, readTask, loaded]

/-- A read that calls back is clear. -/
theorem clear_of_getTask {α : Type} {callback : Except ReadErr StoredTask → List α}
    (calls : getTask parse state fails taskId callback ≠ []) :
    ReadClear parse state fails taskId := by
  rw [getTask] at calls
  split at calls
  · exact absurd rfl calls
  · rename_i notPooled
    refine ⟨Bool.eq_false_iff.mpr notPooled, fun record isRecord => ?_⟩
    have reply : dbGet state fails taskId = some record := isRecord
    rw [reply, readTask] at calls
    cases loaded : deserializeTask parse record with
    | error exn =>
        rw [loaded] at calls
        exact absurd rfl calls
    | ok task => rfl

/-- Each of the four functions completes once with the task of the id exactly if the read is
clear. -/
theorem readsRight_iff (parse : String → Except Exn Json) (state : ManagerState) (fails : Bool)
    (taskId : String) :
    ReadsRight parse state fails taskId ↔ ReadClear parse state fails taskId := by
  constructor
  · intro right
    apply clear_of_getTask
    rw [right.getTask]
    nofun
  · intro clear
    obtain ⟨answer, isTask, calls⟩ := getTask_of_clear clear
    constructor
    · rw [calls, isTask]
    · rw [asyncGetTask, calls, ← isTask]
      rfl
    · rw [getTaskStatus, calls, ← isTask]
      cases answer <;> rfl
    · rw [asyncGetTaskStatus, calls, ← isTask]
      cases answer <;> rfl

/-- A task that was submitted is in the pool, and no function completes for its id. -/
theorem readsRight_wrong :
    let state := run (managerStep noTexts) (.initial []) [.addTaskUnverified (submission "01")]
    (state.pool.lookup "aa").isSome = true ∧
    getTask noTexts state false "aa" (fun answer => [answer]) = [] ∧
    asyncGetTask noTexts state false "aa" = none ∧
    getTaskStatus noTexts state false "aa" (fun status => [status]) = [] ∧
    asyncGetTaskStatus noTexts state false "aa" = none ∧
    ¬ ReadsRight noTexts state false "aa" := by
  refine ⟨by decide, by decide, by decide, by decide, by decide, fun right => ?_⟩
  exact absurd right.getTaskStatus (by decide)

end Tasks
