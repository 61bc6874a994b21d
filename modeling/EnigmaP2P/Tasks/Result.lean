import EnigmaP2P.Common.Constants
import EnigmaP2P.Common.Utils

/-!
# Results of tasks

`Result.js` and `OutsideTask.js`. The three classes of a result read their fields from a
message after a check that the expected ones are there. `buildFromRaw` takes the class
from the type of the task and writes the status of that class into the message first.

`JSON.parse` on a result that is itself a text is a parameter.
-/

namespace Tasks

open Js Common

inductive ResultClass where
  | failed
  | compute
  | deploy
  deriving DecidableEq, Repr

namespace ResultClass

/-- The `expected` properties of the builder of a class. -/
def expected : ResultClass → List String
  | failed => ["taskId", "output", "usedGas", "signature"]
  | compute => ["taskId", "status", "output", "delta", "usedGas", "ethereumPayload",
      "ethereumAddress", "signature"]
  | deploy => ["taskId", "status", "output", "delta", "usedGas", "ethereumPayload",
      "ethereumAddress", "signature", "preCodeHash"]

/-- The status that `buildFromRaw` writes for a class. -/
def rawStatus : ResultClass → String
  | failed => TaskStatus.failed
  | compute | deploy => TaskStatus.success

end ResultClass

/-- A result of any class. A failed one has the fields `output`, `usedGas` and
`signature` only, and `preCodeHash` belongs to a deployment. -/
structure Result where
  cls : ResultClass
  taskId : Option Json
  status : Option Json
  output : Option Json
  delta : Option Json
  usedGas : Option Json
  ethereumPayload : Option Json
  ethereumAddress : Option Json
  signature : Option Json
  preCodeHash : Option Json
  deriving DecidableEq

/-- `hasDelta()`: the delta and its data are truthy. -/
def Result.hasDelta (result : Result) : Bool :=
  match result.delta with
  | some delta => delta.truthy && truthy? (delta.get? "data")
  | none => false

/-- `isSuccess()`. -/
def Result.isSuccess (result : Result) : Bool :=
  result.status = some (.str TaskStatus.success)

/-- The constructor call of a builder. -/
def Result.ofFields (cls : ResultClass) (fields : List (String × Json)) : Result :=
  let ofCompute := fun key => if cls = .failed then none else fields.lookup key
  { cls := cls
    taskId := fields.lookup "taskId"
    status := if cls = .failed then some (.str TaskStatus.failed) else fields.lookup "status"
    output := fields.lookup "output"
    delta := ofCompute "delta"
    usedGas := fields.lookup "usedGas"
    ethereumPayload := ofCompute "ethereumPayload"
    ethereumAddress := ofCompute "ethereumAddress"
    signature := fields.lookup "signature"
    preCodeHash := if cls = .deploy then fields.lookup "preCodeHash" else none }

/-- No expected property is missing. -/
def HasExpected (cls : ResultClass) (fields : List (String × Json)) : Prop :=
  ∀ attr ∈ cls.expected, hasProperty attr fields = true

instance (cls : ResultClass) (fields : List (String × Json)) :
    Decidable (HasExpected cls fields) :=
  inferInstanceAs (Decidable (∀ _ ∈ _, _))

variable (parse : String → Except Exn Json)

/-- The builder of a class on a value that is no text; `none` is `null`. The operator
`in` throws for a primitive, and an array has none of the expected properties. -/
def buildFromValue (cls : ResultClass) : Json → Except Exn (Option Result)
  | .obj fields =>
      .ok (if HasExpected cls fields then some (Result.ofFields cls fields) else none)
  | .arr _ => .ok none
  | _ => .error .typeError

/-- `buildFailedResult`, `buildComputeResult` and `buildDeployResult`. -/
def buildResult (cls : ResultClass) (result : Option Json) : Except Exn (Option Result) :=
  match result with
  | none => .error .typeError
  | some (.str text) => do buildFromValue cls (← parse text)
  | some value => buildFromValue cls value

def buildFailedResult := buildResult parse .failed
def buildComputeResult := buildResult parse .compute
def buildDeployResult := buildResult parse .deploy

/-- The cases of the `switch` of `buildFromRaw`. -/
def rawClass (type : Option Json) : Option ResultClass :=
  if type = some (.str CoreRequests.failedTask) then some .failed
  else if type = some (.str CoreRequests.deploySecretContract) then some .deploy
  else if type = some (.str CoreRequests.computeTask) then some .compute
  else none

/-- `rawResult.status = …` in strict code: primitives throw. -/
def assignStatus (status : String) : Option Json → Except Exn Json
  | some (.obj fields) => .ok (.obj (setField "status" (.str status) fields))
  | some (.arr items) => .ok (.arr items)
  | _ => .error .typeError

/-- `Result.buildFromRaw`. -/
def buildFromRaw (type rawResult : Option Json) : Except Exn (Option Result) :=
  match rawClass type with
  | none => .ok none
  | some cls => do
      let rawResult ← assignStatus cls.rawStatus rawResult
      buildResult parse cls (some rawResult)

/-- An `OutsideTask`; its own status follows that of the result. -/
structure OutsideTask where
  taskId : Option String
  type : Option Json
  status : String
  result : Option Result
  deriving DecidableEq

/-- `setResult`: a result with another id is ignored. -/
def OutsideTask.setResult (task : OutsideTask) (result : Result) : OutsideTask :=
  if result.taskId = some (task.taskId.elim .null .str) then
    { task with
      result := some result
      status := if result.isSuccess then TaskStatus.success else TaskStatus.failed }
  else task

/-- The constructor. -/
def OutsideTask.new (type : Option Json) (result : Result) : OutsideTask :=
  OutsideTask.setResult ⟨remove0x result.taskId, type, TaskStatus.unverified, none⟩ result

/-- `OutsideTask.buildTask`. -/
def buildOutsideTask (type rawResult : Option Json) : Except Exn (Option OutsideTask) := do
  let result ← buildFromRaw parse type rawResult
  pure (result.map (OutsideTask.new type))

/-- `getResult().setStatus(status)`. -/
def OutsideTask.setResultStatus (task : OutsideTask) (status : Option Json) :
    Except Exn OutsideTask :=
  match task.result with
  | none => .error .typeError
  | some result => .ok { task with result := some { result with status := status } }

/-- The properties of an object literal that `JSON.stringify` writes. -/
def definedFields (fields : List (String × Option Json)) : Json :=
  .obj (fields.filterMap fun field => field.2.map (field.1, ·))

theorem get?_definedFields_nil (key : String) : (definedFields []).get? key = none := rfl

theorem get?_definedFields_cons (key other : String) (value : Option Json)
    (fields : List (String × Option Json)) :
    (definedFields ((key, value) :: fields)).get? other =
      if other = key then value.or ((definedFields fields).get? other)
      else (definedFields fields).get? other := by
  cases value with
  | none => simp [definedFields, Json.get?]
  | some value =>
      simp only [definedFields, Json.get?, List.filterMap_cons, Option.map_some, List.lookup_cons,
        Option.some_or]
      by_cases same : other = key
      · simp [same]
      · simp [same, beq_false_of_ne same]

/-- `toDbJson` of a result, as it is written. -/
def Result.toDbJson (result : Result) : Json :=
  match result.cls with
  | .failed => definedFields [("taskId", result.taskId), ("status", result.status),
      ("output", result.output), ("usedGas", result.usedGas), ("signature", result.signature)]
  | .compute => definedFields [("taskId", result.taskId), ("status", result.status),
      ("output", result.output), ("delta", result.delta), ("usedGas", result.usedGas),
      ("ethereumPayload", result.ethereumPayload), ("ethereumAddress", result.ethereumAddress),
      ("signature", result.signature)]
  | .deploy => definedFields [("taskId", result.taskId), ("status", result.status),
      ("preCodeHash", result.preCodeHash), ("output", result.output), ("delta", result.delta),
      ("usedGas", result.usedGas), ("ethereumPayload", result.ethereumPayload),
      ("ethereumAddress", result.ethereumAddress), ("signature", result.signature)]

/-- `toDbJson` of a task; without a result it throws. -/
def OutsideTask.toDbJson (task : OutsideTask) : Except Exn Json :=
  match task.result with
  | none => .error .typeError
  | some result => .ok (definedFields [("outsideTask", some (.bool true)),
      ("status", result.status), ("type", task.type),
      ("taskId", some (task.taskId.elim .null .str)), ("result", some result.toDbJson)])

/-- `OutsideTask.fromDbJson`: a record without a status loads as `null`. -/
def OutsideTask.fromDbJson (taskObj : Json) : Except Exn (Option OutsideTask) :=
  if truthy? (taskObj.get? "status") then
    buildOutsideTask parse (taskObj.get? "type") (taskObj.get? "result")
  else .ok none

variable {parse}

/-! ## What is built -/

@[simp] theorem buildResult_obj (cls : ResultClass) (fields : List (String × Json)) :
    buildResult parse cls (some (.obj fields)) =
      .ok (if HasExpected cls fields then some (Result.ofFields cls fields) else none) := rfl

/-- Everything that is expected apart from the status. -/
def HasExpectedButStatus (cls : ResultClass) (fields : List (String × Json)) : Prop :=
  ∀ attr ∈ cls.expected, attr ≠ "status" → hasProperty attr fields = true

theorem hasExpected_setField_status (cls : ResultClass) (fields : List (String × Json))
    (status : Json) :
    HasExpected cls (setField "status" status fields) ↔ HasExpectedButStatus cls fields := by
  refine forall₂_congr fun attr _ => ?_
  by_cases isStatus : attr = "status"
  · subst isStatus
    exact iff_of_true (hasProperty_of_lookup (lookup_setField_self _ _ _))
      (fun other => absurd rfl other)
  · rw [hasProperty, hasProperty, lookup_setField_ne isStatus]
    exact ⟨fun has _ => has, fun has => has isStatus⟩

/-- The builder reads back the status that was written. -/
theorem ofFields_setField_status (cls : ResultClass) (fields : List (String × Json)) :
    Result.ofFields cls (setField "status" (.str cls.rawStatus) fields) =
      { Result.ofFields cls fields with status := some (.str cls.rawStatus) } := by
  have others : ∀ key, key ≠ "status" →
      (setField "status" (Json.str cls.rawStatus) fields).lookup key = fields.lookup key :=
    fun _ other => lookup_setField_ne other _ fields
  cases cls <;>
    simp only [Result.ofFields, lookup_setField_self, others _ (show "taskId" ≠ "status" by decide),
      others _ (show "output" ≠ "status" by decide), others _ (show "delta" ≠ "status" by decide),
      others _ (show "usedGas" ≠ "status" by decide),
      others _ (show "ethereumPayload" ≠ "status" by decide),
      others _ (show "ethereumAddress" ≠ "status" by decide),
      others _ (show "signature" ≠ "status" by decide),
      others _ (show "preCodeHash" ≠ "status" by decide)] <;> rfl

theorem buildFromRaw_obj {type : Option Json} {cls : ResultClass}
    (isClass : rawClass type = some cls)
    {fields : List (String × Json)} (has : HasExpectedButStatus cls fields) :
    buildFromRaw parse type (some (.obj fields)) =
      .ok (some { Result.ofFields cls fields with status := some (.str cls.rawStatus) }) := by
  rw [buildFromRaw, isClass]
  change buildResult parse cls (some (.obj _)) = _
  rw [buildResult_obj, if_pos ((hasExpected_setField_status cls fields _).mpr has),
    ofFields_setField_status]

/-- A raw result that becomes one is an object with the expected properties. -/
theorem of_buildFromRaw {type rawResult : Option Json} {result : Result}
    (built : buildFromRaw parse type rawResult = .ok (some result)) :
    ∃ cls fields, rawClass type = some cls ∧ rawResult = some (.obj fields) ∧
      HasExpectedButStatus cls fields ∧
      result = { Result.ofFields cls fields with status := some (.str cls.rawStatus) } := by
  unfold buildFromRaw at built
  split at built
  · cases built
  · rename_i cls isClass
    obtain ⟨written, assigned, built⟩ := bind_eq_ok.mp built
    unfold assignStatus at assigned
    split at assigned
    · rename_i fields
      cases assigned
      rw [buildResult_obj, ofFields_setField_status] at built
      split at built
      · rename_i has
        cases built
        exact ⟨cls, fields, isClass, rfl, (hasExpected_setField_status cls fields _).mp has, rfl⟩
      · cases built
    · cases assigned
      cases built
    · cases assigned

/-- The raw result becomes a task that can be stored: it has the properties that the class
of its type expects, and its id is a text without prefix. -/
structure Storable (type : Option Json) (fields : List (String × Json)) (cls : ResultClass)
    (taskId : String) : Prop where
  isClass : rawClass type = some cls
  has : HasExpectedButStatus cls fields
  isId : fields.lookup "taskId" = some (.str taskId)
  noPrefix : strip0x taskId = taskId

/-- The result that is stored for a raw result. -/
def storedResult (cls : ResultClass) (fields : List (String × Json)) : Result :=
  { Result.ofFields cls fields with status := some (.str cls.rawStatus) }

theorem Storable.buildOutsideTask {type : Option Json} {fields : List (String × Json)}
    {cls : ResultClass} {taskId : String} (storable : Storable type fields cls taskId) :
    ∃ task, buildOutsideTask parse type (some (.obj fields)) = .ok (some task) ∧
      task.taskId = some taskId ∧ task.result = some (storedResult cls fields) := by
  have id : (storedResult cls fields).taskId = some (.str taskId) := storable.isId
  have removed : remove0x (storedResult cls fields).taskId = some taskId := by
    rw [id, remove0x_str, storable.noPrefix]
  refine ⟨OutsideTask.new type (storedResult cls fields), ?_, ?_, ?_⟩
  · rw [Tasks.buildOutsideTask, buildFromRaw_obj storable.isClass storable.has]
    rfl
  all_goals
    rw [OutsideTask.new, OutsideTask.setResult, if_pos (by rw [removed]; exact id)]
  exact removed

/-- A task with an id and a result comes from a storable raw result. -/
theorem storable_of_buildOutsideTask {type rawResult : Option Json} {task : OutsideTask}
    (built : buildOutsideTask parse type rawResult = .ok (some task)) {taskId : String}
    (isId : task.taskId = some taskId) {stored : Result} (result : task.result = some stored) :
    ∃ cls fields, rawResult = some (.obj fields) ∧ Storable type fields cls taskId ∧
      stored = storedResult cls fields := by
  obtain ⟨raw, rawBuilt, same⟩ := bind_eq_ok.mp built
  obtain ⟨cls, fields, isClass, rfl, has, rfl⟩ : ∃ cls fields, rawClass type = some cls ∧
      rawResult = some (.obj fields) ∧ HasExpectedButStatus cls fields ∧
      raw = some (storedResult cls fields) := by
    cases raw with
    | none => cases same
    | some raw =>
        obtain ⟨cls, fields, isClass, isObj, has, rfl⟩ := of_buildFromRaw rawBuilt
        exact ⟨cls, fields, isClass, isObj, has, rfl⟩
  obtain ⟨rfl⟩ : OutsideTask.new type (storedResult cls fields) = task :=
    Option.some.inj (Except.ok.inj same)
  unfold OutsideTask.new OutsideTask.setResult at isId result
  split at result
  · rename_i sameId
    cases result
    rw [if_pos sameId] at isId
    have removed : remove0x (fields.lookup "taskId") = some taskId := isId
    have id : fields.lookup "taskId" = some (.str taskId) := by
      have plain := sameId
      rw [show remove0x (storedResult cls fields).taskId = some taskId from isId] at plain
      exact plain
    rw [id, remove0x_str] at removed
    exact ⟨cls, fields, rfl, ⟨isClass, has, id, Option.some.inj removed⟩, rfl⟩
  · cases result

/-- Without a status a record loads as `null`. -/
theorem fromDbJson_of_no_status {task : OutsideTask} {result : Result}
    (hasResult : task.result = some result) (noStatus : result.status = none) {record : Json}
    (written : task.toDbJson = .ok record) : OutsideTask.fromDbJson parse record = .ok none := by
  unfold OutsideTask.toDbJson at written
  rw [hasResult] at written
  cases written
  rw [OutsideTask.fromDbJson, noStatus]
  cases task.type <;> rfl

end Tasks
