import EnigmaP2P.Core.Removal
import EnigmaP2P.Ethereum.Submission
import EnigmaP2P.Tasks.Task

/-!
# Committing a result

`CommitReceiptAction` calls the contract for a finished task, and asks the core to remove
what the task changed if the call did not succeed. The answers of the contract and of the
core are inputs.

In the `catch` of a computation the log line names a variable that does not exist. The
`ReferenceError` leaves the action before anything is reverted, and what follows in that
branch (the resync after an invalid signature included) is never reached.
-/

namespace Ethereum

open Js Common Tasks Core

/-- A task with its result. Results of failures are built with the status `FAILED`. -/
structure FinishedTask where
  task : Task
  result : Result
  failed : result.cls = .failed → result.isSuccess = false

/-- What a call of the contract comes to: the event of success or of a failed callback is
there, or the call is rejected. -/
inductive CommitOutcome where
  | succeeded
  | receiptFailedETH
  | rejected (message : String)
  deriving DecidableEq

/-- The errors that the action returns. -/
inductive CommitError where
  | inputErr (message : String)
  | thrown (exn : Exn)
  | rejected (message : String)
  | core (reason : String)
  deriving DecidableEq

/-- A call of the contract's writer. -/
structure ChainCall where
  method : String
  arguments : List (Option Json)

/-- What the action does: its calls of the contract, its messages to the core, and how its
promise settles. -/
structure CommitRun where
  calls : List ChainCall
  removals : List Removal
  settled : Except Exn (Option CommitError)

/-- A text or `null` as an argument. -/
def textArgument (text : Option String) : Option Json :=
  some (text.elim .null .str)

section

variable (platform : Platform)

/-- `cryptography.hash(value)` as an argument. -/
def hashArgument (value : Option Json) : Except Exn (Option Json) :=
  (Common.hash platform value).map textArgument

/-- The call of `deploySecretContract`. Only a deployment's result has `getPreCodeHash`. -/
def deployCall (task : Task) (result : Result) : Except Exn ChainCall :=
  if result.cls ≠ .deploy then .error .typeError
  else do
    let codeHash ← hashArgument platform result.output
    let initStateDeltaHash ← hashArgument platform (deltaField "data" result)
    pure ⟨"deploySecretContract", [textArgument task.getTaskId, result.preCodeHash, codeHash,
      initStateDeltaHash, result.ethereumPayload, result.ethereumAddress, result.usedGas,
      result.signature]⟩

/-- The call of `deploySecretContractFailure`. -/
def deployFailureCall (task : Task) (result : Result) : Except Exn ChainCall := do
  let outputHash ← hashArgument platform result.output
  pure ⟨"deploySecretContractFailure",
    [textArgument task.getTaskId, outputHash, result.usedGas, result.signature]⟩

/-- `deltaHash`, which is computed outside of the `try`. -/
def commitDeltaHash (result : Result) : Except Exn (Option Json) :=
  if result.hasDelta then hashArgument platform (deltaField "data" result)
  else .ok (some (.str emptyHash))

/-- The call of `commitReceipt`. -/
def receiptCall (task : Task) (result : Result) (deltaHash : Option Json) :
    Except Exn ChainCall := do
  let outputHash ← hashArgument platform result.output
  pure ⟨"commitReceipt", [textArgument task.fields.contractAddr, textArgument task.getTaskId,
    deltaHash, outputHash, result.ethereumPayload, result.ethereumAddress, result.usedGas,
    result.signature]⟩

/-- The call of `commitTaskFailure`. -/
def taskFailureCall (task : Task) (result : Result) : Except Exn ChainCall := do
  let outputHash ← hashArgument platform result.output
  pure ⟨"commitTaskFailure", [textArgument task.fields.contractAddr, textArgument task.getTaskId,
    outputHash, result.usedGas, result.signature]⟩

end

/-- The message of `_revertState`. -/
def revertMessage (task : Task) (result : Result) : Except Exn Removal :=
  match task with
  | .deploy fields _ => .ok (.removeContract fields.contractAddr)
  | .compute fields => deltaRemoval fields.contractAddr (deltaField "key" result)

/-- The end of a branch that reverts: the first error is the one that is returned. -/
def revertState (task : Task) (result : Result) (update : Except String Unit)
    (calls : List ChainCall) (err : Option CommitError) : CommitRun :=
  match revertMessage task result with
  | .error exn => ⟨calls, [], .error exn⟩
  | .ok message =>
      ⟨calls, [message], .ok (err <|> match update with
        | .ok _ => none
        | .error reason => some (.core reason))⟩

/-- The commit of a failure; only its errors matter. -/
def commitFailure (call : Except Exn ChainCall) (outcome : CommitOutcome) : CommitRun :=
  match call with
  | .error exn => ⟨[], [], .ok (some (.thrown exn))⟩
  | .ok call => ⟨[call], [], .ok (match outcome with
      | .rejected message => some (.rejected message)
      | .succeeded | .receiptFailedETH => none)⟩

variable (platform : Platform)

/-- `_commitDeployTask`. -/
def commitDeployTask (task : Task) (result : Result) (outcome : CommitOutcome)
    (update : Except String Unit) : CommitRun :=
  if result.isSuccess then
    if !result.hasDelta then
      ⟨[], [], .ok (some (.inputErr ("No delta for deploy task " ++ orNull task.getTaskId)))⟩
    else
      match deployCall platform task result with
      | .error exn => revertState task result update [] (some (.thrown exn))
      | .ok call =>
          match outcome with
          | .succeeded => ⟨[call], [], .ok none⟩
          | .receiptFailedETH => revertState task result update [call] none
          | .rejected message =>
              revertState task result update [call] (some (.rejected message))
  else commitFailure (deployFailureCall platform task result) outcome

/-- `_commitComputeTask`. -/
def commitComputeTask (task : Task) (result : Result) (outcome : CommitOutcome)
    (update : Except String Unit) : CommitRun :=
  if result.isSuccess then
    match commitDeltaHash platform result with
    | .error exn => ⟨[], [], .error exn⟩
    | .ok deltaHash =>
        match receiptCall platform task result deltaHash with
        -- the log line of the `catch` reads `e`
        | .error _ => ⟨[], [], .error .referenceError⟩
        | .ok call =>
            match outcome with
            | .succeeded => ⟨[call], [], .ok none⟩
            | .receiptFailedETH =>
                if result.hasDelta then revertState task result update [call] none
                else ⟨[call], [], .ok none⟩
            | .rejected _ => ⟨[call], [], .error .referenceError⟩
  else commitFailure (taskFailureCall platform task result) outcome

/-- `CommitReceiptAction.asyncExecute`. -/
def commitReceipt (finished : FinishedTask) (outcome : CommitOutcome)
    (update : Except String Unit) : CommitRun :=
  match finished.task with
  | .deploy .. => commitDeployTask platform finished.task finished.result outcome update
  | .compute _ => commitComputeTask platform finished.task finished.result outcome update

/-! ## What a commit should leave behind -/

/-- The task changed the state of the core. -/
def ChangedState (finished : FinishedTask) : Prop :=
  finished.result.isSuccess = true ∧ match finished.task with
    | .deploy .. => True
    | .compute _ => finished.result.hasDelta = true

variable {platform} {finished : FinishedTask} {outcome : CommitOutcome}
  {update : Except String Unit}

/-- A computation on the contract `0a` with its delta number 3. -/
def commitExample : FinishedTask where
  task := .compute ⟨some "0b", some "0a", some (.str "01"), some (.str "02"), some (.str "03"),
    some (.num 0), some (.num 7)⟩
  result :=
    { cls := .compute
      taskId := some (.str "0b")
      status := some (.str TaskStatus.success)
      output := some (.str "05")
      delta := some (.obj [("key", .num 3), ("data", .arr [.num 1])])
      usedGas := some (.num 0)
      ethereumPayload := some (.str "")
      ethereumAddress := some (.str "")
      signature := some (.str "00")
      preCodeHash := none }
  failed := nofun

end Ethereum
