import EnigmaP2P.Common.Cryptography
import EnigmaP2P.Common.Errors
import EnigmaP2P.Ethereum.TaskEvents
import EnigmaP2P.Tasks.Result

/-!
# Verification of a submitted result

`verifyTaskSubmission` compares a result with the chain in one of two ways: a listener
compares it with the event of the submission, or, when the submission is older than the
call, `_verifyTaskSubmissionNow` compares it with the parameters of the task and of its
secret contract.
-/

namespace Ethereum

open Js Common Tasks

/-- `ETHEREUM_EMPTY_HASH`. -/
def emptyHash : String :=
  "0x0000000000000000000000000000000000000000000000000000000000000000"

/-- The numbers of `ETHEREUM_TASK_STATUS`. -/
inductive EthereumTaskStatus where
  | recordUndefined
  | recordCreated
  | receiptVerified
  | receiptFailed
  | receiptFailedETH
  | receiptFailedCancelled
  deriving DecidableEq

/-- What `getTaskParams` answers, as far as it is read. -/
structure TaskParams where
  inputsHash : String
  gasLimit : Nat
  blockNumber : Nat
  status : EthereumTaskStatus
  outputHash : String
  deriving DecidableEq

/-- What `getContractParams` answers, as far as it is read; the list may be missing. -/
structure ContractAnswer where
  codeHash : String
  deltaHashes : Option (List String)
  deriving DecidableEq

/-- The local tip of a contract. -/
structure ContractTip where
  key : Option Json
  data : Option Json

/-- An `error` that is reported: one that the verifier constructs, a thrown exception, or
the reason of a rejected read. -/
inductive SubmissionError where
  | err (error : Err)
  | thrown (exn : Exn)
  | rejected (reason : String)
  deriving DecidableEq

structure SubmissionVerdict where
  isVerified : Bool
  error : Option SubmissionError
  deriving DecidableEq

namespace SubmissionVerdict

def accepted : SubmissionVerdict := ⟨true, none⟩

def rejected (cls : ErrClass) (message : String) : SubmissionVerdict :=
  ⟨false, some (.err ⟨cls, message⟩)⟩

end SubmissionVerdict

open SubmissionVerdict

/-- The id of a result in a text. -/
def idText (result : Result) : String :=
  (keyOf result.taskId).toOption.getD ""

/-- A property of `getDelta()`. -/
def deltaField (field : String) (result : Result) : Option Json :=
  result.delta.bind (·.get? field)

variable (platform : Platform)

/-- `_verifyHash`; a hash that is `undefined` is the hash of nothing. -/
def verifyHash (hash : Option String) (data : Option Json) : Except Exn Bool := do
  let digest ← Common.hash platform data
  pure (hash.isSome && decide (digest = hash))

/-- The comparison of the output, which is the last one of every check. -/
def checkOutput (outputHash : String) (result : Result) : Except Exn SubmissionVerdict := do
  let same ← verifyHash platform (some outputHash) result.output
  pure (if same then accepted
    else .rejected .taskVerificationErr
      ("Mismatch in output hash in task result " ++ idText result))

/-- `_checkDeployResult`. -/
def checkDeployResult (result : Result) (deltaHash : Option String) (codeHash : String) :
    Except Exn SubmissionVerdict :=
  if !result.hasDelta then
    .ok (.rejected .taskVerificationErr ("No delta in task result " ++ idText result))
  else if deltaField "key" result ≠ some (.num 0) then
    .ok (.rejected .taskVerificationErr
      ("Mismatch in delta index in task result " ++ idText result))
  else do
    let same ← verifyHash platform deltaHash (deltaField "data" result)
    if same then checkOutput platform codeHash result
    else pure (.rejected .taskVerificationErr
      ("Mismatch in delta hash in task result " ++ idText result))

/-- The own index properties of an array. -/
def indexProperties (items : List String) : List (String × String) :=
  items.zipIdx.map fun item => (toString item.2, item.1)

/-- `items[key]`: the other properties of an array are no texts. -/
def elementAt (items : List String) (key : Option Json) : Except Exn (Option String) := do
  let property ← keyOf key
  pure ((indexProperties items).lookup property)

/-- `key >= length`. A text that is no finite number is not at least a length; were it
`Infinity`, the element that is read next would be missing, which is the error that stays. -/
def atLeast (length : Nat) : Option Json → Except Exn Bool
  | none => .ok false
  | some key => do
      let number ← key.toNumber platform.stringToNumber
      pure (number.any fun q => decide ((length : Rat) ≤ q))

/-- The delta's part of a check: a wrong hash is reported rather than a wrong index. -/
def deltaVerdict (result : Result) (wrongIndex same : Bool) : Option SubmissionVerdict :=
  if !same then
    some (.rejected .taskVerificationErr
      ("Mismatch in delta hash in task result " ++ idText result))
  else if wrongIndex then
    some (.rejected .taskVerificationErr
      ("Wrong delta index in task result " ++ idText result))
  else none

/-- The part of `_checkComputeResult` about a result with a delta. -/
def checkDelta (deltaHashes : List String) (result : Result) :
    Except Exn (Option SubmissionVerdict) := do
  let deltaKey := deltaField "key" result
  let wrongIndex ← atLeast platform deltaHashes.length deltaKey
  let listed ← elementAt deltaHashes deltaKey
  let same ← verifyHash platform listed (deltaField "data" result)
  pure (deltaVerdict result wrongIndex same)

/-- The part of `_checkComputeResult` about a result without a delta. -/
def checkLocalTip (deltaHashes : List String) (result : Result) :
    Option ContractTip → Except Exn (Option SubmissionVerdict)
  | none => .error .typeError
  | some localTip =>
      if localTip.key ≠ some (.num ((deltaHashes.length : Rat) - 1)) then
        .ok (some (.rejected .taskVerificationErr
          ("Mismatch in last local tip index (no state change) for task " ++ idText result)))
      else do
        let same ← verifyHash platform deltaHashes.getLast? localTip.data
        pure (if same then none
          else some (.rejected .taskVerificationErr
            ("Mismatch in last local tip hash (no state change) for task " ++ idText result)))

/-- The end of both checks of a computation: the output is compared if there is no error yet. -/
def unlessRejected (outputHash : String) (result : Result) :
    Option SubmissionVerdict → Except Exn SubmissionVerdict
  | some verdict => .ok verdict
  | none => checkOutput platform outputHash result

/-- `_checkComputeResult`. -/
def checkComputeResult (outputHash : String) (deltaHashes : List String) (result : Result)
    (localTip : Option ContractTip) : Except Exn SubmissionVerdict := do
  let error ← (if result.hasDelta then checkDelta platform deltaHashes result
    else checkLocalTip platform deltaHashes result localTip)
  unlessRejected platform outputHash result error

/-- The part of `_checkComputeResultEvent` about the delta. -/
def checkDeltaEvent (deltaHash : String) (deltaIndex : Nat) (result : Result) :
    Except Exn (Option SubmissionVerdict) :=
  if result.hasDelta then do
    let same ← verifyHash platform (some deltaHash) (deltaField "data" result)
    pure (deltaVerdict result (deltaField "key" result ≠ some (.num deltaIndex)) same)
  else if deltaHash ≠ emptyHash then
    .ok (some (.rejected .taskVerificationErr
      ("Mismatch in delta - task \" + " ++ idText result ++ " does not contain a delta")))
  else .ok none

/-- `_checkComputeResultEvent`. -/
def checkComputeResultEvent (result : Result) (outputHash deltaHash : String)
    (deltaIndex : Nat) : Except Exn SubmissionVerdict := do
  unlessRejected platform outputHash result (← checkDeltaEvent platform deltaHash deltaIndex result)

/-- The listener of `_createTaskSubmissionListener`. -/
def submissionListener (result : Result) : SubmissionNotice → Except Exn SubmissionVerdict
  | .newEpoch => .ok (.rejected .taskTimeoutErr ("Task " ++ idText result ++ " timed out"))
  | .taskFailureDueToEthereumCB =>
      .ok (.rejected .taskEthereumFailureErr
        ("Task " ++ idText result ++ " was failed due to Ethereum"))
  | .taskFailureSubmission outputHash =>
      if result.cls = .failed then checkOutput platform outputHash result
      else .ok (.rejected .taskFailedErr ("Task " ++ idText result ++ " has failed"))
  | .secretContractDeployment codeHash stateDeltaHash =>
      match result.cls with
      | .failed => .ok (.rejected .taskValidityErr ("Task " ++ idText result ++ " did not fail"))
      | .deploy => checkDeployResult platform result (some stateDeltaHash) codeHash
      | .compute => .ok (wrongEvent (.secretContractDeployment codeHash stateDeltaHash))
  | .taskSuccessSubmission stateDeltaHash stateDeltaHashIndex outputHash =>
      match result.cls with
      | .failed => .ok (.rejected .taskValidityErr ("Task " ++ idText result ++ " did not fail"))
      | .compute =>
          checkComputeResultEvent platform result outputHash stateDeltaHash stateDeltaHashIndex
      | .deploy => .ok (wrongEvent
          (.taskSuccessSubmission stateDeltaHash stateDeltaHashIndex outputHash))
where
  wrongEvent (notice : SubmissionNotice) : SubmissionVerdict :=
    .rejected .taskValidityErr
      ("Wrong event received (=" ++ notice.type ++ ") for task " ++ idText result)

/-- What `_verifyTaskSubmissionNow` finds: a verdict, or a task whose submission is yet to
come, created in some block or unknown. -/
inductive SubmissionRead where
  | settled (verdict : SubmissionVerdict)
  | recordCreated (blockNumber : Nat)
  | recordUndefined
  deriving DecidableEq

/-- The branch of a verified receipt, once the contract was read. -/
def verifyAgainstContract (taskParams : TaskParams) (contractParams : Except String ContractAnswer)
    (result : Result) (contractAddress : String) (localTip : Option ContractTip) :
    Except Exn SubmissionVerdict :=
  match contractParams with
  | .error reason => .ok (.rejected .taskValidityErr
      ("Failure in verification of task " ++ idText result ++ ": " ++ reason))
  | .ok ⟨_, none⟩ => .ok (.rejected .taskValidityErr ("Failure in verification of task " ++
      idText result ++ ": no delta hashes for contract " ++ contractAddress))
  | .ok ⟨codeHash, some deltaHashes⟩ =>
      if result.cls = .deploy then
        checkDeployResult platform result deltaHashes.head? codeHash
      else checkComputeResult platform taskParams.outputHash deltaHashes result localTip

/-- The `catch` around the whole of `_verifyTaskSubmissionNow`. -/
def caught : Except Exn SubmissionVerdict → SubmissionVerdict
  | .ok verdict => verdict
  | .error exn => ⟨false, some (.thrown exn)⟩

/-- `_verifyTaskSubmissionNow`. The contract is read for a verified receipt of a result
that did not fail. -/
def verifyTaskSubmissionNow (taskParams : Except String TaskParams)
    (contractParams : Except String ContractAnswer) (result : Result) (contractAddress : String)
    (localTip : Option ContractTip) : SubmissionRead :=
  match taskParams with
  | .error reason => .settled ⟨false, some (.rejected reason)⟩
  | .ok params =>
      match params.status with
      | .receiptVerified => .settled (
          if result.cls = .failed then
            .rejected .taskValidityErr ("Task " ++ idText result ++ " did not fail")
          else caught
            (verifyAgainstContract platform params contractParams result contractAddress localTip))
      | .receiptFailed => .settled (
          if result.cls = .failed then caught (checkOutput platform params.outputHash result)
          else .rejected .taskFailedErr ("Task " ++ idText result ++ " has failed"))
      | .receiptFailedETH => .settled (.rejected .taskEthereumFailureErr
          ("Task " ++ idText result ++ " was failed due to Ethereum"))
      | .receiptFailedCancelled => .settled (.rejected .taskValidityErr
          ("Failure in verification of task " ++ idText result ++
            ": task was cancelled by the user"))
      | .recordCreated => .recordCreated params.blockNumber
      | .recordUndefined => .recordUndefined

end Ethereum
