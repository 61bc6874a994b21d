import EnigmaP2P.Common.Utils

/-!
# Events about tasks

The events that the Enigma contract emits about tasks, what the parsers of the reader
make of them, and the part of them that the listeners of the verifier read. Ids are
hexadecimal text with a prefix in the contract's events and without it everywhere else;
the parser of the fee event keeps the prefix.
-/

namespace Ethereum

open Common

/-- An event as the contract interface returns it. The hashes of a receipt and of a
deployment are the elements 2 and 3 of `bytes32s`. -/
inductive RawTaskEvent where
  | taskRecordCreated (taskId inputsHash : String) (gasLimit blockNumber : Nat)
  | taskFeeReturned (taskId : String)
  | receiptVerified (taskId stateDeltaHash outputHash : String) (deltaHashIndex : Nat)
  | receiptFailed (taskId outputHash : String)
  | receiptFailedETH (taskId : String)
  | secretContractDeployed (taskId codeHash initStateDeltaHash : String)
  deriving DecidableEq

/-- The id that a raw event names. -/
def RawTaskEvent.taskId : RawTaskEvent → String
  | taskRecordCreated taskId .. | taskFeeReturned taskId | receiptVerified taskId ..
  | receiptFailed taskId .. | receiptFailedETH taskId | secretContractDeployed taskId .. => taskId

/-- What a creation listener reads of an event. A map of tasks answers `inherited` for the
name of a property that every object has. -/
inductive CreationNotice where
  | newEpoch
  | taskCancelled
  | taskCreation (inputsHash : String) (gasLimit blockNumber : Nat)
  | inherited
  deriving DecidableEq

/-- An event of the services `TaskCreation` and `TaskCancelled`: it can name one task, or
have a map `tasks` from ids to the notices about them. -/
structure CreationEvent where
  taskId : Option String
  tasks : Option (List (String × CreationNotice))
  notice : CreationNotice
  deriving DecidableEq

/-- What a submission listener reads of an event. -/
inductive SubmissionNotice where
  | newEpoch
  | taskSuccessSubmission (stateDeltaHash : String) (stateDeltaHashIndex : Nat)
      (outputHash : String)
  | taskFailureSubmission (outputHash : String)
  | taskFailureDueToEthereumCB
  | secretContractDeployment (codeHash stateDeltaHash : String)
  deriving DecidableEq

/-- `event.type`. -/
def SubmissionNotice.type : SubmissionNotice → String
  | newEpoch => "NewEpoch"
  | taskSuccessSubmission .. => "TaskSuccessSubmission"
  | taskFailureSubmission .. => "TaskFailureSubmission"
  | taskFailureDueToEthereumCB => "TaskFailureDueToEthereumCB"
  | secretContractDeployment .. => "SecretContractDeployment"

/-- An event with the handler that the service emits it to. -/
inductive TaskEvent where
  /-- For `_taskCreationEventCallback`. -/
  | creation (event : CreationEvent)
  /-- For `_taskSubmissionEventCallback`, which reads `taskId`. -/
  | submission (taskId : String) (notice : SubmissionNotice)
  /-- For `_taskDeployedContractEventCallback`, which reads `secretContractAddress`. -/
  | deployment (secretContractAddress : String) (notice : SubmissionNotice)
  deriving DecidableEq

/-- The parsers of `_initEventParsers` and the type that `_initService` adds. -/
def parseEvent : RawTaskEvent → TaskEvent
  | .taskRecordCreated taskId inputsHash gasLimit blockNumber =>
      .creation ⟨some (strip0x taskId), none, .taskCreation inputsHash gasLimit blockNumber⟩
  | .taskFeeReturned taskId => .creation ⟨some taskId, none, .taskCancelled⟩
  | .receiptVerified taskId stateDeltaHash outputHash deltaHashIndex =>
      .submission (strip0x taskId)
        (.taskSuccessSubmission stateDeltaHash deltaHashIndex outputHash)
  | .receiptFailed taskId outputHash =>
      .submission (strip0x taskId) (.taskFailureSubmission outputHash)
  | .receiptFailedETH taskId => .submission (strip0x taskId) .taskFailureDueToEthereumCB
  | .secretContractDeployed taskId codeHash initStateDeltaHash =>
      .deployment (strip0x taskId) (.secretContractDeployment codeHash initStateDeltaHash)

end Ethereum
