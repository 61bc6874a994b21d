import EnigmaP2P.Ethereum.Board
import EnigmaP2P.Ethereum.Selection
import EnigmaP2P.Ethereum.Submission
import EnigmaP2P.Transition.Runs

/-!
# Verifications that wait

`verifyTaskCreation` and `verifyTaskSubmission` return a promise that is answered by
whichever comes first: the continuation of a read, an event, or an epoch that is too late.
All three remove a listener by the id of its task alone. Two calls for one id therefore
share a listener, and an answer for one of them takes away that of the other. An exception
after the removal leaves a promise that nothing will answer.

A label is one task of the event loop together with the promise jobs that it starts. Ids
are not the names of properties that every object inherits.
-/

namespace Ethereum

open Js Common Tasks Transition

/-- What the verifier calls, and `_taskTimeoutInBlocks`. -/
structure Verifier where
  platform : Platform
  hash : SelectionHash
  isValidEthereumAddress : String → Bool
  taskTimeoutInBlocks : Nat

/-! ## Creations -/

structure Creation where
  task : Task
  workerAddress : String
  deriving DecidableEq

structure CreationAnswer where
  isVerified : Bool
  gasLimit : Option Nat
  blockNumber : Option Nat
  error : Option SubmissionError
  deriving DecidableEq

def CreationAnswer.refused (error : SubmissionError) : CreationAnswer :=
  ⟨false, none, none, some error⟩

open CreationAnswer

/-- The number of a status. -/
def EthereumTaskStatus.number : EthereumTaskStatus → Nat
  | recordUndefined => 0
  | recordCreated => 1
  | receiptVerified => 2
  | receiptFailed => 3
  | receiptFailedETH => 4
  | receiptFailedCancelled => 5

/-- What `_verifyTaskCreationNow` resolves to. -/
inductive CreationRead where
  | cannotBeVerified
  | rejected (error : SubmissionError)
  | accepted (taskParams : TaskParams)

/-- `_verifyTaskCreationNow`; after an exception its promise is never resolved. -/
def verifyTaskCreationNow (platform : Platform) (taskParams : Except String TaskParams)
    (task : Task) : Except Exn CreationRead :=
  match taskParams with
  | .error reason => .ok (.rejected (.rejected reason))
  | .ok params =>
      match params.status with
      | .recordCreated => do
          let verdict ← verifyTaskCreateParams platform params.inputsHash task
          match verdict.error with
          | none => pure (.accepted params)
          | some error => pure (.rejected (.err error))
      | .recordUndefined => .ok .cannotBeVerified
      | status => .ok (.rejected (.err ⟨.taskValidityErr,
          "Task remote status is not expected (=" ++ toString status.number ++ ")"⟩))

/-- The answer about the worker of a task with the inputs of its record. A group of one
needs no second turn. An exception leaves no answer. -/
def selectedWorkerAnswer (verifier : Verifier) (workerParamArray : List WorkerParams)
    (gasLimit blockNumber : Nat) (creation : Creation) : Option CreationAnswer :=
  match verifySelectedWorker verifier.hash 0 workerParamArray creation.task blockNumber
      creation.workerAddress with
  | some (.ok verdict) =>
      some ⟨verdict.isVerified, some gasLimit, some blockNumber, verdict.error.map .err⟩
  | _ => none

/-- The listener of `_createTaskCreationListener`; an exception leaves no answer. -/
def creationListener (verifier : Verifier) (workerParamArray : List WorkerParams)
    (notice : CreationNotice) (creation : Creation) : Option CreationAnswer :=
  let taskId := orNull creation.task.getTaskId
  match notice with
  | .newEpoch => some (refused (.err ⟨.taskTimeoutErr, "Task " ++ taskId ++ " timed out"⟩))
  | .taskCancelled =>
      some (refused (.err ⟨.taskCancelledErr, "Task " ++ taskId ++ " was cancelled"⟩))
  | .taskCreation inputsHash gasLimit blockNumber =>
      match verifyTaskCreateParams verifier.platform inputsHash creation.task with
      | .error _ => none
      | .ok ⟨_, none⟩ =>
          selectedWorkerAnswer verifier workerParamArray gasLimit blockNumber creation
      | .ok ⟨_, some error⟩ => some (refused (.err error))
  | .inherited =>
      -- `inputsHash` is `undefined`, which no hash is equal to
      match paramsArray verifier.platform creation.task >>= hashArray verifier.platform with
      | .error _ => none
      | .ok _ => some (refused (.err ⟨.taskVerificationErr,
          "Mismatch in inputs hash in task record " ++ taskId⟩))

/-! ## Submissions -/

structure Submission where
  result : Result
  contractAddress : String
  localTip : Option ContractTip

/-- The read that a submission expects. -/
inductive SubmissionStage where
  | taskParams
  | contractParams (taskParams : TaskParams)
  deriving DecidableEq

/-- The contract is read for a verified receipt of a result that did not fail. -/
def needsContract (taskParams : Except String TaskParams) (result : Result) : Option TaskParams :=
  match taskParams with
  | .error _ => none
  | .ok params =>
      if params.status = .receiptVerified ∧ result.cls ≠ .failed then some params else none

/-- `key in items` for an array asks for an index or another property, not for an item. -/
def inArray (key : String) (length : Nat) : Bool :=
  (isArrayIndex key && decide (key.toNat?.getD 0 < length)) || decide (key ∈ arrayPrototype)

/-! ## States -/

/-- The fields of the verifier that change. -/
structure VerifierState where
  creations : Board Creation Unit CreationAnswer
  submissions : Board Submission SubmissionStage SubmissionVerdict
  workerParamArray : List WorkerParams

def VerifierState.initial (workerParamArray : List WorkerParams) : VerifierState :=
  ⟨.empty, .empty, workerParamArray⟩

/-- What happens to the verifier. An answer names the call that it is for. -/
inductive VerifierLabel where
  | verifyTaskCreation (task : Option Task) (blockNumber : Nat) (workerAddress : String)
  | creationParams (id : Nat) (taskParams : Except String TaskParams)
  | verifyTaskSubmission (result : Option Result) (blockNumber : Nat) (contractAddress : String)
      (localTip : Option ContractTip)
  | submissionParams (id : Nat) (taskParams : Except String TaskParams)
  | contractParams (id : Nat) (answer : Except String ContractAnswer)
  | event (event : TaskEvent)
  | newEpoch (event : WorkerParams)

/-- `verifyTaskCreation` up to its read, or what it answers at once; `none` is no task. -/
def verifyTaskCreation (verifier : Verifier) (task : Option Task) (blockNumber : Nat)
    (workerAddress : String) (creations : Board Creation Unit CreationAnswer) :
    Except CreationAnswer (Board Creation Unit CreationAnswer) :=
  match task with
  | none => .error (refused (.err ⟨.typeErr, "Wrong task type"⟩))
  | some task =>
      if verifier.isValidEthereumAddress workerAddress then
        .ok (creations.register (orNull task.getTaskId) ⟨task, workerAddress⟩ () blockNumber)
      else .error (refused (.err ⟨.typeErr, "Worker address is not a valid Ethereum address"⟩))

/-- `verifyTaskSubmission` up to its read, or what it answers at once; `none` is no result. -/
def verifyTaskSubmission (result : Option Result) (blockNumber : Nat) (contractAddress : String)
    (localTip : Option ContractTip)
    (submissions : Board Submission SubmissionStage SubmissionVerdict) :
    Except SubmissionVerdict (Board Submission SubmissionStage SubmissionVerdict) :=
  match result with
  | none => .error (.rejected .typeErr "Wrong task result type")
  | some result =>
      match keyOf result.taskId with
      | .error exn => .error ⟨false, some (.thrown exn)⟩
      | .ok taskId => .ok (submissions.register taskId ⟨result, contractAddress, localTip⟩
          .taskParams blockNumber)

/-- The continuation of `_verifyTaskCreationNow`. -/
def creationAnswered (verifier : Verifier) (workerParamArray : List WorkerParams) (id : Nat)
    (taskParams : Except String TaskParams) (creations : Board Creation Unit CreationAnswer) :
    Board Creation Unit CreationAnswer :=
  match creations.calls[id]? with
  | some ⟨taskId, creation, some (), _⟩ =>
      let creations := creations.setRead id none
      match verifyTaskCreationNow verifier.platform taskParams creation.task with
      | .error _ | .ok .cannotBeVerified => creations
      | .ok (.rejected error) =>
          (creations.resolve id fun _ => some (refused error)).remove taskId
      | .ok (.accepted params) =>
          (creations.resolve id (selectedWorkerAnswer verifier workerParamArray params.gasLimit
            params.blockNumber)).remove taskId
  | _ => creations

/-- The end of `_verifyTaskSubmissionNow` with its continuation. -/
def submissionRead (id : Nat) (taskId : String) (read : SubmissionRead)
    (submissions : Board Submission SubmissionStage SubmissionVerdict) :
    Board Submission SubmissionStage SubmissionVerdict :=
  let submissions := submissions.setRead id none
  match read with
  | .settled verdict => (submissions.resolve id fun _ => some verdict).remove taskId
  | .recordUndefined => submissions
  | .recordCreated blockNumber =>
      if inArray taskId (allTaskIds submissions.listeners).length then
        match submissions.listeners.lookup taskId with
        | some listener => { submissions with
            listeners := setField taskId ⟨blockNumber, listener.owner⟩ submissions.listeners }
        | none =>
            (submissions.resolve id fun _ => some ⟨false, some (.thrown .typeError)⟩).remove taskId
      else submissions

/-- The answer of `getTaskParams` for a submission. -/
def submissionAnswered (verifier : Verifier) (id : Nat) (taskParams : Except String TaskParams)
    (submissions : Board Submission SubmissionStage SubmissionVerdict) :
    Board Submission SubmissionStage SubmissionVerdict :=
  match submissions.calls[id]? with
  | some ⟨taskId, submission, some .taskParams, _⟩ =>
      match needsContract taskParams submission.result with
      | some params => submissions.setRead id (some (.contractParams params))
      | none => submissionRead id taskId (verifyTaskSubmissionNow verifier.platform taskParams
          (.error "") submission.result submission.contractAddress submission.localTip) submissions
  | _ => submissions

/-- The answer of `getContractParams` for a submission. -/
def contractAnswered (verifier : Verifier) (id : Nat) (answer : Except String ContractAnswer)
    (submissions : Board Submission SubmissionStage SubmissionVerdict) :
    Board Submission SubmissionStage SubmissionVerdict :=
  match submissions.calls[id]? with
  | some ⟨taskId, submission, some (.contractParams params), _⟩ =>
      submissionRead id taskId (verifyTaskSubmissionNow verifier.platform (.ok params) answer
        submission.result submission.contractAddress submission.localTip) submissions
  | _ => submissions

/-- The loop of a callback with the listener that it fires. -/
def Board.deliver {κ ρ α ν : Type} (listen : ν → κ → Option α) (notice : String → Option ν)
    (board : Board κ ρ α) : Board κ ρ α :=
  let (listeners, fired) := Ethereum.deliver notice board.listeners
  fired.foldl (fun board told => board.resolve told.1 (listen told.2)) { board with listeners }

/-- A loop of `_checkTimeouts` over the ids that there were at its start. -/
def Board.expire {κ ρ α : Type} (expired : Nat → Bool) (timeout : κ → Option α) :
    List String → Board κ ρ α → Board κ ρ α
  | [], board => board
  | taskId :: taskIds, board =>
      if (board.listeners.lookup taskId).any (expired ·.blockNumber) then
        expire expired timeout taskIds (board.fire taskId timeout)
      else expire expired timeout taskIds board

/-- `newEpochEvent.firstBlockNumber - blockNumber >= this._taskTimeoutInBlocks`. -/
def isExpired (verifier : Verifier) (newEpochEvent : WorkerParams) (blockNumber : Nat) : Bool :=
  newEpochEvent.firstBlockNumber.value.any fun first =>
    decide ((verifier.taskTimeoutInBlocks : Int) ≤ (first : Int) - blockNumber)

/-- The text of an exception has no place in the listener of a submission. -/
def submissionAnswer (verifier : Verifier) (notice : SubmissionNotice) (submission : Submission) :
    Option SubmissionVerdict :=
  (submissionListener verifier.platform submission.result notice).toOption

/-- One label. Answers for calls that do not expect them change nothing. -/
def verifierStep (verifier : Verifier) (state : VerifierState) : VerifierLabel → VerifierState
  | .verifyTaskCreation task blockNumber workerAddress =>
      match verifyTaskCreation verifier task blockNumber workerAddress state.creations with
      | .error _ => state
      | .ok creations => { state with creations }
  | .creationParams id taskParams => { state with
      creations := creationAnswered verifier state.workerParamArray id taskParams state.creations }
  | .verifyTaskSubmission result blockNumber contractAddress localTip =>
      match verifyTaskSubmission result blockNumber contractAddress localTip state.submissions with
      | .error _ => state
      | .ok submissions => { state with submissions }
  | .submissionParams id taskParams => { state with
      submissions := submissionAnswered verifier id taskParams state.submissions }
  | .contractParams id answer => { state with
      submissions := contractAnswered verifier id answer state.submissions }
  | .event (.creation event) => { state with
      creations := state.creations.deliver (creationListener verifier state.workerParamArray)
        event.noticeFor }
  | .event (.submission taskId notice) | .event (.deployment taskId notice) => { state with
      submissions := state.submissions.deliver (submissionAnswer verifier)
        (submissionNoticeFor taskId notice) }
  | .newEpoch event =>
      let workerParamArray := newEpochEventCallback state.workerParamArray event
      if validateWorkerParams event then
        { creations := state.creations.expire (isExpired verifier event)
            (creationListener verifier workerParamArray .newEpoch)
            (allTaskIds state.creations.listeners)
          submissions := state.submissions.expire (isExpired verifier event)
            (submissionAnswer verifier .newEpoch) (allTaskIds state.submissions.listeners)
          workerParamArray }
      else state

/-! ## Which labels keep every listener -/

/-- The read does not settle the submission. -/
def Awaits (taskParams : Except String TaskParams) (result : Result) : Prop :=
  needsContract taskParams result ≠ none ∨
  ∃ params, taskParams = .ok params ∧
    (params.status = .recordUndefined ∨ params.status = .recordCreated)

/-- An answer of `getTaskParams` that settles a creation comes when no other creation with
the id waits, and if the record is accepted the selection of the worker does not throw. -/
def CleanCreationParams (verifier : Verifier) (state : VerifierState) (id : Nat)
    (taskParams : Except String TaskParams) (call : Call Creation Unit CreationAnswer) : Prop :=
  match taskParams with
  | .error _ => state.creations.FreeBut id call.key
  | .ok params =>
      match params.status with
      | .recordUndefined => True
      | .recordCreated =>
          ∀ verdict, verifyTaskCreateParams verifier.platform params.inputsHash
              call.subject.task = .ok verdict →
            state.creations.FreeBut id call.key ∧
            (verdict.error = none → call.answer = none →
              selectedWorkerAnswer verifier state.workerParamArray params.gasLimit
                params.blockNumber call.subject ≠ none)
      | _ => state.creations.FreeBut id call.key

/-- A call is for an id that no open call of its kind has. An answer that settles comes when
no other open call has the id. The listener that an event fires does not throw. -/
def CleanVerifierLabel (verifier : Verifier) (state : VerifierState) : VerifierLabel → Prop
  | .verifyTaskCreation task _ _ =>
      ∀ task' ∈ task, state.creations.Free (orNull task'.getTaskId) ∧
        orNull task'.getTaskId ∉ objectPrototype
  | .creationParams id taskParams =>
      ∀ call, state.creations.calls[id]? = some call → call.read = some () →
        CleanCreationParams verifier state id taskParams call
  | .verifyTaskSubmission result _ _ _ =>
      ∀ result' ∈ result, ∀ taskId, keyOf result'.taskId = .ok taskId →
        state.submissions.Free taskId ∧ taskId ∉ objectPrototype
  | .submissionParams id taskParams =>
      ∀ call, state.submissions.calls[id]? = some call → call.read = some .taskParams →
        Awaits taskParams call.subject.result ∨ state.submissions.FreeBut id call.key
  | .contractParams id _ =>
      ∀ call, state.submissions.calls[id]? = some call → ∀ params,
        call.read = some (.contractParams params) → state.submissions.FreeBut id call.key
  | .event (.creation event) =>
      ∀ told ∈ (deliver event.noticeFor state.creations.listeners).2, ∀ call,
        state.creations.Open told.1 call →
          creationListener verifier state.workerParamArray told.2 call.subject ≠ none
  | .event (.submission taskId notice) | .event (.deployment taskId notice) =>
      ∀ told ∈ (deliver (submissionNoticeFor taskId notice) state.submissions.listeners).2,
        ∀ call, state.submissions.Open told.1 call →
          submissionAnswer verifier told.2 call.subject ≠ none
  | .newEpoch _ => True

/-! ## Loops over listeners -/

section

variable {κ ρ α ν : Type} {board : Board κ ρ α}

/-- A callback fires one listener or none. -/
theorem Board.deliver_cases (listen : ν → κ → Option α) (notice : String → Option ν)
    (board : Board κ ρ α) :
    board.deliver listen notice = board ∨
    ∃ taskId listener told, board.listeners.lookup taskId = some listener ∧
      (Ethereum.deliver notice board.listeners).2 = [(listener.owner, told)] ∧
      board.deliver listen notice = board.fire taskId (listen told) := by
  have asLoop : board.deliver listen notice = (Ethereum.deliver notice board.listeners).2.foldl
      (fun board told => board.resolve told.1 (listen told.2))
      { board with listeners := (Ethereum.deliver notice board.listeners).1 } := rfl
  rw [asLoop, Ethereum.deliver]
  split
  · exact .inl rfl
  · rename_i taskId told _
    cases registered : board.listeners.lookup taskId with
    | none => exact .inl rfl
    | some listener =>
        refine .inr ⟨taskId, listener, told, registered, rfl, ?_⟩
        rw [Board.fire, registered]
        rfl

theorem Board.Attached.deliver (attached : board.Attached) {listen : ν → κ → Option α}
    {notice : String → Option ν}
    (answers : ∀ told ∈ (Ethereum.deliver notice board.listeners).2, ∀ call,
      board.Open told.1 call → listen told.2 call.subject ≠ none) :
    (board.deliver listen notice).Attached := by
  obtain same | ⟨taskId, listener, told, registered, fired, same⟩ :=
    Board.deliver_cases listen notice board
  · rw [same]
    exact attached
  · rw [same]
    refine attached.fire fun other call isOther isOpen => ?_
    rw [registered] at isOther
    cases isOther
    exact answers (listener.owner, told) (fired ▸ List.mem_singleton_self _) call isOpen

theorem Board.kept_deliver (listen : ν → κ → Option α) (notice : String → Option ν)
    (board : Board κ ρ α) : Kept board (board.deliver listen notice) := by
  obtain same | ⟨taskId, -, told, -, -, same⟩ := Board.deliver_cases listen notice board
  · rw [same]
    exact Kept.refl board
  · rw [same]
    exact kept_fire board taskId _

/-- A timeout answers the call whose listener it removes. -/
theorem Board.Attached.expire (attached : board.Attached) {timeout : κ → Option α}
    (answers : ∀ subject, timeout subject ≠ none) (expired : Nat → Bool) (taskIds : List String) :
    (Board.expire expired timeout taskIds board).Attached := by
  induction taskIds generalizing board with
  | nil => exact attached
  | cons taskId taskIds ih =>
      rw [Board.expire]
      split
      · exact ih (attached.fire fun _ call _ _ => answers call.subject)
      · exact ih attached

theorem Board.kept_expire (expired : Nat → Bool) (timeout : κ → Option α)
    (taskIds : List String) (board : Board κ ρ α) :
    Kept board (Board.expire expired timeout taskIds board) := by
  induction taskIds generalizing board with
  | nil => exact Kept.refl board
  | cons taskId taskIds ih =>
      rw [Board.expire]
      split
      · exact (kept_fire board taskId timeout).trans (ih _)
      · exact ih board

/-- The continuation of a read that settles removes the key and answers its call. -/
theorem Board.Attached.settle (attached : board.Attached) {id : Nat} {key : String}
    {answer : κ → Option α} (others : board.FreeBut id key)
    (answers : ∀ call, board.Open id call → answer call.subject ≠ none) :
    (((board.setRead id none).resolve id answer).remove key).Attached := by
  refine ((attached.setRead id none).resolve id answer).remove (free_resolve ?_ ?_)
  · intro other call isOpen differs
    obtain ⟨before, found, same⟩ := open_of_update isOpen
    rw [if_neg (Ne.symm differs)] at same
    subst same
    exact others other call ⟨found, isOpen.2⟩ differs
  · intro call isOpen _
    obtain ⟨before, found, same⟩ := open_of_update isOpen
    rw [if_pos rfl] at same
    have unanswered := isOpen.2
    subst same
    exact answers before ⟨found, unanswered⟩

theorem Board.kept_settle (board : Board κ ρ α) (id : Nat) (key : String) (answer : κ → Option α) :
    Kept board (((board.setRead id none).resolve id answer).remove key) :=
  ((kept_setRead board id none).trans (kept_resolve _ id answer)).trans (kept_remove _ key)

end

/-! ## Answers of reads -/

section

variable {verifier : Verifier}

theorem kept_creationAnswered (workerParamArray : List WorkerParams) (id : Nat)
    (taskParams : Except String TaskParams) (creations : Board Creation Unit CreationAnswer) :
    Board.Kept creations
      (creationAnswered verifier workerParamArray id taskParams creations) := by
  rw [creationAnswered]
  split
  · simp only []
    split
    · exact Board.kept_setRead creations id none
    · exact Board.kept_setRead creations id none
    · exact Board.kept_settle creations id _ _
    · exact Board.kept_settle creations id _ _
  · exact Board.Kept.refl creations

/-- What the condition says of a record that is rejected. -/
theorem CleanCreationParams.of_rejected {state : VerifierState} {id : Nat}
    {taskParams : Except String TaskParams} {call : Call Creation Unit CreationAnswer}
    (clean : CleanCreationParams verifier state id taskParams call) {error : SubmissionError}
    (rejected : verifyTaskCreationNow verifier.platform taskParams call.subject.task =
      .ok (.rejected error)) : state.creations.FreeBut id call.key := by
  cases taskParams with
  | error reason => exact clean
  | ok params =>
      obtain ⟨inputsHash, gasLimit, blockNumber, status, outputHash⟩ := params
      cases status with
      | recordCreated =>
          obtain ⟨verdict, checked, -⟩ := bind_eq_ok.mp rejected
          exact (clean verdict checked).1
      | recordUndefined => cases rejected
      | receiptVerified => exact clean
      | receiptFailed => exact clean
      | receiptFailedETH => exact clean
      | receiptFailedCancelled => exact clean

/-- What the condition says of a record that is accepted. -/
theorem CleanCreationParams.of_accepted {state : VerifierState} {id : Nat}
    {taskParams : Except String TaskParams} {call : Call Creation Unit CreationAnswer}
    (clean : CleanCreationParams verifier state id taskParams call) {params : TaskParams}
    (accepted : verifyTaskCreationNow verifier.platform taskParams call.subject.task =
      .ok (.accepted params)) :
    state.creations.FreeBut id call.key ∧ (call.answer = none →
      selectedWorkerAnswer verifier state.workerParamArray params.gasLimit params.blockNumber
        call.subject ≠ none) := by
  cases taskParams with
  | error reason => cases accepted
  | ok params' =>
      obtain ⟨inputsHash, gasLimit, blockNumber, status, outputHash⟩ := params'
      cases status with
      | recordCreated =>
          obtain ⟨verdict, checked, continued⟩ := bind_eq_ok.mp accepted
          obtain ⟨free, answers⟩ := clean verdict checked
          cases isError : verdict.error with
          | none =>
              rw [isError] at continued
              cases continued
              exact ⟨free, answers isError⟩
          | some error =>
              rw [isError] at continued
              cases continued
      | recordUndefined => cases accepted
      | receiptVerified => cases accepted
      | receiptFailed => cases accepted
      | receiptFailedETH => cases accepted
      | receiptFailedCancelled => cases accepted

/-- An answer that meets its condition keeps every listener of an open creation. -/
theorem attached_creationAnswered {state : VerifierState} (attached : state.creations.Attached)
    {id : Nat} {taskParams : Except String TaskParams}
    (clean : CleanVerifierLabel verifier state (.creationParams id taskParams)) :
    (creationAnswered verifier state.workerParamArray id taskParams state.creations).Attached := by
  rw [creationAnswered]
  split
  · rename_i taskId creation answer found
    have clean := clean _ found rfl
    simp only []
    split
    · exact attached.setRead id none
    · exact attached.setRead id none
    · rename_i error rejected
      exact attached.settle (clean.of_rejected rejected) fun _ _ => Option.some_ne_none _
    · rename_i params accepted
      obtain ⟨others, answers⟩ := clean.of_accepted accepted
      refine attached.settle others ?_
      rintro call ⟨isCall, unanswered⟩
      rw [found] at isCall
      cases isCall
      exact answers unanswered
  · exact attached

/-! The submissions' part. -/

theorem kept_submissionRead (id : Nat) (taskId : String) (read : SubmissionRead)
    (submissions : Board Submission SubmissionStage SubmissionVerdict) :
    Board.Kept submissions (submissionRead id taskId read submissions) := by
  have setRead := Board.kept_setRead submissions id none
  cases read with
  | settled verdict => exact Board.kept_settle submissions id taskId _
  | recordUndefined => exact setRead
  | recordCreated blockNumber =>
      rw [submissionRead]
      split
      · split
        · exact setRead.trans (Board.kept_of_calls rfl)
        · exact Board.kept_settle submissions id taskId _
      · exact setRead

/-- Where the read does not settle, the listener is at most registered again. -/
theorem attached_submissionRead
    {submissions : Board Submission SubmissionStage SubmissionVerdict}
    (attached : submissions.Attached) {id : Nat} {taskId : String} {read : SubmissionRead}
    (clean : ∀ verdict, read = .settled verdict → submissions.FreeBut id taskId) :
    (submissionRead id taskId read submissions).Attached := by
  cases read with
  | settled verdict =>
      exact attached.settle (clean verdict rfl) fun _ _ => Option.some_ne_none _
  | recordUndefined => exact attached.setRead id none
  | recordCreated blockNumber =>
      rw [submissionRead]
      split
      · split
        · rename_i listener registered
          exact (attached.setRead id none).retime registered blockNumber
        · rename_i missing
          refine attached.settle ?_ fun _ _ => Option.some_ne_none _
          -- an open call with the key would be registered
          rintro other call isOpen - rfl
          obtain ⟨since, own⟩ := attached other call isOpen
          cases own.symm.trans missing
      · exact attached.setRead id none

theorem kept_submissionAnswered (id : Nat) (taskParams : Except String TaskParams)
    (submissions : Board Submission SubmissionStage SubmissionVerdict) :
    Board.Kept submissions (submissionAnswered verifier id taskParams submissions) := by
  rw [submissionAnswered]
  split
  · split
    · exact Board.kept_setRead submissions id _
    · exact kept_submissionRead id _ _ submissions
  · exact Board.Kept.refl submissions

theorem attached_submissionAnswered {state : VerifierState}
    (attached : state.submissions.Attached) {id : Nat} {taskParams : Except String TaskParams}
    (clean : CleanVerifierLabel verifier state (.submissionParams id taskParams)) :
    (submissionAnswered verifier id taskParams state.submissions).Attached := by
  rw [submissionAnswered]
  split
  · rename_i taskId submission answer found
    split
    · exact attached.setRead id _
    · rename_i noContract
      refine attached_submissionRead attached fun verdict settled => ?_
      obtain (needs | ⟨params, rfl, isUndefined | isCreated⟩) | others := clean _ found rfl
      · exact absurd noContract needs
      · rw [verifyTaskSubmissionNow] at settled
        simp only [isUndefined] at settled
        cases settled
      · rw [verifyTaskSubmissionNow] at settled
        simp only [isCreated] at settled
        cases settled
      · exact others
  · exact attached

theorem kept_contractAnswered (id : Nat) (answer : Except String ContractAnswer)
    (submissions : Board Submission SubmissionStage SubmissionVerdict) :
    Board.Kept submissions (contractAnswered verifier id answer submissions) := by
  rw [contractAnswered]
  split
  · exact kept_submissionRead id _ _ submissions
  · exact Board.Kept.refl submissions

theorem attached_contractAnswered {state : VerifierState} (attached : state.submissions.Attached)
    {id : Nat} {answer : Except String ContractAnswer}
    (clean : CleanVerifierLabel verifier state (.contractParams id answer)) :
    (contractAnswered verifier id answer state.submissions).Attached := by
  rw [contractAnswered]
  split
  · rename_i taskId submission params _ found
    exact attached_submissionRead attached fun _ _ => clean _ found params rfl
  · exact attached

end

/-! ## Runs -/

/-- Every open call of both kinds finds its own listener. -/
def ListenersAttached (state : VerifierState) : Prop :=
  state.creations.Attached ∧ state.submissions.Attached

/-- Every call of both kinds is still there, and its answer stands. -/
def AnswersKept (before after : VerifierState) : Prop :=
  Board.Kept before.creations after.creations ∧ Board.Kept before.submissions after.submissions

theorem AnswersKept.refl (state : VerifierState) : AnswersKept state state :=
  ⟨Board.Kept.refl _, Board.Kept.refl _⟩

theorem AnswersKept.trans {a b c : VerifierState} (first : AnswersKept a b)
    (second : AnswersKept b c) : AnswersKept a c :=
  ⟨first.1.trans second.1, first.2.trans second.2⟩

section

variable (verifier : Verifier)

/-- A call that is not answered at once registers its listener. -/
theorem of_verifyTaskCreation {task : Option Task} {blockNumber : Nat} {workerAddress : String}
    {creations called : Board Creation Unit CreationAnswer}
    (started : verifyTaskCreation verifier task blockNumber workerAddress creations = .ok called) :
    ∃ task' ∈ task, called =
      creations.register (orNull task'.getTaskId) ⟨task', workerAddress⟩ () blockNumber := by
  cases task with
  | none => cases started
  | some task =>
      rw [verifyTaskCreation] at started
      split at started
      · cases started
        exact ⟨task, rfl, rfl⟩
      · cases started

theorem of_verifyTaskSubmission {result : Option Result} {blockNumber : Nat}
    {contractAddress : String} {localTip : Option ContractTip}
    {submissions called : Board Submission SubmissionStage SubmissionVerdict}
    (started : verifyTaskSubmission result blockNumber contractAddress localTip submissions =
      .ok called) :
    ∃ result' ∈ result, ∃ taskId, keyOf result'.taskId = .ok taskId ∧ called =
      submissions.register taskId ⟨result', contractAddress, localTip⟩ .taskParams blockNumber := by
  cases result with
  | none => cases started
  | some result =>
      rw [verifyTaskSubmission] at started
      split at started
      · cases started
      · rename_i taskId isKey
        cases started
        exact ⟨result, rfl, taskId, isKey, rfl⟩

/-- No label takes an answer back. -/
theorem answersKept_step (state : VerifierState) (label : VerifierLabel) :
    AnswersKept state (verifierStep verifier state label) := by
  have creations := Board.Kept.refl state.creations
  have submissions := Board.Kept.refl state.submissions
  cases label with
  | verifyTaskCreation task blockNumber workerAddress =>
      rw [verifierStep]
      split
      · exact ⟨creations, submissions⟩
      · rename_i called started
        obtain ⟨task', -, rfl⟩ := of_verifyTaskCreation verifier started
        exact ⟨Board.kept_register _ _ _ _ _, submissions⟩
  | creationParams id taskParams =>
      exact ⟨kept_creationAnswered _ id taskParams _, submissions⟩
  | verifyTaskSubmission result blockNumber contractAddress localTip =>
      rw [verifierStep]
      split
      · exact ⟨creations, submissions⟩
      · rename_i called started
        obtain ⟨result', -, taskId, -, rfl⟩ := of_verifyTaskSubmission started
        exact ⟨creations, Board.kept_register _ _ _ _ _⟩
  | submissionParams id taskParams =>
      exact ⟨creations, kept_submissionAnswered id taskParams _⟩
  | contractParams id answer => exact ⟨creations, kept_contractAnswered id answer _⟩
  | event event =>
      cases event with
      | creation event => exact ⟨Board.kept_deliver _ _ _, submissions⟩
      | submission taskId notice => exact ⟨creations, Board.kept_deliver _ _ _⟩
      | deployment taskId notice => exact ⟨creations, Board.kept_deliver _ _ _⟩
  | newEpoch event =>
      rw [verifierStep]
      split
      · exact ⟨Board.kept_expire _ _ _ _, Board.kept_expire _ _ _ _⟩
      · exact ⟨creations, submissions⟩

/-- A label that meets the condition leaves every open call its listener. -/
theorem listenersAttached_step (state : VerifierState) (label : VerifierLabel)
    (attached : ListenersAttached state) (clean : CleanVerifierLabel verifier state label) :
    ListenersAttached (verifierStep verifier state label) := by
  obtain ⟨creations, submissions⟩ := attached
  have noProto : ∀ {key : String}, key ∉ objectPrototype → key ≠ "__proto__" := by
    rintro key proper rfl
    exact proper (by decide)
  cases label with
  | verifyTaskCreation task blockNumber workerAddress =>
      rw [verifierStep]
      split
      · exact ⟨creations, submissions⟩
      · rename_i called started
        obtain ⟨task', isTask, rfl⟩ := of_verifyTaskCreation verifier started
        obtain ⟨free, proper⟩ := clean task' isTask
        exact ⟨creations.register free (noProto proper) _ _ _, submissions⟩
  | creationParams id taskParams => exact ⟨attached_creationAnswered creations clean, submissions⟩
  | verifyTaskSubmission result blockNumber contractAddress localTip =>
      rw [verifierStep]
      split
      · exact ⟨creations, submissions⟩
      · rename_i called started
        obtain ⟨result', isResult, taskId, isKey, rfl⟩ := of_verifyTaskSubmission started
        obtain ⟨free, proper⟩ := clean result' isResult taskId isKey
        exact ⟨creations, submissions.register free (noProto proper) _ _ _⟩
  | submissionParams id taskParams =>
      exact ⟨creations, attached_submissionAnswered submissions clean⟩
  | contractParams id answer => exact ⟨creations, attached_contractAnswered submissions clean⟩
  | event event =>
      cases event with
      | creation event => exact ⟨creations.deliver clean, submissions⟩
      | submission taskId notice => exact ⟨creations, submissions.deliver clean⟩
      | deployment taskId notice => exact ⟨creations, submissions.deliver clean⟩
  | newEpoch event =>
      rw [verifierStep]
      split
      · exact ⟨creations.expire (fun _ => Option.some_ne_none _) _ _,
          submissions.expire (fun _ => Option.some_ne_none _) _ _⟩
      · exact ⟨creations, submissions⟩

/-- In a run whose labels meet the condition, after every label each call that is not
answered yet has its own listener registered, and no answer changes. -/
theorem listenersAttached_run (workerParamArray : List WorkerParams)
    {passed coming : List VerifierLabel}
    (clean : Meets (CleanVerifierLabel verifier) (verifierStep verifier)
      (.initial workerParamArray) (passed ++ coming)) :
    ListenersAttached (run (verifierStep verifier) (.initial workerParamArray) passed) ∧
    AnswersKept (run (verifierStep verifier) (.initial workerParamArray) passed)
      (run (verifierStep verifier) (.initial workerParamArray) (passed ++ coming)) := by
  constructor
  · exact invariant_run ⟨Board.attached_empty, Board.attached_empty⟩
      (listenersAttached_step verifier) clean.of_append
  · rw [run_append]
    exact related_run AnswersKept.refl AnswersKept.trans (answersKept_step verifier) _ coming

end

/-- An open call whose read is over has its own listener. -/
def Board.Waits {κ ρ α : Type} (board : Board κ ρ α) : Prop :=
  ∀ id call, board.Open id call → call.read = none →
    ∃ blockNumber, board.listeners.lookup call.key = some ⟨blockNumber, id⟩

/-- A verifier that accepts every address. -/
def openVerifier : Verifier where
  platform := .ofTable []
  hash := fun _ _ _ => .ok 0
  isValidEthereumAddress := fun _ => true
  taskTimeoutInBlocks := 10

/-- A computation with the id `aa`. -/
def computation (encryptedFn : String) : Task :=
  .compute { deploymentInputs "bb" with encryptedFn := some (.str encryptedFn) }

/-- The chain does not know the task yet. -/
def unknownTask : TaskParams :=
  ⟨"", 0, 0, .recordUndefined, ""⟩

/-- The state after the first creation and its read. -/
def afterRead (task : Task) : VerifierState :=
  ⟨⟨[⟨"aa", ⟨task, "w"⟩, none, none⟩], [("aa", ⟨1, 0⟩)]⟩, .empty, []⟩

/-- The second call for a task takes the listener of the first one; and the listener of a
task with half a byte throws after it was removed. -/
theorem listeners_lost :
    ¬ (run (verifierStep openVerifier) (.initial [])
        [.verifyTaskCreation (computation "02") 1 "w", .verifyTaskCreation (computation "02") 1 "v",
          .creationParams 0 (.ok unknownTask),
          .creationParams 1 (.ok unknownTask)]).creations.Waits ∧
    ¬ (run (verifierStep openVerifier) (.initial [])
        [.verifyTaskCreation (computation "2") 1 "w", .creationParams 0 (.ok unknownTask),
          .event (.creation ⟨some "aa", none, .taskCreation "0x01" 1 2⟩)]).creations.Waits := by
  constructor
  · intro waits
    obtain ⟨blockNumber, own⟩ := waits 0 ⟨"aa", ⟨computation "02", "w"⟩, none, none⟩
      ⟨by decide, rfl⟩ rfl
    have second : some 1 = some 0 := congrArg (Option.map Listener.owner) own
    cases second
  · rw [run_cons, run_cons, run_cons, run_nil]
    change ¬ ((afterRead (computation "2")).creations.deliver _ _).Waits
    have lost : (afterRead (computation "2")).creations.deliver
        (creationListener openVerifier [])
        (CreationEvent.noticeFor ⟨some "aa", none, .taskCreation "0x01" 1 2⟩) =
        ⟨[⟨"aa", ⟨computation "2", "w"⟩, none, none⟩], []⟩ := by
      rw [Board.deliver, afterRead, deliver_singleton]
      decide
    intro waits
    obtain ⟨blockNumber, own⟩ := waits 0 ⟨"aa", ⟨computation "2", "w"⟩, none, none⟩
      ⟨congrArg (fun board => board.calls[0]?) lost, rfl⟩ rfl
    cases (congrArg (fun board => board.listeners.lookup "aa") lost).symm.trans own

/-- A creation that is cancelled after its read said that the task is unknown. -/
theorem listenersAttached_run_cancelled :
    let passed := [.verifyTaskCreation (computation "02") 1 "w",
      .creationParams 0 (.ok unknownTask)]
    let coming := [.event (.creation ⟨some "aa", none, .taskCancelled⟩)]
    ListenersAttached (run (verifierStep openVerifier) (.initial []) passed) ∧
    AnswersKept (run (verifierStep openVerifier) (.initial []) passed)
      (run (verifierStep openVerifier) (.initial []) (passed ++ coming)) := by
  refine listenersAttached_run openVerifier [] ⟨?_, ?_, ?_, trivial⟩
  · rintro task ⟨rfl⟩
    exact ⟨fun _ _ isOpen => (by cases isOpen.1), by decide⟩
  · rintro call found -
    trivial
  · intro told fired call _
    change told ∈ (deliver _ (afterRead (computation "02")).creations.listeners).2 at fired
    rw [afterRead, deliver_singleton] at fired
    cases List.mem_singleton.mp fired
    exact Option.some_ne_none _

end Ethereum
