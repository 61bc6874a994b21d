import EnigmaP2P.Ethereum.Listeners

/-!
# Spellings of a worker's address

An address is accepted with or without a prefix, in lower case, in upper case, or in mixed
case with a checksum. The comparison with the selected worker brings only the selected
one to lower case without a prefix. So an address that is spelled in any other way is never
that of the selected worker.

Respelling an address in every call of a run transports the run: as long as neither of two
spellings is the plain one, every call gets the same answer.
-/

namespace Ethereum

open Js Common Tasks Transition

/-! ## Addresses as texts -/

/-- The text without the prefix that an address may have. -/
def addressDigits (address : String) : List Char :=
  match address.toList with
  | '0' :: 'x' :: rest | '0' :: 'X' :: rest => rest
  | all => all

/-- The twenty bytes that an address spells. -/
def addressBytes (address : String) : Option (List UInt8) :=
  if (addressDigits address).length = 40 then Hex.decode? (addressDigits address) else none

/-- `isAddress` of the package. The checksum of mixed case is a parameter. -/
def isAddress (checkAddressChecksum : String → Bool) (address : String) : Bool :=
  (addressBytes address).isSome &&
    ((addressDigits address).all (fun c => !c.isUpper) ||
      (addressDigits address).all (fun c => !c.isLower) || checkAddressChecksum address)

/-- The comparison with a worker is with its address in lower case without a prefix. -/
theorem strip0x_toLower {address : String} {bytes : List UInt8}
    (spells : addressBytes address = some bytes) :
    strip0x address.toLower = toHexString bytes := by
  rw [addressBytes] at spells
  split at spells
  · have lower := Hex.map_toLower_of_decode? spells
    have chars : address.toLower.toList = address.toList.map Char.toLower := String.toList_map
    rw [addressDigits] at lower
    split at lower
    · rename_i rest text
      rw [text, List.map_cons, List.map_cons, lower] at chars
      rw [strip0x, chars]
      rfl
    · rename_i rest text
      rw [text, List.map_cons, List.map_cons, lower] at chars
      rw [strip0x, chars]
      rfl
    · rw [lower] at chars
      rw [show address.toLower = toHexString bytes from String.toList_injective
        (chars.trans String.toList_ofList.symm)]
      exact strip0x_toHexString bytes
  · cases spells

theorem addressBytes_of_isAddress {checkAddressChecksum : String → Bool} {address : String}
    (accepted : isAddress checkAddressChecksum address = true) :
    ∃ bytes, addressBytes address = some bytes :=
  Option.isSome_iff_exists.mp (Bool.and_eq_true_iff.mp accepted).1

/-- Only the plain spelling of an address is equal to the one that the comparison makes. -/
theorem eq_selected_iff {selected address : String} {bytes : List UInt8}
    (spells : addressBytes selected = some bytes) :
    strip0x selected.toLower = address ↔ address = toHexString bytes := by
  rw [strip0x_toLower spells]
  exact eq_comm

/-- The plain spelling of an address. -/
theorem eq_toHexString_of_isHexAddress {address : String} {bytes : List UInt8}
    (plain : IsHexAddress address) (spells : addressBytes address = some bytes) :
    address = toHexString bytes := by
  obtain ⟨other, rfl⟩ := plain
  have lower : (toHexString other).toLower = toHexString other := by
    apply String.toList_injective
    calc (toHexString other).toLower.toList
        = (Hex.encode other).map Char.toLower := by
          rw [toHexString]
          exact (String.toList_map ..).trans (by rw [String.toList_ofList])
      _ = Hex.encode other := Hex.map_toLower_of_decode? (Hex.decode?_encode other)
      _ = (toHexString other).toList := String.toList_ofList.symm
  have stripped := strip0x_toLower spells
  rwa [lower, strip0x_toHexString] at stripped

/-! ## Calls with another subject -/

section

variable {κ ρ α ν : Type}

/-- The subject of every call is changed, and nothing else. -/
def Board.mapSubject (f : κ → κ) (board : Board κ ρ α) : Board κ ρ α :=
  { board with calls := board.calls.map fun call => { call with subject := f call.subject } }

variable {f : κ → κ} {board : Board κ ρ α}

@[simp] theorem Board.mapSubject_listeners :
    (board.mapSubject f).listeners = board.listeners := rfl

@[simp] theorem Board.mapSubject_calls (id : Nat) : (board.mapSubject f).calls[id]? =
    (board.calls[id]?).map fun call => { call with subject := f call.subject } :=
  List.getElem?_map

theorem Board.mapSubject_register (key : String) (subject : κ) (read : ρ) (blockNumber : Nat) :
    (board.register key subject read blockNumber).mapSubject f =
      (board.mapSubject f).register key (f subject) read blockNumber := by
  simp [Board.mapSubject, Board.register]

/-- A change of a call's record that does not touch its subject. -/
theorem Board.mapSubject_update (id : Nat) {change : Call κ ρ α → Call κ ρ α}
    (same : ∀ call, { change call with subject := f (change call).subject } =
      change { call with subject := f call.subject }) :
    (board.update id change).mapSubject f = (board.mapSubject f).update id change := by
  have calls : (board.calls.modify id change).map
        (fun call => { call with subject := f call.subject }) =
      (board.calls.map fun call => { call with subject := f call.subject }).modify id change := by
    refine List.ext_getElem? fun i => ?_
    simp only [List.getElem?_map, List.getElem?_modify, Option.map_eq_map, Option.map_map]
    refine congrArg (fun change => (board.calls[i]?).map change) (funext fun call => ?_)
    simp only [Function.comp_apply]
    split
    · exact same call
    · rfl
  rw [Board.mapSubject, Board.update, Board.update, calls]
  rfl

theorem Board.mapSubject_setRead (id : Nat) (read : Option ρ) :
    (board.setRead id read).mapSubject f = (board.mapSubject f).setRead id read :=
  Board.mapSubject_update id fun _ => rfl

/-- An answer that is the same for the changed subject. -/
theorem Board.mapSubject_resolve {answer : κ → Option α}
    (alike : ∀ subject, answer (f subject) = answer subject) (id : Nat) :
    (board.resolve id answer).mapSubject f = (board.mapSubject f).resolve id answer := by
  refine Board.mapSubject_update id fun call => ?_
  simp only [alike]

theorem Board.mapSubject_remove (key : String) :
    (board.remove key).mapSubject f = (board.mapSubject f).remove key := rfl

theorem Board.mapSubject_fire {answer : κ → Option α}
    (alike : ∀ subject, answer (f subject) = answer subject) (key : String) :
    (board.fire key answer).mapSubject f = (board.mapSubject f).fire key answer := by
  rw [Board.fire, Board.fire, Board.mapSubject_listeners]
  cases board.listeners.lookup key with
  | none => rfl
  | some listener =>
      change ((board.resolve listener.owner answer).mapSubject f).remove key = _
      rw [Board.mapSubject_resolve alike]

theorem Board.mapSubject_expire {expired : Nat → Bool} {timeout : κ → Option α}
    (alike : ∀ subject, timeout (f subject) = timeout subject) (taskIds : List String) :
    (board.expire expired timeout taskIds).mapSubject f =
      (board.mapSubject f).expire expired timeout taskIds := by
  induction taskIds generalizing board with
  | nil => rfl
  | cons taskId taskIds ih =>
      rw [Board.expire, Board.expire, Board.mapSubject_listeners]
      split
      · rw [ih, Board.mapSubject_fire alike]
      · exact ih

theorem Board.mapSubject_deliver {listen : ν → κ → Option α}
    (alike : ∀ told subject, listen told (f subject) = listen told subject)
    (notice : String → Option ν) :
    (board.deliver listen notice).mapSubject f = (board.mapSubject f).deliver listen notice := by
  have told : ∀ (fired : List (Nat × ν)) (board : Board κ ρ α),
      (fired.foldl (fun board told => board.resolve told.1 (listen told.2)) board).mapSubject f =
        fired.foldl (fun board told => board.resolve told.1 (listen told.2))
          (board.mapSubject f) := by
    intro fired
    induction fired with
    | nil => exact fun _ => rfl
    | cons first fired ih =>
        intro board
        rw [List.foldl_cons, List.foldl_cons, ih, Board.mapSubject_resolve (alike first.2)]
  exact told _ _

end

/-! ## The comparison -/

/-- The workers of the epochs are addresses. -/
def HasAddresses (workerParamArray : List WorkerParams) : Prop :=
  ∀ params ∈ workerParamArray, ∀ worker ∈ params.workers, addressBytes worker ≠ none

theorem scanWorkers_mem {workers : List String} {balances : List Nat} {randVal : Int}
    {worker : String} (scanned : scanWorkers workers balances randVal = .ok (some worker)) :
    worker ∈ workers := by
  induction workers generalizing balances randVal with
  | nil => cases scanned
  | cons first workers ih =>
      cases balances with
      | nil => cases scanned
      | cons balance balances =>
          rw [scanWorkers] at scanned
          split at scanned
          · cases scanned
            exact List.mem_cons_self
          · exact List.mem_cons_of_mem _ (ih scanned)

/-- A selected worker is one of the epoch. -/
theorem selectWorker_mem {hash : SelectionHash} {secretContractAddress : Option String}
    {params : WorkerParams} {nonce : Nat} {worker : String}
    (selected : selectWorker hash secretContractAddress params nonce = .ok (some worker)) :
    worker ∈ params.workers := by
  rw [selectWorker] at selected
  split at selected
  · cases selected
  · obtain ⟨randVal, -, selected⟩ := bind_eq_ok.mp selected
    split at selected
    · cases selected
    · obtain ⟨scanned, isScanned, picked⟩ := bind_eq_ok.mp selected
      cases scanned with
      | none => exact List.mem_of_getLast? (Except.ok.inj picked)
      | some first =>
          cases picked
          exact scanWorkers_mem isScanned

/-- A group of one. -/
theorem selectWorkerGroup_one (hash : SelectionHash) (secretContractAddress : Option String)
    (params : WorkerParams) : selectWorkerGroup hash 0 secretContractAddress params 1 =
      some ((selectWorker hash secretContractAddress params 0).map ([·])) := by
  unfold selectWorkerGroup selectTurns
  cases selectWorker hash secretContractAddress params 0 with
  | error exn => simp only [Except.map]
  | ok worker =>
      simp only [Except.map]
      rfl

/-- Addresses that are not spelled plainly are all the same to the comparison. -/
theorem verifySelectedWorker_alike {a b : String} (notPlain : ¬ IsHexAddress a ∧ ¬ IsHexAddress b)
    (hash : SelectionHash) {workerParamArray : List WorkerParams}
    (addresses : HasAddresses workerParamArray) (task : Task) (blockNumber : Nat) :
    verifySelectedWorker hash 0 workerParamArray task blockNumber a =
      verifySelectedWorker hash 0 workerParamArray task blockNumber b := by
  rw [verifySelectedWorker, verifySelectedWorker]
  split
  · rfl
  · rename_i params found
    have member : params ∈ workerParamArray := by
      rw [findWorkerParamForTask] at found
      split at found
      · cases found
      · exact List.mem_reverse.mp (List.mem_of_find?_eq_some found)
    simp only [selectWorkerGroup_one]
    cases selected : selectWorker hash task.fields.contractAddr params 0 with
    | error exn => rfl
    | ok worker =>
        cases worker with
        | none => rfl
        | some worker =>
            obtain ⟨bytes, spells⟩ := Option.ne_none_iff_exists'.mp
              (addresses params member worker (selectWorker_mem selected))
            have differs : ∀ address, ¬ IsHexAddress address →
                compareWorker task.fields.contractAddr address [some worker] =
                  .ok ⟨false, some ⟨.workerSelectionVerificationErr,
                    "Not the selected worker for the " ++
                    orNull task.fields.contractAddr ++ " task"⟩⟩ := by
              intro address other
              exact if_neg fun same => other ⟨bytes, (eq_selected_iff spells).mp same⟩
            change some (compareWorker _ a [some worker]) = some (compareWorker _ b [some worker])
            rw [differs a notPlain.1, differs b notPlain.2]

/-! ## Respelled runs -/

/-- The address is spelled in another way. -/
def Creation.respell (a b : String) (creation : Creation) : Creation :=
  { creation with
    workerAddress := if creation.workerAddress = a then b else creation.workerAddress }

def VerifierState.respell (a b : String) (state : VerifierState) : VerifierState :=
  { state with creations := state.creations.mapSubject (Creation.respell a b) }

def VerifierLabel.respell (a b : String) : VerifierLabel → VerifierLabel
  | .verifyTaskCreation task blockNumber workerAddress =>
      .verifyTaskCreation task blockNumber (if workerAddress = a then b else workerAddress)
  | label => label

/-- The workers of an epoch are addresses. -/
def VerifierLabel.HasAddresses : VerifierLabel → Prop
  | .newEpoch params => ∀ worker ∈ params.workers, addressBytes worker ≠ none
  | _ => True

section

variable {verifier : Verifier} {a b : String}

/-- The two spellings are accepted, and the comparison does not tell them apart. -/
structure Alike (verifier : Verifier) (a b : String) : Prop where
  valid : verifier.isValidEthereumAddress a = verifier.isValidEthereumAddress b
  notPlain : ¬ IsHexAddress a ∧ ¬ IsHexAddress b

theorem selectedWorkerAnswer_alike (alike : Alike verifier a b)
    {workerParamArray : List WorkerParams} (addresses : HasAddresses workerParamArray)
    (gasLimit blockNumber : Nat) (creation : Creation) :
    selectedWorkerAnswer verifier workerParamArray gasLimit blockNumber (creation.respell a b) =
      selectedWorkerAnswer verifier workerParamArray gasLimit blockNumber creation := by
  have same : verifySelectedWorker verifier.hash 0 workerParamArray creation.task blockNumber
      (if creation.workerAddress = a then b else creation.workerAddress) =
      verifySelectedWorker verifier.hash 0 workerParamArray creation.task blockNumber
        creation.workerAddress := by
    split
    · rename_i isA
      rw [isA]
      exact (verifySelectedWorker_alike alike.notPlain _ addresses _ _).symm
    · rfl
  simp only [selectedWorkerAnswer, Creation.respell, same]

theorem creationListener_alike (alike : Alike verifier a b)
    {workerParamArray : List WorkerParams} (addresses : HasAddresses workerParamArray)
    (notice : CreationNotice) (creation : Creation) :
    creationListener verifier workerParamArray notice (creation.respell a b) =
      creationListener verifier workerParamArray notice creation := by
  cases notice with
  | taskCreation inputsHash gasLimit blockNumber =>
      simp only [creationListener, selectedWorkerAnswer_alike alike addresses]
      rfl
  | _ => rfl

theorem creationAnswered_alike (alike : Alike verifier a b)
    {workerParamArray : List WorkerParams} (addresses : HasAddresses workerParamArray) (id : Nat)
    (taskParams : Except String TaskParams) (creations : Board Creation Unit CreationAnswer) :
    creationAnswered verifier workerParamArray id taskParams
        (creations.mapSubject (Creation.respell a b)) =
      (creationAnswered verifier workerParamArray id taskParams creations).mapSubject
        (Creation.respell a b) := by
  have task : ∀ creation : Creation, (creation.respell a b).task = creation.task := fun _ => rfl
  rw [creationAnswered.eq_def, creationAnswered.eq_def, Board.mapSubject_calls]
  cases found : creations.calls[id]? with
  | none => rfl
  | some call =>
      obtain ⟨taskId, creation, read, answer⟩ := call
      cases read with
      | none => rfl
      | some read =>
          simp only [Option.map_some, task]
          cases verifyTaskCreationNow verifier.platform taskParams creation.task with
          | error exn => exact (Board.mapSubject_setRead id none).symm
          | ok read =>
              cases read with
              | cannotBeVerified => exact (Board.mapSubject_setRead id none).symm
              | rejected error =>
                  rw [← Board.mapSubject_setRead]
                  simp only [Board.mapSubject_remove]
                  rw [Board.mapSubject_resolve (f := Creation.respell a b) fun _ => rfl]
              | accepted params =>
                  simp only [Board.mapSubject_remove, Board.mapSubject_setRead,
                    Board.mapSubject_resolve (selectedWorkerAnswer_alike alike addresses _ _)]

/-- A respelled label leads from a respelled state to a respelled state. -/
theorem verifierStep_respell (alike : Alike verifier a b) {state : VerifierState}
    (addresses : HasAddresses state.workerParamArray) {label : VerifierLabel}
    (labelAddresses : label.HasAddresses) :
    verifierStep verifier (state.respell a b) (label.respell a b) =
      (verifierStep verifier state label).respell a b := by
  cases label with
  | verifyTaskCreation task blockNumber workerAddress =>
      have sameValid : verifier.isValidEthereumAddress
          (if workerAddress = a then b else workerAddress) =
          verifier.isValidEthereumAddress workerAddress := by
        split
        · rename_i isA
          rw [isA, alike.valid]
        · rfl
      cases task with
      | none => rfl
      | some task =>
          simp only [verifierStep, VerifierLabel.respell, verifyTaskCreation, sameValid]
          cases verifier.isValidEthereumAddress workerAddress with
          | false => rfl
          | true =>
              simp only [if_true]
              exact congrArg (fun creations => { state with creations })
                (Board.mapSubject_register (f := Creation.respell a b) (orNull task.getTaskId)
                  ⟨task, workerAddress⟩ () blockNumber).symm
  | creationParams id taskParams =>
      exact congrArg (fun creations => { state with creations })
        (creationAnswered_alike alike addresses id taskParams state.creations)
  | event event =>
      cases event with
      | creation event =>
          exact congrArg (fun creations => { state with creations })
            (Board.mapSubject_deliver (creationListener_alike alike addresses) _).symm
      | _ => rfl
  | newEpoch event =>
      simp only [verifierStep, VerifierLabel.respell]
      split
      · have expired := @Board.mapSubject_expire _ _ _ (Creation.respell a b) state.creations
          (isExpired verifier event) (creationListener verifier
            (newEpochEventCallback state.workerParamArray event) .newEpoch) (fun _ => rfl)
          (allTaskIds state.creations.listeners)
        simp only [VerifierState.respell, expired]
        rfl
      · rfl
  | verifyTaskSubmission result blockNumber contractAddress localTip =>
      simp only [verifierStep, VerifierLabel.respell]
      cases same : verifyTaskSubmission result blockNumber contractAddress localTip
          state.submissions with
      | error answer => simp only [VerifierState.respell, same]
      | ok submissions => simp only [VerifierState.respell, same]
  | _ => rfl

/-- The epochs of a run are addresses too. -/
theorem hasAddresses_step {state : VerifierState} (addresses : HasAddresses state.workerParamArray)
    {label : VerifierLabel} (labelAddresses : label.HasAddresses) :
    HasAddresses (verifierStep verifier state label).workerParamArray := by
  cases label with
  | newEpoch event =>
      rw [verifierStep]
      split
      · rename_i valid
        intro params member
        have pushed : params ∈ state.workerParamArray ++ [event] := by
          rw [newEpochEventCallback, if_pos valid, Window.push] at member
          split at member
          · exact List.mem_of_mem_tail member
          · exact member
        rcases List.mem_append.mp pushed with old | new
        · exact addresses params old
        · rw [List.mem_singleton.mp new]
          exact labelAddresses
      · exact addresses
  | verifyTaskCreation task blockNumber workerAddress =>
      rw [verifierStep]
      split <;> exact addresses
  | verifyTaskSubmission result blockNumber contractAddress localTip =>
      rw [verifierStep]
      split <;> exact addresses
  | event event => cases event <;> exact addresses
  | _ => exact addresses

/-- A respelled run ends in the respelled state. -/
theorem run_respell (alike : Alike verifier a b) {state : VerifierState}
    (addresses : HasAddresses state.workerParamArray) {labels : List VerifierLabel}
    (labelAddresses : ∀ label ∈ labels, label.HasAddresses) :
    run (verifierStep verifier) (state.respell a b) (labels.map (·.respell a b)) =
      (run (verifierStep verifier) state labels).respell a b := by
  induction labels generalizing state with
  | nil => rfl
  | cons label labels ih =>
      obtain ⟨first, later⟩ := List.forall_mem_cons.mp labelAddresses
      rw [List.map_cons, run_cons, run_cons, verifierStep_respell alike addresses first]
      exact ih (hasAddresses_step addresses first) later

end

/-- The answers of the calls of `verifyTaskCreation`. -/
def VerifierState.answers (state : VerifierState) : List (Option CreationAnswer) :=
  state.creations.calls.map (·.answer)

theorem answers_respell (a b : String) (state : VerifierState) :
    (state.respell a b).answers = state.answers := by
  simp [VerifierState.answers, VerifierState.respell, Board.mapSubject]

/-- In every run the answers stay the same when one address is spelled as the other. -/
def SameAnswers (checkAddressChecksum : String → Bool) (a b : String) : Prop :=
  ∀ (verifier : Verifier) (workerParamArray : List WorkerParams) (labels : List VerifierLabel),
    verifier.isValidEthereumAddress = isAddress checkAddressChecksum →
    HasAddresses workerParamArray → (∀ label ∈ labels, label.HasAddresses) →
    (run (verifierStep verifier) (.initial workerParamArray)
      (labels.map (·.respell a b))).answers =
        (run (verifierStep verifier) (.initial workerParamArray) labels).answers

/-! ### A worker that is selected -/

/-- A verifier that checks addresses, and selects by the residue 0. -/
def addressVerifier (checkAddressChecksum : String → Bool) : Verifier :=
  { openVerifier with isValidEthereumAddress := isAddress checkAddressChecksum }

/-- The hash of the inputs of `computation "02"`. -/
def knownHash : String :=
  hexText (List.replicate 33 0 ++ Hex.frame [[2], [3], [187], [5]])

theorem computation_accepted :
    verifyTaskCreateParams openVerifier.platform knownHash (computation "02") = .ok .accepted := by
  have lawful : openVerifier.platform.Lawful := Platform.ofTable_lawful (by decide) nofun
  have decoded : List.Forall₂ (fun value bytes => hexBytes value = some bytes)
      [some (.str "02"), some (.str "03"), some (.str "bb"), some (.str "05")]
      [[2], [3], [187], [5]] :=
    .cons (by decide) (.cons (by decide) (.cons (by decide) (.cons (by decide) .nil)))
  refine accepted_iff.mpr ⟨_, rfl, (hashArray_hex lawful decoded ?_).trans ?_⟩
  · intro bytes member
    have one : bytes.length = 1 := by
      revert bytes
      decide
    rw [one]
    decide
  · have notNull : List.replicate 33 0 ++ Hex.frame [[2], [3], [187], [5]] ≠
        List.replicate 33 (0 : UInt8) ++ [] := by
      decide
    have digest : openVerifier.platform.sha3 (Hex.frame [[2], [3], [187], [5]]) = some knownHash :=
      @if_neg _ _ notNull _ none _
    rw [digest]

/-- A call for the task, and the record that its read finds. -/
def callFor (workerAddress : String) : List VerifierLabel :=
  [.verifyTaskCreation (some (computation "02")) 1 workerAddress,
    .creationParams 0 (.ok ⟨knownHash, 0, 1, .recordCreated, ""⟩)]

/-- The state after the calls of an epoch with one worker. -/
def afterCallFor (checkAddressChecksum : String → Bool) (worker address : String) : VerifierState :=
  run (verifierStep (addressVerifier checkAddressChecksum))
    (.initial [⟨.num 0, 0, [worker], some [1]⟩]) (callFor address)

/-- The answer for an epoch with one worker: it is the selected one if its address is the
plain spelling. -/
theorem answers_callFor {checkAddressChecksum : String → Bool} {address worker : String}
    (accepted : isAddress checkAddressChecksum address = true) :
    (afterCallFor checkAddressChecksum worker address).answers.map (·.map (·.isVerified)) =
      [some (decide (strip0x worker.toLower = address))] := by
  have registered : verifierStep (addressVerifier checkAddressChecksum)
      (.initial [⟨.num 0, 0, [worker], some [1]⟩])
      (.verifyTaskCreation (some (computation "02")) 1 address) =
      { VerifierState.initial [⟨.num 0, 0, [worker], some [1]⟩] with
        creations := Board.empty.register "aa" ⟨computation "02", address⟩ () 1 } := by
    simp only [verifierStep, verifyTaskCreation, addressVerifier, accepted, if_true]
    rfl
  have readOk : verifyTaskCreationNow openVerifier.platform
      (.ok ⟨knownHash, 0, 1, .recordCreated, ""⟩) (computation "02") =
      .ok (.accepted ⟨knownHash, 0, 1, .recordCreated, ""⟩) := by
    simp only [verifyTaskCreationNow, computation_accepted]
    rfl
  have selected : verifySelectedWorker (addressVerifier checkAddressChecksum).hash 0
      [⟨.num 0, 0, [worker], some [1]⟩] (computation "02") 1 address =
      some (compareWorker (some "bb") address [some worker]) := by
    have found : findWorkerParamForTask [⟨.num 0, 0, [worker], some [1]⟩] 1 =
        some ⟨.num 0, 0, [worker], some [1]⟩ := rfl
    rw [verifySelectedWorker, found]
    simp only [selectWorkerGroup_one]
    rfl
  have answer : ((selectedWorkerAnswer (addressVerifier checkAddressChecksum)
      [⟨.num 0, 0, [worker], some [1]⟩] 0 1 ⟨computation "02", address⟩).map (·.isVerified)) =
      some (decide (strip0x worker.toLower = address)) := by
    simp only [selectedWorkerAnswer, selected, compareWorker, List.head?_cons, Option.join_some]
    by_cases same : strip0x worker.toLower = address
    · rw [if_pos same, decide_eq_true same]
      rfl
    · rw [if_neg same, decide_eq_false same]
      rfl
  rw [afterCallFor, callFor, run_cons, registered, run_cons, run_nil]
  have answered : (verifierStep (addressVerifier checkAddressChecksum)
      { VerifierState.initial [⟨.num 0, 0, [worker], some [1]⟩] with
        creations := Board.empty.register "aa" ⟨computation "02", address⟩ () 1 }
      (.creationParams 0 (.ok ⟨knownHash, 0, 1, .recordCreated, ""⟩))).answers =
      [selectedWorkerAnswer (addressVerifier checkAddressChecksum)
        [⟨.num 0, 0, [worker], some [1]⟩] 0 1 ⟨computation "02", address⟩] := by
    have found : (Board.empty.register "aa" ⟨computation "02", address⟩ () 1 :
        Board Creation Unit CreationAnswer).calls[0]? =
        some ⟨"aa", ⟨computation "02", address⟩, some (), none⟩ := rfl
    have read : verifyTaskCreationNow (addressVerifier checkAddressChecksum).platform
        (.ok ⟨knownHash, 0, 1, .recordCreated, ""⟩) (computation "02") =
        .ok (.accepted ⟨knownHash, 0, 1, .recordCreated, ""⟩) := readOk
    simp only [verifierStep, creationAnswered, found, read]
    rfl
  rw [answered, List.map_singleton, answer]

theorem callFor_respell (a b : String) : (callFor a).map (·.respell a b) = callFor b := by
  rw [callFor, List.map_cons, List.map_singleton, VerifierLabel.respell, if_pos rfl]
  rfl

theorem callFor_hasAddresses (address : String) :
    ∀ label ∈ callFor address, label.HasAddresses := by
  rw [callFor, List.forall_mem_cons, List.forall_mem_singleton]
  exact ⟨trivial, trivial⟩

/-- The calls after which the worker is the selected one, respelled. -/
theorem SameAnswers.afterCallFor {checkAddressChecksum : String → Bool} {a b : String}
    (same : SameAnswers checkAddressChecksum a b) (spells : addressBytes a ≠ none) :
    (afterCallFor checkAddressChecksum a b).answers =
      (Ethereum.afterCallFor checkAddressChecksum a a).answers := by
  have addresses : HasAddresses [⟨.num 0, 0, [a], some [1]⟩] := by
    intro params isParams worker isWorker
    rw [List.mem_singleton.mp isParams] at isWorker
    rw [List.mem_singleton.mp isWorker]
    exact spells
  have answers := same (addressVerifier checkAddressChecksum) _ (callFor a) rfl addresses
    (callFor_hasAddresses a)
  rw [callFor_respell] at answers
  exact answers

/-- The plain spelling of the bytes is one of two spellings with the same answers only if it
is the other one too. -/
theorem SameAnswers.eq_iff {checkAddressChecksum : String → Bool} {a b : String}
    (same : SameAnswers checkAddressChecksum a b)
    (acceptedA : isAddress checkAddressChecksum a = true)
    (acceptedB : isAddress checkAddressChecksum b = true) {bytes : List UInt8}
    (spells : addressBytes a = some bytes) : toHexString bytes = b ↔ toHexString bytes = a := by
  have spelled : addressBytes a ≠ none := by
    rw [spells]
    nofun
  have verdicts := congrArg (List.map (Option.map (·.isVerified))) (same.afterCallFor spelled)
  rw [answers_callFor acceptedB, answers_callFor acceptedA, strip0x_toLower spells] at verdicts
  exact decide_eq_decide.mp (Option.some.inj (List.cons.inj verdicts).1)

/-- Two accepted spellings of an address have the same answers in every run exactly if they
are the same text or neither of them is the plain one. -/
theorem sameAnswers_iff {checkAddressChecksum : String → Bool} {a b : String}
    (acceptedA : isAddress checkAddressChecksum a = true)
    (acceptedB : isAddress checkAddressChecksum b = true)
    (sameBytes : addressBytes a = addressBytes b) :
    SameAnswers checkAddressChecksum a b ↔ a = b ∨ (¬ IsHexAddress a ∧ ¬ IsHexAddress b) := by
  obtain ⟨bytes, spellsA⟩ := addressBytes_of_isAddress acceptedA
  have spellsB : addressBytes b = some bytes := sameBytes.symm.trans spellsA
  constructor
  · intro same
    have eqIff := same.eq_iff acceptedA acceptedB spellsA
    by_cases equal : a = b
    · exact .inl equal
    · refine .inr ⟨fun plain => equal ?_, fun plain => equal ?_⟩
      · have isA := eq_toHexString_of_isHexAddress plain spellsA
        exact isA.trans (eqIff.mpr isA.symm)
      · have isB := eq_toHexString_of_isHexAddress plain spellsB
        exact (eqIff.mp isB.symm).symm.trans isB.symm
  · rintro (rfl | notPlain) verifier workerParamArray labels valid addresses labelAddresses
    · have unchanged : ∀ label : VerifierLabel, label.respell a a = label := by
        intro label
        cases label with
        | verifyTaskCreation task blockNumber workerAddress =>
            rw [VerifierLabel.respell]
            split
            · rename_i isA
              rw [isA]
            · rfl
        | _ => rfl
      rw [List.map_congr_left fun label _ => unchanged label, List.map_id']
    · have alike : Alike verifier a b :=
        ⟨by rw [valid, acceptedA, acceptedB], notPlain⟩
      have transported : run (verifierStep verifier) (.initial workerParamArray)
          (labels.map (·.respell a b)) =
          (run (verifierStep verifier) (.initial workerParamArray) labels).respell a b :=
        @run_respell verifier a b alike (.initial workerParamArray) addresses labels labelAddresses
      rw [transported, answers_respell]

/-- Twenty bytes, spelled plainly, with a prefix, and with a prefix in upper case. -/
def plainSpelling : String := "1d1d1d1d1d1d1d1d1d1d1d1d1d1d1d1d1d1d1d1d"

def prefixedSpelling : String := "0x1d1d1d1d1d1d1d1d1d1d1d1d1d1d1d1d1d1d1d1d"

def upperSpelling : String := "0x1D1D1D1D1D1D1D1D1D1D1D1D1D1D1D1D1D1D1D1D"

/-- The plain spelling is that of the selected worker, and the one with a prefix is not. -/
theorem sameAnswers_wrong :
    isAddress (fun _ => false) plainSpelling = true ∧
    isAddress (fun _ => false) prefixedSpelling = true ∧
    addressBytes plainSpelling = addressBytes prefixedSpelling ∧
    (afterCallFor (fun _ => false) plainSpelling plainSpelling).answers.map
      (·.map (·.isVerified)) = [some true] ∧
    (afterCallFor (fun _ => false) plainSpelling prefixedSpelling).answers.map
      (·.map (·.isVerified)) = [some false] ∧
    ¬ SameAnswers (fun _ => false) plainSpelling prefixedSpelling := by
  have accepted : isAddress (fun _ => false) plainSpelling = true ∧
      isAddress (fun _ => false) prefixedSpelling = true := by decide
  have decoded : addressBytes plainSpelling = some (List.replicate 20 29) := by decide
  have selected : strip0x plainSpelling.toLower = plainSpelling :=
    (strip0x_toLower decoded).trans (by decide)
  have verified : (afterCallFor (fun _ => false) plainSpelling plainSpelling).answers.map
      (·.map (·.isVerified)) = [some true] := by
    rw [answers_callFor accepted.1, selected, decide_eq_true rfl]
  have rejected : (afterCallFor (fun _ => false) plainSpelling prefixedSpelling).answers.map
      (·.map (·.isVerified)) = [some false] := by
    rw [answers_callFor accepted.2, selected]
    decide
  refine ⟨accepted.1, accepted.2, by decide, verified, rejected, fun same => ?_⟩
  have spelled : addressBytes plainSpelling ≠ none := by
    rw [decoded]
    nofun
  rw [same.afterCallFor spelled, verified] at rejected
  cases rejected

/-- Two spellings with a prefix. -/
theorem sameAnswers_iff_prefixed : SameAnswers (fun _ => false) prefixedSpelling upperSpelling := by
  have decoded : addressBytes prefixedSpelling = some (List.replicate 20 29) ∧
      addressBytes upperSpelling = some (List.replicate 20 29) := by decide
  refine (sameAnswers_iff (by decide) (by decide) (decoded.1.trans decoded.2.symm)).mpr
    (.inr ⟨fun plain => ?_, fun plain => ?_⟩)
  · exact absurd (eq_toHexString_of_isHexAddress plain decoded.1) (by decide)
  · exact absurd (eq_toHexString_of_isHexAddress plain decoded.2) (by decide)

end Ethereum
