import EnigmaP2P.Core.Removal
import EnigmaP2P.Sync.Requests
import EnigmaP2P.Transition.Runs

/-!
# The pipeline of a sync

`ReceiveAllPipelineAction` compares the local state with the chain, builds content ids for
what is missing, searches providers, receives from them, and reverts what the node has in
excess. A flag keeps a second sync out while one is running. The stages and their outcomes are
the environment's.

The flag is released at the end and by the handler of exceptions. Two early returns pass by
both. The handler of the receiving stage compares the error with a class that the errors of the
repository do not have; the comparison throws, so the outer handler reports a `TypeError` in
place of the error, and nothing is reverted.
-/

namespace Sync

open Js Common Ethereum Core Transition

inductive SyncErr where
  /-- `SyncReceiverErr`. -/
  | receiver (message : String)
  | stage (message : String)
  | exn (exn : Exn)
  deriving DecidableEq

/-- `FindProviderResult`. -/
structure FindProviderResult (π : Type) where
  completeError : Bool
  errored : List String
  providers : List (String × List π)

namespace FindProviderResult

variable {π : Type}

def isCompleteError (result : FindProviderResult π) : Bool := result.completeError

def isErrors (result : FindProviderResult π) : Bool := !result.errored.isEmpty

/-- `none` is `null`. -/
def getProvidersFor (result : FindProviderResult π) (ecid : String) : Option (List π) :=
  result.providers.lookup ecid

end FindProviderResult

/-- The outcomes of the stages. A call of the receiver and a write to the core may depend on
how many there were before. -/
structure PipelineEnv (π ρ : Type) where
  identify : Except SyncErr Comparison
  /-- The content id of an address; `none` is `null`. -/
  createFromSCAddress : String → Option String
  findProviders : List String → Except SyncErr (FindProviderResult π)
  trySyncReceive : RemoteMissingStates → Nat → Option (List π) → List SyncReqMsg →
    Except SyncErr (Bool × ρ)
  updateDb : Nat → Removal → Except SyncErr Unit

/-- The flag, and the calls of `onEnd` of one request. -/
structure PipelineState (ρ : Type) where
  running : Bool
  calls : List (Except SyncErr (Option ρ))

/-- The two entries. The second one sets another property of the parameters than the first
one reads. -/
inductive Entry where
  | execute
  | asyncExecute
  deriving DecidableEq

section

variable {π ρ : Type} (env : PipelineEnv π ρ) (entry : Entry)

/-- `onEnd(…)`, with the exception that it throws where it is `undefined`. -/
def onEnd (call : Except SyncErr (Option (List (Bool × ρ))))
    (state : PipelineState (List (Bool × ρ))) :
    PipelineState (List (Bool × ρ)) × Option SyncErr :=
  match entry with
  | .execute => ({ state with calls := state.calls ++ [call] }, none)
  | .asyncExecute => (state, some (.exn .typeError))

/-- The loop over the addresses: the content ids, or the address that has none. -/
def contentIds : List String → Except String (List (String × String))
  | [] => .ok []
  | addrKey :: rest =>
      match env.createFromSCAddress addrKey with
      | none => .error addrKey
      | some ecid => (contentIds rest).map ((addrKey, ecid) :: ·)

/-- The jobs of `TryReceiveAllAction`; the first error ends them. -/
def receiveJobs (remoteMissingStates : RemoteMissingStates) :
    Nat → List (Option (List π) × List SyncReqMsg) → Except SyncErr (List (Bool × ρ))
  | _, [] => .ok []
  | i, (providers, requestMessages) :: jobs => do
      let result ← env.trySyncReceive remoteMissingStates i providers requestMessages
      let results ← receiveJobs remoteMissingStates (i + 1) jobs
      pure (result :: results)

/-- `TryReceiveAllAction`; without data it ends without results. -/
def tryReceiveAll (remoteMissingStates : RemoteMissingStates)
    (allMissingDataList : List (Option (List π) × List SyncReqMsg)) :
    Except SyncErr (Option (List (Bool × ρ))) :=
  if allMissingDataList.isEmpty then .ok none
  else (receiveJobs env remoteMissingStates 0 allMissingDataList).map some

/-- The loop over the contracts in excess. -/
def revertAll : Nat → List ExcessState → Except SyncErr Unit
  | _, [] => .ok ()
  | i, contract :: rest => do
      env.updateDb i (excessRemoval contract)
      revertAll (i + 1) rest

/-- The end of the `try` block. -/
def revertAndEnd (excessList : List ExcessState) (allResults : Option (List (Bool × ρ)))
    (state : PipelineState (List (Bool × ρ))) :
    PipelineState (List (Bool × ρ)) × Option SyncErr :=
  match revertAll env 0 excessList with
  | .error err => (state, some err)
  | .ok () => onEnd entry (.ok allResults) { state with running := false }

/-- The requests and providers of each contract. -/
def receiveData (missingStatesMsgsMap : List (String × List SyncReqMsg))
    (ecids : List (String × String)) (result : FindProviderResult π) :
    List (Option (List π) × List SyncReqMsg) :=
  ecids.map fun ecid =>
    (result.getProvidersFor ecid.2, (missingStatesMsgsMap.lookup ecid.1).getD [])

/-- The `try` block from the receiving stage on. After an error of that stage,
`err instanceof errs.SyncReceiverNoMissingDataErr` throws, because there is no such class. -/
def receiveAndRevert (comparison : Comparison)
    (data : List (Option (List π) × List SyncReqMsg)) (state : PipelineState (List (Bool × ρ))) :
    PipelineState (List (Bool × ρ)) × Option SyncErr :=
  match tryReceiveAll env (transformMissingStatesListToMap comparison.missingList) data with
  | .ok allResults => revertAndEnd env entry comparison.excessList allResults state
  | .error _ => (state, some (.exn .typeError))

/-- The `try` block, with the exception that leaves it. -/
def tryBlock (state : PipelineState (List (Bool × ρ))) :
    PipelineState (List (Bool × ρ)) × Option SyncErr :=
  match env.identify with
  | .error err => (state, some err)
  | .ok comparison =>
      match buildMissingStatesResult comparison.missingList with
      | .error exn => (state, some (.exn exn))
      | .ok missingStatesMsgsMap =>
          match contentIds env ((entries missingStatesMsgsMap).map (·.1)) with
          | .error addrKey =>
              onEnd entry (.error (.receiver ("error creating EngCid from " ++ addrKey))) state
          | .ok ecids =>
              match env.findProviders (ecids.map (·.2)) with
              | .error err => (state, some err)
              | .ok result =>
                  if result.isCompleteError || result.isErrors then
                    onEnd entry (.error (.receiver "some error finding providers !")) state
                  else
                    receiveAndRevert env entry comparison
                      (receiveData missingStatesMsgsMap ecids result) state

/-- The `catch` block. -/
def catchBlock (ended : PipelineState (List (Bool × ρ)) × Option SyncErr) :
    PipelineState (List (Bool × ρ)) :=
  match ended.2 with
  | none => ended.1
  | some err => (onEnd entry (.error err) { ended.1 with running := false }).1

/-- A request by one of the entries, with the flag as it finds it. -/
def request (running : Bool) : PipelineState (List (Bool × ρ)) :=
  if running then (onEnd entry (.error (.receiver "already running")) ⟨true, []⟩).1
  else catchBlock entry (tryBlock env entry ⟨true, []⟩)

/-! ## What a request has to do -/

/-- The stages, with the two ways in which the search of providers can fail. -/
inductive Stage where
  | identify
  | buildMessages
  | contentIds
  | search
  | providers
  | receive
  | revert
  deriving DecidableEq

/-- The first stage that fails from the receiving one on. -/
def laterFailure (comparison : Comparison) (data : List (Option (List π) × List SyncReqMsg)) :
    Option Stage :=
  match tryReceiveAll env (transformMissingStatesListToMap comparison.missingList) data with
  | .ok _ =>
      match revertAll env 0 comparison.excessList with
      | .error _ => some .revert
      | .ok () => none
  | .error _ => some .receive

/-- The first stage that fails. -/
def firstFailure : Option Stage :=
  match env.identify with
  | .error _ => some .identify
  | .ok comparison =>
      match buildMissingStatesResult comparison.missingList with
      | .error _ => some .buildMessages
      | .ok missingStatesMsgsMap =>
          match Sync.contentIds env ((entries missingStatesMsgsMap).map (·.1)) with
          | .error _ => some .contentIds
          | .ok ecids =>
              match env.findProviders (ecids.map (·.2)) with
              | .error _ => some .search
              | .ok result =>
                  if result.isCompleteError || result.isErrors then some .providers
                  else laterFailure env comparison (receiveData missingStatesMsgsMap ecids result)

/-- The caller is told once, with an error exactly if a stage failed or a sync was running, and
the flag that the request set is released. -/
structure PipelineRight (running : Bool) : Prop where
  once : (request env entry running).calls.length = 1
  error : (∃ err, .error err ∈ (request env entry running).calls) ↔
    running = true ∨ firstFailure env ≠ none
  released : running = false → (request env entry running).running = false

/-- The request comes by `execute`, and neither of the early returns is reached. -/
def PipelineClear (running : Bool) : Prop :=
  entry = .execute ∧ (running = true ∨
    firstFailure env ≠ some .contentIds ∧ firstFailure env ≠ some .providers)

end

section

variable {π ρ : Type} {env : PipelineEnv π ρ}

/-- How a request by `execute` ends that found no sync running. -/
inductive Ends : Option Stage → PipelineState ρ → Prop where
  | done (results : Option ρ) : Ends none ⟨false, [.ok results]⟩
  | handled {stage : Stage} (err : SyncErr)
      (handler : stage ∈ [.identify, .buildMessages, .search, .receive, .revert]) :
      Ends (some stage) ⟨false, [.error err]⟩
  | returned {stage : Stage} (err : SyncErr) (early : stage ∈ [.contentIds, .providers]) :
      Ends (some stage) ⟨true, [.error err]⟩

/-- From the receiving stage on, a request by `execute` ends as the first failure says: the flag
is released behind the last stage, and by the handler. -/
theorem ends_receiveAndRevert (comparison : Comparison)
    (data : List (Option (List π) × List SyncReqMsg)) :
    Ends (laterFailure env comparison data)
      (catchBlock .execute (receiveAndRevert env .execute comparison data ⟨true, []⟩)) := by
  rw [laterFailure, receiveAndRevert]
  cases tryReceiveAll env (transformMissingStatesListToMap comparison.missingList) data with
  | error err => exact .handled (.exn .typeError) (by decide)
  | ok allResults =>
      simp only [revertAndEnd]
      cases revertAll env 0 comparison.excessList with
      | error err => exact .handled err (by decide)
      | ok done => exact .done allResults

/-- A request by `execute` ends as its first failure says. -/
theorem ends_execute (env : PipelineEnv π ρ) :
    Ends (firstFailure env) (request env .execute false) := by
  rw [request, if_neg (by nofun), tryBlock, firstFailure]
  cases env.identify with
  | error err => exact .handled err (by decide)
  | ok comparison =>
      simp only []
      cases buildMissingStatesResult comparison.missingList with
      | error exn => exact .handled (.exn exn) (by decide)
      | ok missingStatesMsgsMap =>
          simp only []
          cases contentIds env ((entries missingStatesMsgsMap).map (·.1)) with
          | error addrKey => exact .returned _ (by decide)
          | ok ecids =>
              simp only []
              cases env.findProviders (ecids.map (·.2)) with
              | error err => exact .handled err (by decide)
              | ok result =>
                  simp only []
                  split
                  · exact .returned _ (by decide)
                  · exact ends_receiveAndRevert comparison _

/-- Whatever happens in a block whose `onEnd` throws, there is no call. -/
theorem revertAndEnd_asyncExecute (excessList : List ExcessState)
    (allResults : Option (List (Bool × ρ))) (state : PipelineState (List (Bool × ρ))) :
    (revertAndEnd env .asyncExecute excessList allResults state).1.calls = state.calls ∧
      (revertAndEnd env .asyncExecute excessList allResults state).2 ≠ none := by
  rw [revertAndEnd]
  cases revertAll env 0 excessList <;> exact ⟨rfl, nofun⟩

theorem tryBlock_asyncExecute (env : PipelineEnv π ρ) (state : PipelineState (List (Bool × ρ))) :
    (tryBlock env .asyncExecute state).1.calls = state.calls ∧
      (tryBlock env .asyncExecute state).2 ≠ none := by
  rw [tryBlock]
  split
  · exact ⟨rfl, nofun⟩
  · split
    · exact ⟨rfl, nofun⟩
    · split
      · exact ⟨rfl, nofun⟩
      · split
        · exact ⟨rfl, nofun⟩
        · split
          · exact ⟨rfl, nofun⟩
          · rw [receiveAndRevert]
            split
            · exact revertAndEnd_asyncExecute _ _ _
            · exact ⟨rfl, nofun⟩

/-- A request by `asyncExecute` tells its caller nothing, but it releases the flag. -/
theorem request_asyncExecute (env : PipelineEnv π ρ) (running : Bool) :
    request env .asyncExecute running = ⟨running, []⟩ := by
  cases running with
  | true => rfl
  | false =>
      obtain ⟨calls, throws⟩ := tryBlock_asyncExecute env ⟨true, []⟩
      obtain ⟨err, thrown⟩ := Option.ne_none_iff_exists'.mp throws
      have caught : request env .asyncExecute false =
          ⟨false, (tryBlock env .asyncExecute ⟨true, []⟩).1.calls⟩ := by
        rw [request, if_neg (by nofun), catchBlock, thrown]
        rfl
      rw [caught, calls]

/-- What a request has to do that finds no sync running, read off from how it ends. -/
theorem Ends.right_iff {failure : Option Stage} {state : PipelineState ρ}
    (ends : Ends failure state) :
    (state.calls.length = 1 ∧ ((∃ err, .error err ∈ state.calls) ↔ failure ≠ none) ∧
      state.running = false) ↔
    (failure ≠ some .contentIds ∧ failure ≠ some .providers) := by
  cases ends with
  | done results =>
      refine iff_of_true ⟨rfl, iff_of_false ?_ fun some => some rfl, rfl⟩ ⟨nofun, nofun⟩
      rintro ⟨err, member⟩
      cases List.mem_singleton.mp member
  | handled err handler =>
      refine iff_of_true ⟨rfl, iff_of_true ⟨err, List.mem_singleton_self _⟩ nofun, rfl⟩ ?_
      revert handler
      rename_i stage
      cases stage <;> decide
  | returned err early =>
      refine iff_of_false (fun right => nomatch right.2.2) ?_
      revert early
      rename_i stage
      cases stage <;> decide

/-- A request meets what it has to do exactly if it is clear. -/
theorem pipelineRight_iff (env : PipelineEnv π ρ) (entry : Entry) (running : Bool) :
    PipelineRight env entry running ↔ PipelineClear env entry running := by
  cases entry with
  | asyncExecute =>
      refine iff_of_false (fun right => ?_) (fun clear => nomatch clear.1)
      have once := right.once
      rw [request_asyncExecute] at once
      cases once
  | execute =>
      cases running with
      | true =>
          refine iff_of_true ⟨rfl, iff_of_true ⟨_, List.mem_singleton_self _⟩ (.inl rfl), nofun⟩ ?_
          exact ⟨rfl, .inl rfl⟩
      | false =>
          have ends := (ends_execute env).right_iff
          constructor
          · intro right
            refine ⟨rfl, .inr (ends.mp ⟨right.once, ?_, right.released rfl⟩)⟩
            simpa using right.error
          · rintro ⟨-, impossible | clear⟩
            · cases impossible
            · obtain ⟨once, error, released⟩ := ends.mpr clear
              exact ⟨once, by simpa using error, fun _ => released⟩

/-! ## One sync after another -/

/-- A request comes when the one before it has ended; the state is the flag. -/
def pipelineStep (running : Bool) (label : PipelineEnv π ρ × Entry) : Bool :=
  (request label.1 label.2 running).running

/-- After clear requests the flag is released, so every one of them runs. -/
theorem released_run {labels : List (PipelineEnv π ρ × Entry)}
    (clear : Meets (fun running label => PipelineClear label.1 label.2 running) pipelineStep false
      labels) : run pipelineStep false labels = false := by
  refine @invariant_run _ _ _ pipelineStep (· = false) _ rfl ?_ _ clear
  rintro running ⟨env, entry⟩ rfl ⟨rfl, impossible | clear⟩
  · cases impossible
  · exact ((ends_execute env).right_iff.mpr clear).2.2

end

/-- A contract that misses its first delta. -/
def oneMissing : Comparison :=
  ⟨[⟨"aa", [⟨"0x01", 0⟩], some "0x02"⟩], []⟩

/-- The requests for that contract. -/
def oneRequests : List SyncReqMsg :=
  [.state ⟨"aa", 0, "0x01", 1, "0x01"⟩, .bcode ⟨"aa"⟩]

theorem buildMissingStatesResult_oneMissing :
    buildMissingStatesResult oneMissing.missingList = .ok [("aa", oneRequests)] := by
  have created : createP2PReqMsgsMap oneMissing.missingList =
      .ok [("aa", ⟨[.state ⟨"aa", 0, "0x01", 1, "0x01"⟩], some (.bcode ⟨"aa"⟩)⟩)] := by
    decide
  rw [buildMissingStatesResult, created]
  change Except.ok ((entries [_]).foldl _ []) = _
  rw [entries_singleton]
  rfl

/-- Stages for that contract: its address has a content id or not, the search of providers has
errors, and receiving fails. -/
def oneContract (ecid : Option String) (errored : List String) : PipelineEnv Unit Unit where
  identify := .ok oneMissing
  createFromSCAddress := fun _ => ecid
  findProviders := fun _ => .ok ⟨false, errored, []⟩
  trySyncReceive := fun _ _ _ _ => .error (.stage "no providers")
  updateDb := fun _ _ => .ok ()

/-- An address without a content id leaves the flag set, and so does an error in the search. An
error of the receiving stage is reported as another one. A request by `asyncExecute` is never
answered. -/
theorem request_oneContract :
    request (oneContract none []) .execute false =
      ⟨true, [.error (.receiver "error creating EngCid from aa")]⟩ ∧
    request (oneContract (some "bb") ["bb"]) .execute false =
      ⟨true, [.error (.receiver "some error finding providers !")]⟩ ∧
    request (oneContract (some "bb") []) .execute false = ⟨false, [.error (.exn .typeError)]⟩ ∧
    request (oneContract (some "bb") []) .asyncExecute false = ⟨false, []⟩ := by
  have keys : (entries [("aa", oneRequests)]).map (·.1) = ["aa"] := by
    rw [entries_singleton]
    rfl
  have identified : ∀ ecid errored, (oneContract ecid errored).identify = .ok oneMissing :=
    fun _ _ => rfl
  have blocked : ∀ ecid errored entry state, tryBlock (oneContract ecid errored) entry state =
      match contentIds (oneContract ecid errored) ["aa"] with
      | .error addrKey =>
          onEnd entry (.error (.receiver ("error creating EngCid from " ++ addrKey))) state
      | .ok ecids =>
          if (FindProviderResult.mk false errored
                ([] : List (String × List Unit))).isCompleteError ||
              (FindProviderResult.mk false errored
                ([] : List (String × List Unit))).isErrors then
            onEnd entry (.error (.receiver "some error finding providers !")) state
          else receiveAndRevert (oneContract ecid errored) entry oneMissing
            (receiveData [("aa", oneRequests)] ecids ⟨false, errored, []⟩) state := by
    intro ecid errored entry state
    rw [tryBlock]
    simp only [identified, buildMissingStatesResult_oneMissing, keys]
    rfl
  refine ⟨?_, ?_, ?_, ?_⟩
  · rw [request, if_neg (by nofun), blocked]
    rfl
  · rw [request, if_neg (by nofun), blocked]
    rfl
  · rw [request, if_neg (by nofun), blocked]
    rfl
  · rw [request, if_neg (by nofun), blocked]
    rfl

/-- So neither early return does what it has to, nor does `asyncExecute`. -/
theorem pipelineRight_wrong :
    ¬ PipelineRight (oneContract none []) .execute false ∧
    ¬ PipelineRight (oneContract (some "bb") ["bb"]) .execute false ∧
    ¬ PipelineRight (oneContract (some "bb") []) .asyncExecute false := by
  obtain ⟨noId, errored, -, silent⟩ := request_oneContract
  refine ⟨fun right => ?_, fun right => ?_, fun right => ?_⟩
  · have released := right.released rfl
    rw [noId] at released
    cases released
  · have released := right.released rfl
    rw [errored] at released
    cases released
  · have once := right.once
    rw [silent] at once
    cases once

end Sync
