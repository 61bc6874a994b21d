import EnigmaP2P.Ethereum.Listeners
import Mathlib

/-!
# Timeouts of pending submissions

A listener for a submission has a block number. At the first block of an epoch every
listener is told about its timeout whose block is the timeout or more behind. A read that
finds the record of a task created should move the block of its listener to that of the
record, but it asks whether the id is `in` the array of pending ids, which is a question
about indexes. So the block stays that of the request.

The block from which a timeout should count (`base`) is an observation beside the state of
the verifier.
-/

namespace Ethereum

open Js Common Tasks Transition

/-- The state with the block from which the timeout of each listener should count. -/
structure Timed where
  state : VerifierState
  base : String → Option Nat

/-- The pending listeners, whose blocks are those of their requests. -/
def Timed.start (state : VerifierState) : Timed where
  state := state
  base := fun taskId => (state.submissions.listeners.lookup taskId).map (·.blockNumber)

/-- The task of a call whose read is due. -/
def readTask (state : VerifierState) (id : Nat) : Option String :=
  match state.submissions.calls[id]? with
  | some ⟨taskId, _, some .taskParams, _⟩ => some taskId
  | _ => none

/-- The blocks after a label: a read that finds the record created moves that of a listener. -/
def baseAfter (timed : Timed) : VerifierLabel → String → Option Nat
  | .submissionParams id (.ok params), taskId =>
      if readTask timed.state id = some taskId ∧ params.status = .recordCreated ∧
          (timed.state.submissions.listeners.lookup taskId).isSome then some params.blockNumber
      else timed.base taskId
  | _, taskId => timed.base taskId

def timedStep (verifier : Verifier) (timed : Timed) (label : VerifierLabel) : Timed :=
  ⟨verifierStep verifier timed.state label, baseAfter timed label⟩

/-- Reads that find a record created, and epochs. -/
def IsTimeoutLabel : VerifierLabel → Prop
  | .submissionParams _ (.ok params) => params.status = .recordCreated
  | .newEpoch _ => True
  | _ => False

/-- The first block of the epoch is the timeout or more after the block. -/
def Overdue (verifier : Verifier) (event : WorkerParams) (base : Nat) : Prop :=
  ∃ first, event.firstBlockNumber.value = some first ∧
    base + verifier.taskTimeoutInBlocks ≤ first

/-- The listener for a task is overdue, counted from where its timeout should count. -/
def Timed.Overdue (verifier : Verifier) (event : WorkerParams) (timed : Timed) (taskId : String) :
    Prop :=
  ∃ base, timed.base taskId = some base ∧ Ethereum.Overdue verifier event base

/-- An epoch tells exactly the overdue listeners that they timed out, and removes them. -/
structure TimesOut (verifier : Verifier) (event : WorkerParams) (timed after : Timed) : Prop where
  removed : ∀ taskId, timed.Overdue verifier event taskId →
    after.state.submissions.listeners.lookup taskId = none
  told : ∀ taskId listener call, timed.Overdue verifier event taskId →
    timed.state.submissions.listeners.lookup taskId = some listener →
    timed.state.submissions.calls[listener.owner]? = some call →
    after.state.submissions.calls[listener.owner]? = some { call with
      answer := call.answer.or (submissionAnswer verifier .newEpoch call.subject) }
  kept : ∀ taskId, ¬ timed.Overdue verifier event taskId →
    after.state.submissions.listeners.lookup taskId =
      timed.state.submissions.listeners.lookup taskId
  untold : ∀ id : Nat, (∀ taskId listener, timed.Overdue verifier event taskId →
      timed.state.submissions.listeners.lookup taskId = some listener → listener.owner ≠ id) →
    after.state.submissions.calls[id]? = timed.state.submissions.calls[id]?

/-- An epoch fires and removes what is overdue, and a read keeps every listener with its
callback. -/
def TimeoutRight (verifier : Verifier) (timed : Timed) (label : VerifierLabel) : Prop :=
  match label with
  | .newEpoch event => TimesOut verifier event timed (timedStep verifier timed label)
  | _ => ∀ taskId,
      ((timedStep verifier timed label).state.submissions.listeners.lookup taskId).map (·.owner) =
        (timed.state.submissions.listeners.lookup taskId).map (·.owner)

/-- A read finds a record in the block that the pending listener of its task has, or the id
of the task is an index, or another property, of the array of pending ids. -/
def CleanRead (timed : Timed) (label : VerifierLabel) : Prop :=
  match label with
  | .submissionParams id (.ok params) => ∀ taskId listener,
      readTask timed.state id = some taskId →
      timed.state.submissions.listeners.lookup taskId = some listener →
      listener.blockNumber = params.blockNumber ∨
        inArray taskId (allTaskIds timed.state.submissions.listeners).length = true
  | _ => True

/-! ## The loop of an epoch -/

section

variable {κ ρ α : Type} {expired : Nat → Bool} {timeout : κ → Option α} {board : Board κ ρ α}

/-- A listener that is fired is gone, and the others are not touched. -/
theorem fire_lookup (board : Board κ ρ α) (key other : String) (answer : κ → Option α) :
    (board.fire key answer).listeners.lookup other =
      if other = key then none else board.listeners.lookup other := by
  rw [Board.fire]
  split
  · rename_i missing
    split
    · rename_i same
      rw [same, missing]
    · rfl
  · exact lookup_deleteField key other board.listeners

/-- The loop removes the expired listeners among the ids. -/
theorem expire_lookup (taskIds : List String) (board : Board κ ρ α) (taskId : String) :
    (Board.expire expired timeout taskIds board).listeners.lookup taskId =
      if taskId ∈ taskIds ∧ (board.listeners.lookup taskId).any (expired ·.blockNumber) then none
      else board.listeners.lookup taskId := by
  induction taskIds generalizing board with
  | nil => simp [Board.expire]
  | cons first taskIds ih =>
      rw [Board.expire]
      split
      · rename_i isExpired
        rw [ih, fire_lookup]
        by_cases same : taskId = first
        · subst same
          simp [isExpired]
        · simp [same]
      · rename_i notExpired
        rw [ih]
        by_cases same : taskId = first
        · subst same
          simp [notExpired]
        · simp [same]

/-- A call that is told of a timeout. -/
def told (timeout : κ → Option α) (call : Call κ ρ α) : Call κ ρ α :=
  { call with answer := call.answer.or (timeout call.subject) }

theorem fire_calls {key : String} {listener : Listener Nat}
    (registered : board.listeners.lookup key = some listener) (i : Nat) :
    (board.fire key timeout).calls[i]? =
      (board.calls[i]?).map fun call => if listener.owner = i then told timeout call else call := by
  rw [Board.fire, registered]
  exact List.getElem?_modify _ _ _ _

/-- To be told a second time changes nothing. -/
theorem told_told (call : Call κ ρ α) : told timeout (told timeout call) = told timeout call := by
  cases answer : call.answer with
  | none =>
      rw [told, told, answer]
      cases timeout call.subject <;> rfl
  | some first =>
      rw [told, told, answer]
      rfl

/-- The call owns the listener for the task, which is expired. -/
def ownsExpired (expired : Nat → Bool) (board : Board κ ρ α) (i : Nat) (taskId : String) : Bool :=
  (board.listeners.lookup taskId).any fun listener =>
    expired listener.blockNumber && listener.owner == i

/-- A fired listener takes nothing from the calls that do not own it. -/
theorem ownsExpired_fire {key : String} {listener : Listener Nat}
    (registered : board.listeners.lookup key = some listener) {i : Nat}
    (foreign : listener.owner ≠ i) (taskId : String) :
    ownsExpired expired (board.fire key timeout) i taskId = ownsExpired expired board i taskId := by
  rw [ownsExpired, ownsExpired, fire_lookup]
  split
  · rename_i same
    rw [same, registered]
    simp [foreign]
  · rfl

/-- The loop tells the owners of the expired listeners among the ids. -/
theorem expire_calls (taskIds : List String) (board : Board κ ρ α) (i : Nat) :
    (Board.expire expired timeout taskIds board).calls[i]? =
      (board.calls[i]?).map fun call =>
        if taskIds.any (ownsExpired expired board i) then told timeout call else call := by
  induction taskIds generalizing board with
  | nil => simp [Board.expire]
  | cons first taskIds ih =>
      rw [Board.expire, List.any_cons]
      cases registered : board.listeners.lookup first with
      | none =>
          have notOwner : ownsExpired expired board i first = false := by
            rw [ownsExpired, registered]
            rfl
          rw [notOwner, Bool.false_or]
          exact ih board
      | some listener =>
          rw [Option.any_some]
          by_cases isOld : expired listener.blockNumber = true
          · rw [if_pos isOld, ih, fire_calls registered, Option.map_map]
            refine congrArg (fun change => (board.calls[i]?).map change) (funext fun call => ?_)
            rw [Function.comp_apply]
            by_cases own : listener.owner = i
            · have owns : ownsExpired expired board i first = true := by
                rw [ownsExpired, registered, Option.any_some, isOld, own]
                simp
              rw [owns, Bool.true_or, if_pos rfl, if_pos own, told_told, ite_self]
            · have notOwner : ownsExpired expired board i first = false := by
                rw [ownsExpired, registered, Option.any_some]
                simp [own]
              have same : ownsExpired expired (board.fire first timeout) i =
                  ownsExpired expired board i := funext (ownsExpired_fire registered own)
              rw [notOwner, Bool.false_or, if_neg own, same]
          · have notOwner : ownsExpired expired board i first = false := by
              rw [ownsExpired, registered, Option.any_some]
              simp [isOld]
            rw [if_neg isOld, notOwner, Bool.false_or]
            exact ih board

end

/-! ## Runs of reads and epochs -/

/-- Each pending listener has the block from which its timeout should count. -/
def Counts (timed : Timed) : Prop :=
  ∀ taskId listener, timed.state.submissions.listeners.lookup taskId = some listener →
    timed.base taskId = some listener.blockNumber

variable {verifier : Verifier} {timed : Timed}

theorem counts_start (state : VerifierState) : Counts (.start state) := by
  intro taskId listener registered
  exact congrArg (Option.map (·.blockNumber)) registered

theorem isExpired_iff {event : WorkerParams} {blockNumber : Nat} :
    isExpired verifier event blockNumber = true ↔ Overdue verifier event blockNumber := by
  rw [isExpired, Overdue]
  cases event.firstBlockNumber.value with
  | none => simp
  | some first =>
      simp
      omega

/-- An epoch whose event is not valid has no block, and nothing is overdue. -/
theorem not_overdue_of_invalid {event : WorkerParams} (invalid : validateWorkerParams event = false)
    (taskId : String) : ¬ timed.Overdue verifier event taskId := by
  have missing : event.firstBlockNumber = .missing := by
    rw [validateWorkerParams, decide_eq_false_iff_not, ne_eq, not_not] at invalid
    exact invalid
  rintro ⟨base, -, first, isFirst, -⟩
  rw [missing] at isFirst
  cases isFirst

/-- Where the blocks are right, an epoch does what it should. -/
theorem Counts.timesOut (counts : Counts timed) (event : WorkerParams) :
    TimesOut verifier event timed (timedStep verifier timed (.newEpoch event)) := by
  by_cases valid : validateWorkerParams event = true
  · have overdue : ∀ {taskId : String} {listener : Listener Nat},
        timed.state.submissions.listeners.lookup taskId = some listener →
        (timed.Overdue verifier event taskId ↔
          isExpired verifier event listener.blockNumber = true) := by
      intro taskId listener registered
      rw [isExpired_iff, Timed.Overdue, counts taskId listener registered]
      simp
    have listed : ∀ {taskId : String} {listener : Listener Nat},
        timed.state.submissions.listeners.lookup taskId = some listener →
        taskId ∈ allTaskIds timed.state.submissions.listeners := by
      intro taskId listener registered
      exact mem_allTaskIds.mpr (List.mem_map_of_mem (mem_of_lookup_eq_some registered))
    have submissions : (timedStep verifier timed (.newEpoch event)).state.submissions =
        timed.state.submissions.expire (isExpired verifier event)
          (submissionAnswer verifier .newEpoch) (allTaskIds timed.state.submissions.listeners) := by
      rw [timedStep, verifierStep, if_pos valid]
    refine ⟨?_, ?_, ?_, ?_⟩
    · intro taskId isOverdue
      rw [submissions, expire_lookup]
      cases registered : timed.state.submissions.listeners.lookup taskId with
      | none => exact ite_self _
      | some listener =>
          exact if_pos ⟨listed registered, (overdue registered).mp isOverdue⟩
    · intro taskId listener call isOverdue registered found
      have owns : (allTaskIds timed.state.submissions.listeners).any
          (ownsExpired (isExpired verifier event) timed.state.submissions listener.owner) =
            true := by
        refine List.any_eq_true.mpr ⟨taskId, listed registered, ?_⟩
        rw [ownsExpired, registered, Option.any_some, (overdue registered).mp isOverdue]
        simp
      rw [submissions, expire_calls, found, Option.map_some, if_pos owns]
      rfl
    · intro taskId notOverdue
      rw [submissions, expire_lookup]
      cases registered : timed.state.submissions.listeners.lookup taskId with
      | none => exact ite_self _
      | some listener =>
          exact if_neg fun isOld => notOverdue ((overdue registered).mpr isOld.2)
    · intro id foreign
      have noOwner : (allTaskIds timed.state.submissions.listeners).any
          (ownsExpired (isExpired verifier event) timed.state.submissions id) = false := by
        refine List.any_eq_false.mpr fun taskId _ owns => ?_
        obtain ⟨listener, registered, both⟩ := (Option.any_eq_true _ _).mp owns
        obtain ⟨isOld, owner⟩ := Bool.and_eq_true_iff.mp both
        exact foreign taskId listener ((overdue registered).mpr isOld) registered
          (beq_iff_eq.mp owner)
      rw [submissions, expire_calls, noOwner]
      exact Option.map_id'
  · have invalid := Bool.eq_false_of_not_eq_true valid
    have same : (timedStep verifier timed (.newEpoch event)).state = timed.state := by
      rw [timedStep, verifierStep, if_neg valid]
    refine ⟨?_, ?_, ?_, ?_⟩
    · intro taskId isOverdue
      exact absurd isOverdue (not_overdue_of_invalid invalid taskId)
    · intro taskId listener call isOverdue
      exact absurd isOverdue (not_overdue_of_invalid invalid taskId)
    · intro taskId _
      rw [same]
    · intro id _
      rw [same]

/-- What a read that finds the record created does to the listeners. -/
theorem submissionRead_created_lookup (id : Nat) (read : String) (blockNumber : Nat)
    (submissions : Board Submission SubmissionStage SubmissionVerdict) (taskId : String) :
    (submissionRead id read (.recordCreated blockNumber) submissions).listeners.lookup taskId =
      if read = taskId ∧ inArray read (allTaskIds submissions.listeners).length = true then
        (submissions.listeners.lookup taskId).map fun listener => ⟨blockNumber, listener.owner⟩
      else submissions.listeners.lookup taskId := by
  have unread : (submissions.setRead id none).listeners = submissions.listeners := rfl
  by_cases isIn : inArray read (allTaskIds submissions.listeners).length = true
  · cases registered : submissions.listeners.lookup read with
    | none =>
        simp only [submissionRead, unread, isIn, if_true, registered]
        by_cases same : taskId = read
        · subst same
          rw [if_pos ⟨rfl, trivial⟩, registered]
          exact lookup_deleteField_self _ _
        · rw [if_neg fun both => same both.1.symm]
          exact lookup_deleteField_ne same _
    | some listener =>
        simp only [submissionRead, unread, isIn, if_true, registered]
        by_cases same : taskId = read
        · subst same
          rw [if_pos ⟨rfl, trivial⟩, registered]
          exact lookup_setField_self _ _ _
        · rw [if_neg fun both => same both.1.symm]
          exact lookup_setField_ne same _ _
  · rw [if_neg fun both => isIn both.2]
    simp only [submissionRead, unread, isIn]
    rfl

/-- A read that finds the record created gives the listener of its task the block of the
record if the id of the task is `in` the array of ids, and changes no other listener. -/
theorem created_lookup {id : Nat} {params : TaskParams} (created : params.status = .recordCreated)
    (taskId : String) :
    (timedStep verifier timed
        (.submissionParams id (.ok params))).state.submissions.listeners.lookup
        taskId =
      if readTask timed.state id = some taskId ∧
          inArray taskId (allTaskIds timed.state.submissions.listeners).length = true then
        (timed.state.submissions.listeners.lookup taskId).map
          (fun listener => ⟨params.blockNumber, listener.owner⟩)
      else timed.state.submissions.listeners.lookup taskId := by
  change (submissionAnswered verifier id (.ok params)
    timed.state.submissions).listeners.lookup taskId = _
  rw [submissionAnswered.eq_def]
  split
  · rename_i read submission answer found
    have isRead : readTask timed.state id = some read := by
      rw [readTask, found]
    have noContract : needsContract (.ok params) submission.result = none := by
      simp [needsContract, created]
    have isCreated : verifyTaskSubmissionNow verifier.platform (.ok params) (.error "")
        submission.result submission.contractAddress submission.localTip =
          .recordCreated params.blockNumber := by
      simp [verifyTaskSubmissionNow, created]
    simp only [noContract, isCreated, submissionRead_created_lookup, isRead, Option.some.injEq]
    by_cases same : read = taskId
    · rw [same]
    · rw [if_neg fun both => same both.1, if_neg fun both => same both.1]
  · rename_i notDue
    have noRead : readTask timed.state id ≠ some taskId := by
      intro isRead
      rw [readTask] at isRead
      split at isRead
      · rename_i found
        exact notDue _ _ _ found
      · cases isRead
    rw [if_neg fun both => noRead both.1]

/-- Reads in the block of the listener and epochs keep the blocks right. -/
theorem Counts.step (counts : Counts timed) {label : VerifierLabel} (only : IsTimeoutLabel label)
    (clean : CleanRead timed label) : Counts (timedStep verifier timed label) := by
  intro taskId listener registered
  cases label with
  | submissionParams id answer =>
      cases answer with
      | error reason => cases only
      | ok params =>
          rw [created_lookup only] at registered
          change baseAfter timed (.submissionParams id (.ok params)) taskId = _
          rw [baseAfter]
          by_cases isRead : readTask timed.state id = some taskId
          · cases before : timed.state.submissions.listeners.lookup taskId with
            | none =>
                rw [before] at registered
                split at registered <;> cases registered
            | some owned =>
                rw [if_pos ⟨isRead, only, rfl⟩]
                rw [before] at registered
                split at registered
                · cases registered
                  rfl
                · rename_i notIn
                  cases registered
                  have inBlock := clean taskId listener isRead before
                  rw [inBlock.resolve_right fun isIn => notIn ⟨isRead, isIn⟩]
          · rw [if_neg fun both => isRead both.1] at registered ⊢
            exact counts taskId listener registered
  | newEpoch event =>
      have timesOut := @Counts.timesOut verifier timed counts event
      by_cases isOverdue : timed.Overdue verifier event taskId
      · cases (timesOut.removed taskId isOverdue).symm.trans registered
      · rw [timesOut.kept taskId isOverdue] at registered
        exact counts taskId listener registered
  | _ => cases only

theorem Counts.right (counts : Counts timed) {label : VerifierLabel} (only : IsTimeoutLabel label) :
    TimeoutRight verifier timed label := by
  cases label with
  | submissionParams id answer =>
      cases answer with
      | error reason => cases only
      | ok params =>
          intro taskId
          rw [created_lookup only]
          split
          · rw [Option.map_map]
            rfl
          · rfl
  | newEpoch event => exact counts.timesOut event
  | _ => cases only

/-- Every epoch fires and removes the overdue listeners, and no others, in every run whose
reads find records in the blocks that their listeners have. -/
theorem timeoutRight_run (verifier : Verifier) (start : VerifierState) {labels : List VerifierLabel}
    (only : ∀ label ∈ labels, IsTimeoutLabel label)
    (clean : Meets CleanRead (timedStep verifier) (.start start) labels) :
    Meets (TimeoutRight verifier) (timedStep verifier) (.start start) labels := by
  refine meets_of_invariant (counts_start start) ?_ ?_ (clean.and_all only)
  · intro timed label counts both
    exact counts.step both.2 both.1
  · intro timed label counts both
    exact counts.right both.2

/-- A text with a letter is no index. -/
theorem not_isArrayIndex {key : String} {c : Char} (member : c ∈ key.toList)
    (letter : c.isDigit = false) : isArrayIndex key = false := by
  rw [isArrayIndex]
  split
  · rename_i n _
    have notNumber : toString n ≠ key := by
      rintro rfl
      cases (isDigit_of_mem_toString member).symm.trans letter
    rw [decide_eq_false notNumber, Bool.false_and]
  · rfl

theorem isArrayIndex_repr {n : Nat} (bound : n < 4294967295) : isArrayIndex n.repr = true := by
  rw [isArrayIndex, Nat.toNat?_repr]
  exact Bool.and_eq_true_iff.mpr ⟨decide_eq_true rfl, decide_eq_true bound⟩

/-- A pending submission of a task, requested at block 10. -/
def pendingSubmission (taskId : String) : VerifierState where
  creations := .empty
  submissions := ⟨[⟨taskId, ⟨Result.ofFields .failed [("taskId", .str taskId)], "bb", none⟩,
    some .taskParams, none⟩], [(taskId, ⟨10, 0⟩)]⟩
  workerParamArray := []

/-- The record of the task was mined in a block. -/
def createdAt (blockNumber : Nat) : VerifierLabel :=
  .submissionParams 0 (.ok ⟨"", 0, blockNumber, .recordCreated, ""⟩)

def epochAt (first : Nat) : VerifierLabel :=
  .newEpoch ⟨.num first, 0, [], none⟩

/-- A record mined in block 20 is timed out in block 25, because the request was in block 10. -/
theorem timeoutRight_run_wrong : ¬ Meets (TimeoutRight openVerifier) (timedStep openVerifier)
    (.start (pendingSubmission "aa")) [createdAt 20, epochAt 25] := by
  rintro ⟨-, right, -⟩
  let read := timedStep openVerifier (.start (pendingSubmission "aa")) (createdAt 20)
  have registered : read.state.submissions.listeners.lookup "aa" = some ⟨10, 0⟩ := by
    have notIndex : isArrayIndex "aa" = false := not_isArrayIndex (c := 'a') (by decide) rfl
    have notIn : inArray "aa" (allTaskIds (pendingSubmission "aa").submissions.listeners).length =
        false := by
      rw [inArray, notIndex]
      decide
    refine (created_lookup rfl "aa").trans (if_neg ?_)
    rintro ⟨-, isIn⟩
    cases notIn.symm.trans isIn
  have notOverdue : ¬ read.Overdue openVerifier ⟨.num 25, 0, [], none⟩ "aa" := by
    rintro ⟨base, isBase, first, isFirst, late⟩
    cases isFirst
    cases isBase
    cases Nat.not_le_of_gt (show 25 < 20 + 10 by decide) late
  have removed :
      (timedStep openVerifier read (epochAt 25)).state.submissions.listeners.lookup "aa" =
      none := by
    have listed : "aa" ∈ allTaskIds read.state.submissions.listeners :=
      mem_allTaskIds.mpr (List.mem_map_of_mem (mem_of_lookup_eq_some registered))
    change (Board.expire _ _ (allTaskIds read.state.submissions.listeners)
      read.state.submissions).listeners.lookup "aa" = none
    rw [expire_lookup, if_pos]
    exact ⟨listed, by rw [registered]; decide⟩
  cases (removed.symm.trans (right.kept "aa" notOverdue)).trans registered

/-- The task whose id is the index 0 gets the block of its record, and is timed out in block 30. -/
theorem timeoutRight_run_index :
    Meets (TimeoutRight openVerifier) (timedStep openVerifier) (.start (pendingSubmission "0"))
      [createdAt 20, epochAt 25, epochAt 30] := by
  refine timeoutRight_run openVerifier (pendingSubmission "0") ?_ ⟨?_, trivial, trivial, trivial⟩
  · exact List.forall_mem_cons.mpr
      ⟨rfl, List.forall_mem_cons.mpr ⟨trivial, List.forall_mem_singleton.mpr trivial⟩⟩
  · rintro taskId listener isRead -
    cases isRead
    have length : (allTaskIds (pendingSubmission "0").submissions.listeners).length = 1 := by
      rw [allTaskIds, List.length_map]
      exact (entries_perm _).length_eq
    change _ ∨ inArray (Nat.repr 0)
      (allTaskIds (pendingSubmission "0").submissions.listeners).length = true
    rw [length, inArray, isArrayIndex_repr (by decide), Nat.toNat?_repr]
    exact .inr rfl

end Ethereum
