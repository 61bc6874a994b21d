import EnigmaP2P.Tasks.Lifecycle

/-!
# Calls of the task manager that report an error

A call that runs alone is a run of the manager: its own label, and for each of its requests
that the database performs it or fails, and the callback of the request. Which of them fails
is the failure point of the call.

A call is rolled back if the pool and the record of its id are as they were before, whenever
it reports an error.
-/

namespace Tasks

open Js Common Transition ManagerState

/-- The request that fails. -/
inductive FailurePoint where
  | read
  | delete
  | put
  deriving DecidableEq

inductive ManagerCall where
  | onVerifyTask (taskId : String) (isVerified : Bool)
  | onFinishTask (taskResult : Result)
  | addOutsideResult (outsideTask : Option OutsideTask)
  deriving DecidableEq

namespace ManagerCall

/-- The id that the call is about. -/
def taskId : ManagerCall → Option String
  | onVerifyTask taskId _ => some taskId
  | onFinishTask taskResult => (keyOf taskResult.taskId).toOption
  | addOutsideResult outsideTask => outsideTask.map fun task => (StoredTask.outside task).key

def label : ManagerCall → ManagerLabel
  | onVerifyTask taskId isVerified => .onVerifyTask taskId isVerified
  | onFinishTask taskResult => .onFinishTask taskResult
  | addOutsideResult outsideTask => .addOutsideResult outsideTask

/-- The requests that the call makes, if it gets that far, and whether they fail. -/
def requests (call : ManagerCall) (failure : Option FailurePoint) : List Bool :=
  match call with
  | onVerifyTask .. | addOutsideResult _ => [failure = some .put]
  | onFinishTask _ => [failure = some .read, failure = some .delete, failure = some .put]

end ManagerCall

/-- The database performs the requests from a number on or fails, and calls back. -/
def requestLabels : Nat → List Bool → List ManagerLabel
  | _, [] => []
  | i, fails :: rest => .perform i fails :: .callback i :: requestLabels (i + 1) rest

/-- The call alone. Its first request gets the number of the requests so far. -/
def ManagerCall.labels (call : ManagerCall) (failure : Option FailurePoint)
    (state : ManagerState) : List ManagerLabel :=
  call.label :: requestLabels state.requests.length (call.requests failure)

variable (parse : String → Except Exn Json)

/-- The callback of a request calls back with an error. -/
def replyError (work : DbWork) (reply : DbReply) : Bool :=
  match work, reply with
  | .read .., .found record =>
      match deserializeTask parse record with
      | .ok none => true
      | _ => false
  | _, .failed => true
  | _, _ => false

/-- With the label a caller is told an error, or the promise of its call is rejected. -/
def stepError (state : ManagerState) : ManagerLabel → Bool
  | .onVerifyTask taskId isVerified =>
      match state.pool.lookup taskId with
      | none => isVerified && state.isUnverifiedInPool taskId
      | some ⟨_, task⟩ =>
          isVerified && !(serializeTask (.own task.setInProgressStatus)).isOk
  | .onFinishTask taskResult =>
      match keyOf taskResult.taskId with
      | .error _ => true
      | .ok id => state.isUnverifiedInPool id
  | .addOutsideResult outsideTask =>
      match outsideTask with
      | none => true
      | some task => !(serializeTask (.outside task)).isOk
  | .callback i =>
      match state.requests[i]? with
      | some ⟨work, .replied reply⟩ => replyError parse work reply
      | _ => false
  | _ => false

/-- An error is reported in a run. -/
def reportsError : ManagerState → List ManagerLabel → Bool
  | _, [] => false
  | state, label :: labels =>
      stepError parse state label || reportsError (managerStep parse state label) labels

/-- The pool, with the status of its tasks, and the record of the id. -/
structure AsBefore (taskId : Option String) (before after : ManagerState) : Prop where
  pool : after.pool = before.pool
  record : ∀ id ∈ taskId, after.db.lookup id = before.db.lookup id

/-- A call that reports an error leaves everything as it was. -/
def RolledBack (state : ManagerState) (call : ManagerCall) (failure : Option FailurePoint) : Prop :=
  let labels := call.labels failure state
  reportsError parse state labels = true →
    AsBefore call.taskId state (run (managerStep parse) state labels)

/-- The put of `onVerifyTask` does not fail, or the task is in progress already. The put of
`onFinishTask` does not fail, or it is not reached. -/
def CleanFailure (state : ManagerState) (call : ManagerCall) (failure : Option FailurePoint) :
    Prop :=
  failure = some .put →
    match call with
    | .onVerifyTask taskId isVerified => isVerified = true →
        ∀ entry ∈ state.pool.lookup taskId, entry.task.status = .str TaskStatus.inProgress
    | .onFinishTask taskResult => ∀ id, keyOf taskResult.taskId = .ok id →
        state.isUnverifiedInPool id = false → ∀ record ∈ state.db.lookup id, ∀ task,
          deserializeTask parse record = .ok (some task) →
            ∃ exn, serializeTask (task.setResult taskResult) = .error exn
    | .addOutsideResult _ => True

/-! ## The requests of a call -/

/-- What the database does with a request. -/
def replyTo (work : DbWork) (fails : Bool) (state : ManagerState) : ManagerState × DbReply :=
  if fails then (state, .failed) else performWork work state

variable {parse}

section

variable {state : ManagerState} {i : Nat} {work : DbWork}

@[simp] theorem setPhase_pool (phase : DbPhase) : (state.setPhase i phase).pool = state.pool := rfl

@[simp] theorem setPhase_db (phase : DbPhase) : (state.setPhase i phase).db = state.db := rfl

theorem performWork_requests : (performWork work state).1.requests = state.requests := by
  cases work with
  | read taskId result =>
      rw [performWork]
      split <;> rfl
  | _ => rfl

theorem replyTo_requests (fails : Bool) :
    (replyTo work fails state).1.requests = state.requests := by
  rw [replyTo]
  split
  · rfl
  · exact performWork_requests

/-- The state in which the callback of a request runs. -/
def served (state : ManagerState) (i : Nat) (work : DbWork) (fails : Bool) : ManagerState :=
  ((replyTo work fails state).1.setPhase i (.replied (replyTo work fails state).2)).setPhase i .over

@[simp] theorem served_pool (fails : Bool) :
    (served state i work fails).pool = (replyTo work fails state).1.pool := rfl

@[simp] theorem served_db (fails : Bool) :
    (served state i work fails).db = (replyTo work fails state).1.db := rfl

theorem served_length (fails : Bool) :
    (served state i work fails).requests.length = state.requests.length := by
  rw [served, setPhase, setPhase, List.length_modify, List.length_modify, replyTo_requests]

/-- The request is the last one, and nothing happened to it yet. -/
structure Asked (state : ManagerState) (i : Nat) (work : DbWork) : Prop where
  waits : state.requests[i]? = some ⟨work, .waiting⟩
  last : state.requests.length = i + 1

theorem asked_ask (length : state.requests.length = i) : Asked (state.ask work) i work where
  waits := length ▸ List.getElem?_concat_length
  last := by rw [ask, List.length_append, List.length_singleton, length]

/-- A request that waits is performed or fails, and its callback goes on. -/
theorem run_request (waits : state.requests[i]? = some ⟨work, .waiting⟩) (fails : Bool)
    (rest : List ManagerLabel) :
    run (managerStep parse) state (.perform i fails :: .callback i :: rest) =
      run (managerStep parse) (continueWork parse work (replyTo work fails state).2
        (served state i work fails)) rest ∧
    reportsError parse state (.perform i fails :: .callback i :: rest) =
      (replyError parse work (replyTo work fails state).2 ||
        reportsError parse (continueWork parse work (replyTo work fails state).2
          (served state i work fails)) rest) := by
  have performed : managerStep parse state (.perform i fails) =
      (replyTo work fails state).1.setPhase i (.replied (replyTo work fails state).2) := by
    rw [managerStep, waits, replyTo]
    cases fails <;> rfl
  have replied : (managerStep parse state (.perform i fails)).requests[i]? =
      some ⟨work, .replied (replyTo work fails state).2⟩ := by
    rw [performed, setPhase, List.getElem?_modify, replyTo_requests, waits]
    simp
  have continued : managerStep parse (managerStep parse state (.perform i fails)) (.callback i) =
      continueWork parse work (replyTo work fails state).2 (served state i work fails) := by
    rw [managerStep.eq_def]
    simp only [replied]
    rw [performed]
    rfl
  refine ⟨by rw [run_cons, run_cons, continued], ?_⟩
  rw [reportsError, reportsError, continued]
  simp only [stepError, replied, Bool.false_or]

/-- Requests that were never made do nothing. -/
theorem run_absent (absent : state.requests.length ≤ i) (fails : List Bool) :
    run (managerStep parse) state (requestLabels i fails) = state ∧
    reportsError parse state (requestLabels i fails) = false := by
  induction fails generalizing i with
  | nil => exact ⟨rfl, rfl⟩
  | cons first rest ih =>
      have missing := List.getElem?_eq_none absent
      have performed : managerStep parse state (.perform i first) = state := by
        rw [managerStep, missing]
      have continued : managerStep parse state (.callback i) = state := by
        rw [managerStep, missing]
      obtain ⟨ran, reported⟩ := ih (Nat.le_succ_of_le absent)
      rw [requestLabels, run_cons, run_cons, reportsError, reportsError, performed, continued, ran,
        reported]
      simp only [stepError, missing, Bool.false_or, and_self]

/-- The callback of a request makes no other one. -/
theorem run_stops (asked : Asked state i work) {fails : Bool} {after : ManagerState}
    (stops :
      continueWork parse work (replyTo work fails state).2 (served state i work fails) = after)
    (length : after.requests.length = (served state i work fails).requests.length)
    (rest : List Bool) :
    run (managerStep parse) state (requestLabels i (fails :: rest)) = after ∧
    reportsError parse state (requestLabels i (fails :: rest)) =
      replyError parse work (replyTo work fails state).2 := by
  have absent : after.requests.length ≤ i + 1 := by
    rw [length, served_length, asked.last]
  obtain ⟨ran, reported⟩ := @run_absent parse _ _ absent rest
  obtain ⟨ranFirst, reportedFirst⟩ :=
    @run_request parse _ _ _ asked.waits fails (requestLabels (i + 1) rest)
  rw [stops] at ranFirst reportedFirst
  rw [requestLabels, ranFirst, reportedFirst, ran, reported, Bool.or_false]
  exact ⟨rfl, rfl⟩

/-- The callback of a request makes another one. -/
theorem run_asks (asked : Asked state i work) {fails : Bool} {next : DbWork}
    (asks : continueWork parse work (replyTo work fails state).2 (served state i work fails) =
      (served state i work fails).ask next)
    (quiet : replyError parse work (replyTo work fails state).2 = false) (rest : List Bool) :
    Asked ((served state i work fails).ask next) (i + 1) next ∧
    run (managerStep parse) state (requestLabels i (fails :: rest)) =
      run (managerStep parse) ((served state i work fails).ask next) (requestLabels (i + 1) rest) ∧
    reportsError parse state (requestLabels i (fails :: rest)) =
      reportsError parse ((served state i work fails).ask next) (requestLabels (i + 1) rest) := by
  obtain ⟨ran, reported⟩ :=
    @run_request parse _ _ _ asked.waits fails (requestLabels (i + 1) rest)
  rw [asks] at ran reported
  rw [quiet, Bool.false_or] at reported
  exact ⟨asked_ask ((served_length fails).trans asked.last), ran, reported⟩

end

/-! ## The calls -/

section

variable {state : ManagerState}

/-- A call whose first step, run and report are known. -/
theorem rolledBack_iff {c : ManagerCall} {failure : Option FailurePoint}
    {first after : ManagerState} {here later : Bool}
    (made : managerStep parse state c.label = first)
    (stepped : stepError parse state c.label = here)
    (ran : run (managerStep parse) first
      (requestLabels state.requests.length (c.requests failure)) = after ∧
      reportsError parse first
        (requestLabels state.requests.length (c.requests failure)) = later) :
    RolledBack parse state c failure ↔
      ((here || later) = true → AsBefore c.taskId state after) := by
  obtain ⟨isAfter, isLater⟩ := ran
  subst made stepped isAfter isLater
  exact Iff.rfl

/-- A call that reports no error has nothing to roll back. -/
theorem rolledBack_of_silent {c : ManagerCall} {failure : Option FailurePoint}
    {first after : ManagerState} (made : managerStep parse state c.label = first)
    (stepped : stepError parse state c.label = false)
    (ran : run (managerStep parse) first
      (requestLabels state.requests.length (c.requests failure)) = after ∧
      reportsError parse first
        (requestLabels state.requests.length (c.requests failure)) = false) :
    RolledBack parse state c failure :=
  (rolledBack_iff made stepped ran).mpr fun isError => absurd isError Bool.false_ne_true

theorem AsBefore.of_same {taskId : Option String} {after : ManagerState}
    (pool : after.pool = state.pool) (db : after.db = state.db) : AsBefore taskId state after :=
  ⟨pool, fun _ _ => by rw [db]⟩

/-- Only a put of a task that was not in progress before leaves a change. -/
theorem rolledBack_onVerifyTask_iff (taskId : String) (isVerified : Bool)
    (failure : Option FailurePoint) :
    RolledBack parse state (.onVerifyTask taskId isVerified) failure ↔
      CleanFailure parse state (.onVerifyTask taskId isVerified) failure := by
  cases found : state.pool.lookup taskId with
  | none =>
      have made : managerStep parse state (.onVerifyTask taskId isVerified) = state := by
        rw [managerStep, onVerifyTask, found]
      refine iff_of_true ?_ fun _ _ entry isEntry => ?_
      · exact (rolledBack_iff (c := .onVerifyTask taskId isVerified) made rfl
          (run_absent (Nat.le_refl _) _)).mpr fun _ => .of_same rfl rfl
      · rw [found] at isEntry
        cases isEntry
  | some entry =>
      obtain ⟨serial, task⟩ := entry
      cases isVerified with
      | false =>
          have made : managerStep parse state (.onVerifyTask taskId false) =
              { state with settled := state.settled ++ [serial] } := by
            rw [managerStep, onVerifyTask, found]
            rfl
          refine iff_of_true ?_ fun _ verified => absurd verified Bool.false_ne_true
          exact (rolledBack_iff (c := .onVerifyTask taskId false) made rfl
            (run_absent (Nat.le_refl _) _)).mpr fun _ => .of_same rfl rfl
      | true =>
          obtain ⟨record, written⟩ := serializeTask_inProgress task
          have made : managerStep parse state (.onVerifyTask taskId true) = ({ state with
              pool := setField taskId ⟨serial, task.setInProgressStatus⟩ state.pool }).ask
                (.verify serial task.setInProgressStatus record) := by
            rw [managerStep, onVerifyTask, found]
            simp only [if_true, written]
          have asked : Asked (({ state with
              pool := setField taskId ⟨serial, task.setInProgressStatus⟩ state.pool }).ask
                (.verify serial task.setInProgressStatus record)) state.requests.length _ :=
            asked_ask rfl
          have quiet : stepError parse state (.onVerifyTask taskId true) = false := by
            rw [stepError, found]
            simp only [written, Except.isOk, Except.toBool, Bool.not_true, Bool.and_false]
          by_cases put : failure = some .put
          · have requests : (ManagerCall.onVerifyTask taskId true).requests failure = [true] := by
              rw [ManagerCall.requests, put]
              rfl
            have ran := @run_stops parse _ _ _ asked true _ rfl rfl []
            rw [← requests] at ran
            rw [rolledBack_iff (c := .onVerifyTask taskId true) made quiet ran]
            constructor
            · intro rolledBack _ _ entry isEntry
              rw [found] at isEntry
              cases isEntry
              have samePool : setField taskId ⟨serial, task.setInProgressStatus⟩ state.pool =
                  state.pool := (rolledBack rfl).pool
              have inPool := lookup_setField_self taskId
                (Pooled.mk serial task.setInProgressStatus) state.pool
              rw [samePool, found] at inPool
              exact congrArg (fun entry => entry.task.status) (Option.some.inj inPool)
            · intro clean _
              have isStatus : task.status = .str TaskStatus.inProgress := clean put rfl _ found
              have already : task.setInProgressStatus = task := by
                rw [OwnTask.setInProgressStatus, ← isStatus]
              refine .of_same ?_ rfl
              change setField taskId ⟨serial, task.setInProgressStatus⟩ state.pool = state.pool
              rw [already]
              exact setField_of_lookup found
          · have requests : (ManagerCall.onVerifyTask taskId true).requests failure = [false] := by
              rw [ManagerCall.requests, decide_eq_false put]
            have ran := @run_stops parse _ _ _ asked false _ rfl rfl []
            rw [← requests] at ran
            exact iff_of_true (rolledBack_of_silent made quiet ran) fun isPut => absurd isPut put

/-- `addOutsideResult` writes nothing before its only request. -/
theorem rolledBack_addOutsideResult (outsideTask : Option OutsideTask)
    (failure : Option FailurePoint) :
    RolledBack parse state (.addOutsideResult outsideTask) failure := by
  cases outsideTask with
  | none =>
      exact (rolledBack_iff (c := .addOutsideResult none) rfl rfl
        (run_absent (Nat.le_refl _) _)).mpr fun _ => .of_same rfl rfl
  | some task =>
      cases written : serializeTask (.outside task) with
      | error exn =>
          have made : managerStep parse state (.addOutsideResult (some task)) = state := by
            rw [managerStep, addOutsideResult, written]
          exact (rolledBack_iff (c := .addOutsideResult (some task)) made rfl
            (run_absent (Nat.le_refl _) _)).mpr fun _ => .of_same rfl rfl
      | ok record =>
          have made : managerStep parse state (.addOutsideResult (some task)) =
              state.ask (.outside task record) := by
            rw [managerStep, addOutsideResult, written]
          have asked : Asked (state.ask (.outside task record)) state.requests.length _ :=
            asked_ask rfl
          have quiet : stepError parse state (.addOutsideResult (some task)) = false := by
            simp only [stepError, written, Except.isOk, Except.toBool, Bool.not_true]
          have requests : (ManagerCall.addOutsideResult (some task)).requests failure =
              [decide (failure = some .put)] := rfl
          cases put : decide (failure = some .put) with
          | true =>
              have ran := @run_stops parse _ _ _ asked true _ rfl rfl []
              rw [put] at requests
              rw [← requests] at ran
              exact (rolledBack_iff (c := .addOutsideResult (some task)) made quiet ran).mpr
                fun _ => .of_same rfl rfl
          | false =>
              have ran := @run_stops parse _ _ _ asked false _ rfl rfl []
              rw [put] at requests
              rw [← requests] at ran
              exact rolledBack_of_silent (c := .addOutsideResult (some task)) made quiet ran

/-- The requests of `onFinishTask` after its read. -/
def finishRequests (failure : Option FailurePoint) : List Bool :=
  [failure = some .delete, failure = some .put]

/-- What `onFinishTask` does from its delete on is rolled back unless its put fails. -/
theorem erase_rolledBack_iff {before : ManagerState} {i : Nat} {id : String} {task : StoredTask}
    {result : Result} (asked : Asked state i (.erase id task result))
    (samePool : state.pool = before.pool) (sameDb : state.db = before.db) {record : Json}
    (found : before.db.lookup id = some record) (failure : Option FailurePoint) :
    (reportsError parse state (requestLabels i (finishRequests failure)) = true →
      AsBefore (some id) before
        (run (managerStep parse) state (requestLabels i (finishRequests failure)))) ↔
    (failure = some .put → ∃ exn, serializeTask (task.setResult result) = .error exn) := by
  by_cases delete : failure = some .delete
  · have ran := @run_stops parse _ _ _ asked true _ rfl rfl [decide (failure = some .put)]
    rw [finishRequests, decide_eq_true delete, ran.1]
    refine iff_of_true (fun _ => .of_same samePool sameDb) fun put => ?_
    rw [put] at delete
    cases delete
  · rw [finishRequests, decide_eq_false delete]
    cases written : serializeTask (task.setResult result) with
    | error exn =>
        have stops : continueWork parse (.erase id task result)
            (replyTo (.erase id task result) false state).2
            (served state i (.erase id task result) false) =
              served state i (.erase id task result) false := by
          simp only [replyTo, performWork, Bool.false_eq_true, if_false, continueWork, written]
        have ran := @run_stops parse _ _ _ asked false _ stops rfl [decide (failure = some .put)]
        rw [ran.2]
        exact iff_of_true (fun isError => absurd isError Bool.false_ne_true) fun _ => ⟨exn, rfl⟩
    | ok json =>
        have asks : continueWork parse (.erase id task result)
            (replyTo (.erase id task result) false state).2
            (served state i (.erase id task result) false) =
              (served state i (.erase id task result) false).ask
                (.store (task.setResult result) json) := by
          simp only [replyTo, performWork, Bool.false_eq_true, if_false, continueWork, written]
        obtain ⟨next, ran, reported⟩ := @run_asks parse _ _ _ asked false _ asks rfl
          [decide (failure = some .put)]
        rw [ran, reported]
        by_cases put : failure = some .put
        · have last := @run_stops parse _ _ _ next true _ rfl rfl []
          rw [decide_eq_true put, last.1, last.2]
          refine iff_of_false (fun rolledBack => ?_) (fun clean => ?_)
          · have same := (rolledBack rfl).record id rfl
            change (deleteField id state.db).lookup id = before.db.lookup id at same
            rw [lookup_deleteField_self, found] at same
            cases same
          · obtain ⟨exn, failed⟩ := clean put
            cases failed
        · have last := @run_stops parse _ _ _ next false _ rfl rfl []
          rw [decide_eq_false put, last.2]
          exact iff_of_true (fun isError => absurd isError Bool.false_ne_true)
            fun isPut => absurd isPut put

/-- A read changes nothing. -/
theorem replyTo_read (id : String) (result : Result) (fails : Bool) :
    (replyTo (.read id result) fails state).1 = state := by
  rw [replyTo]
  split
  · rfl
  · rw [performWork]
    split <;> rfl

/-- What `onFinishTask` does from its read on is rolled back unless its put fails. -/
theorem read_rolledBack_iff {before : ManagerState} {i : Nat} {id : String} {result : Result}
    (asked : Asked state i (.read id result)) (samePool : state.pool = before.pool)
    (sameDb : state.db = before.db) (failure : Option FailurePoint) :
    (reportsError parse state (requestLabels i (decide (failure = some .read) ::
        finishRequests failure)) = true →
      AsBefore (some id) before (run (managerStep parse) state
        (requestLabels i (decide (failure = some .read) :: finishRequests failure)))) ↔
    (failure = some .put → ∀ record ∈ before.db.lookup id, ∀ task,
      deserializeTask parse record = .ok (some task) →
        ∃ exn, serializeTask (task.setResult result) = .error exn) := by
  -- the callback makes no other request, so nothing is written
  have unwritten : ∀ fails, continueWork parse (.read id result)
      (replyTo (.read id result) fails state).2 (served state i (.read id result) fails) =
        served state i (.read id result) fails →
      AsBefore (some id) before (run (managerStep parse) state
        (requestLabels i (fails :: finishRequests failure))) := by
    intro fails stops
    rw [(run_stops asked stops rfl _).1]
    refine .of_same ?_ ?_
    · rw [served_pool, replyTo_read, samePool]
    · rw [served_db, replyTo_read, sameDb]
  by_cases read : failure = some .read
  · rw [decide_eq_true read]
    refine iff_of_true (fun _ => unwritten true rfl) fun put => ?_
    rw [put] at read
    cases read
  · rw [decide_eq_false read]
    cases found : before.db.lookup id with
    | none =>
        have reply : (replyTo (.read id result) false state).2 = .failed := by
          rw [replyTo, if_neg Bool.false_ne_true, performWork, sameDb, found]
        refine iff_of_true (fun _ => unwritten false ?_) fun _ record isRecord => ?_
        · rw [reply]
          rfl
        · cases isRecord
    | some record =>
        have reply : (replyTo (.read id result) false state).2 = .found record := by
          rw [replyTo, if_neg Bool.false_ne_true, performWork, sameDb, found]
        cases loads : deserializeTask parse record with
        | error exn =>
            refine iff_of_true (fun _ => unwritten false ?_) fun _ _ isRecord _ isTask => ?_
            · simp only [reply, continueWork, loads]
            · cases isRecord
              cases loads.symm.trans isTask
        | ok loaded =>
            cases loaded with
            | none =>
                refine iff_of_true (fun _ => unwritten false ?_) fun _ _ isRecord _ isTask => ?_
                · simp only [reply, continueWork, loads]
                · cases isRecord
                  cases loads.symm.trans isTask
            | some task =>
                have asks : continueWork parse (.read id result)
                    (replyTo (.read id result) false state).2
                    (served state i (.read id result) false) =
                      (served state i (.read id result) false).ask (.erase id task result) := by
                  simp only [reply, continueWork, loads]
                have quiet : replyError parse (.read id result)
                    (replyTo (.read id result) false state).2 = false := by
                  simp only [reply, replyError, loads]
                obtain ⟨next, ran, reported⟩ := run_asks asked asks quiet (finishRequests failure)
                have samePool' : (served state i (.read id result) false).pool = before.pool := by
                  rw [served_pool, replyTo_read, samePool]
                have sameDb' : (served state i (.read id result) false).db = before.db := by
                  rw [served_db, replyTo_read, sameDb]
                rw [ran, reported, erase_rolledBack_iff next samePool' sameDb' found]
                constructor
                · rintro clean put _ ⟨rfl⟩ other isTask
                  cases loads.symm.trans isTask
                  exact clean put
                · intro clean put
                  exact clean put record rfl task loads

/-- Only a put that fails after the delete leaves a change. -/
theorem rolledBack_onFinishTask_iff (taskResult : Result) (failure : Option FailurePoint) :
    RolledBack parse state (.onFinishTask taskResult) failure ↔
      CleanFailure parse state (.onFinishTask taskResult) failure := by
  cases isKey : keyOf taskResult.taskId with
  | error exn =>
      have made : managerStep parse state (.onFinishTask taskResult) = state := by
        rw [managerStep, onFinishTask, isKey]
      refine iff_of_true ?_ fun _ id isId => ?_
      · exact (rolledBack_iff (c := .onFinishTask taskResult) made rfl
          (run_absent (Nat.le_refl _) _)).mpr fun _ => .of_same rfl rfl
      · cases isKey.symm.trans isId
  | ok id =>
      by_cases inPool : state.isUnverifiedInPool id = true
      · have made : managerStep parse state (.onFinishTask taskResult) = state := by
          rw [managerStep, onFinishTask, isKey]
          exact if_pos inPool
        refine iff_of_true ?_ fun _ other isOther free => ?_
        · exact (rolledBack_iff (c := .onFinishTask taskResult) made rfl
            (run_absent (Nat.le_refl _) _)).mpr fun _ => .of_same rfl rfl
        · cases isKey.symm.trans isOther
          cases inPool.symm.trans free
      · have made : managerStep parse state (.onFinishTask taskResult) =
            state.ask (.read id taskResult) := by
          rw [managerStep, onFinishTask, isKey]
          exact if_neg inPool
        have quiet : stepError parse state (.onFinishTask taskResult) = false := by
          simp only [stepError, isKey, Bool.not_eq_true _ ▸ inPool]
        have isTaskId : (ManagerCall.onFinishTask taskResult).taskId = some id := by
          rw [ManagerCall.taskId, isKey]
          rfl
        have asked : Asked (state.ask (.read id taskResult)) state.requests.length _ :=
          asked_ask rfl
        rw [rolledBack_iff (c := .onFinishTask taskResult) made quiet ⟨rfl, rfl⟩, isTaskId]
        have reads := @read_rolledBack_iff parse _ state _ _ _ asked rfl rfl failure
        rw [Bool.false_or]
        refine reads.trans ?_
        have free : state.isUnverifiedInPool id = false := Bool.eq_false_iff.mpr inPool
        constructor
        · intro clean put other isOther _
          cases isKey.symm.trans isOther
          exact clean put
        · intro clean put
          exact clean put id isKey free

end

/-- From any state, a call with any failure point is rolled back exactly if the failure is
clean. -/
theorem rolledBack_iff_cleanFailure (parse : String → Except Exn Json) (state : ManagerState)
    (call : ManagerCall) (failure : Option FailurePoint) :
    RolledBack parse state call failure ↔ CleanFailure parse state call failure := by
  cases call with
  | onVerifyTask taskId isVerified => exact rolledBack_onVerifyTask_iff taskId isVerified failure
  | onFinishTask taskResult => exact rolledBack_onFinishTask_iff taskResult failure
  | addOutsideResult outsideTask =>
      exact iff_of_true (rolledBack_addOutsideResult outsideTask failure) fun _ => trivial

/-- A put that fails leaves a task in progress that is not stored, and a finished task without
its record. -/
theorem rolledBack_wrong :
    ¬ RolledBack noTexts (run (managerStep noTexts) (.initial [])
      [.addTaskUnverified (submission "01")]) (.onVerifyTask "aa" true) (some .put) ∧
    ¬ RolledBack noTexts (run (managerStep noTexts) (.initial []) verifiedRun)
      (.onFinishTask coreFailure) (some .put) := by
  constructor
  · intro rolledBack
    exact absurd (rolledBack (by decide)).pool (by decide)
  · intro rolledBack
    exact absurd ((rolledBack (by decide)).record "aa" rfl) (by decide)

end Tasks
