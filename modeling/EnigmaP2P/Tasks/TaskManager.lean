import EnigmaP2P.Common.Errors
import EnigmaP2P.Tasks.Records
import EnigmaP2P.Transition.Runs

/-!
# The task manager

Tasks wait for their verdict in a pool in memory and are stored in a database when they are
verified. Every call of the database is a request that the database performs at some time,
and whose callback runs at some later time, in any order with everything else.

Four fields of the state are observations: how many tasks were accepted, which of them were
announced as verified, for which the verdict is complete, and for every id the record that
was stored last since it was removed. A task is known by its number among the accepted ones.

The pool is a plain object, which also has the properties that every object inherits. Their
names count as ids in the pool, and no task is under them.
-/

namespace Tasks

open Js Common Transition

/-- The key of a task in the pool and in the database. -/
def StoredTask.key : StoredTask → String
  | .own task => orNull task.task.getTaskId
  | .outside task => orNull task.taskId

/-- `setResult` of any task. -/
def StoredTask.setResult (task : StoredTask) (result : Result) : StoredTask :=
  match task with
  | .own task => .own (task.setResult (some result))
  | .outside task => .outside (task.setResult result)

/-- An entry of the pool; the time is only read by `isKeepAlive`. -/
structure Pooled where
  serial : Nat
  task : OwnTask
  deriving DecidableEq

/-- A call of the database with what its callback goes on with. -/
inductive DbWork where
  /-- The put of `onVerifyTask`. -/
  | verify (serial : Nat) (task : OwnTask) (record : Json)
  /-- The get, the delete and the put of `onFinishTask`. -/
  | read (taskId : String) (result : Result)
  | erase (taskId : String) (task : StoredTask) (result : Result)
  | store (task : StoredTask) (record : Json)
  /-- The put of `addOutsideResult`. -/
  | outside (task : OutsideTask) (record : Json)
  /-- The delete of `removeTask`. -/
  | remove (taskId : String)
  deriving DecidableEq

def DbWork.key : DbWork → String
  | verify _ task _ => (StoredTask.own task).key
  | read taskId _ | erase taskId .. | remove taskId => taskId
  | store task _ => task.key
  | outside task _ => (StoredTask.outside task).key

inductive DbReply where
  | failed
  | done
  | found (record : Json)
  deriving DecidableEq

inductive DbPhase where
  | waiting
  | replied (reply : DbReply)
  | over
  deriving DecidableEq

structure DbRequest where
  work : DbWork
  phase : DbPhase
  deriving DecidableEq

structure ManagerState where
  pool : List (String × Pooled)
  db : List (String × Json)
  requests : List DbRequest
  accepted : Nat
  verified : List Nat
  settled : List Nat
  last : List (String × Json)
  deriving DecidableEq

namespace ManagerState

def initial (db : List (String × Json)) : ManagerState :=
  ⟨[], db, [], 0, [], [], db⟩

/-- `isUnverifiedInPool`; inherited properties are truthy. -/
def isUnverifiedInPool (state : ManagerState) (taskId : String) : Bool :=
  hasProperty taskId state.pool

/-- A call of the database. -/
def ask (state : ManagerState) (work : DbWork) : ManagerState :=
  { state with requests := state.requests ++ [⟨work, .waiting⟩] }

def setPhase (state : ManagerState) (i : Nat) (phase : DbPhase) : ManagerState :=
  { state with requests := state.requests.modify i ({ · with phase }) }

end ManagerState

open ManagerState

/-- The calls of the manager, and what the database does: it performs a request or fails,
and later the callback of the request runs. -/
inductive ManagerLabel where
  | addTaskUnverified (unverifiedTask : Option OwnTask)
  | onVerifyTask (taskId : String) (isVerified : Bool)
  | onFinishTask (taskResult : Result)
  | addOutsideResult (outsideTask : Option OutsideTask)
  | removeTask (taskId : String)
  | perform (i : Nat) (fails : Bool)
  | callback (i : Nat)
  deriving DecidableEq

/-- `addTaskUnverified` with `_isOkToAdd`; `none` is no task. -/
def addTaskUnverified (unverifiedTask : Option OwnTask) (state : ManagerState) : ManagerState :=
  match unverifiedTask with
  | none => state
  | some task =>
      let taskId := (StoredTask.own task).key
      if state.isUnverifiedInPool taskId then state
      else { state with
        pool := setField taskId ⟨state.accepted, task⟩ state.pool
        accepted := state.accepted + 1 }

/-- `onVerifyTask`. A task that is not verified stays in the pool. An inherited property has no
task: with a verdict that is verified the call throws, and otherwise it does nothing. -/
def onVerifyTask (taskId : String) (isVerified : Bool) (state : ManagerState) : ManagerState :=
  match state.pool.lookup taskId with
  | none => state
  | some ⟨serial, task⟩ =>
      if isVerified then
        let task := task.setInProgressStatus
        let state := { state with pool := setField taskId ⟨serial, task⟩ state.pool }
        match serializeTask (.own task) with
        | .error _ => state
        | .ok record => state.ask (.verify serial task record)
      else { state with settled := state.settled ++ [serial] }

/-- `onFinishTask` up to its read. -/
def onFinishTask (taskResult : Result) (state : ManagerState) : ManagerState :=
  match keyOf taskResult.taskId with
  | .error _ => state
  | .ok id => if state.isUnverifiedInPool id then state else state.ask (.read id taskResult)

/-- `addOutsideResult`; `none` is no outside task. -/
def addOutsideResult (outsideTask : Option OutsideTask) (state : ManagerState) : ManagerState :=
  match outsideTask with
  | none => state
  | some task =>
      match serializeTask (.outside task) with
      | .error _ => state
      | .ok record => state.ask (.outside task record)

/-- `removeTask`. -/
def removeTask (taskId : String) (state : ManagerState) : ManagerState :=
  ({ state with pool := deleteField taskId state.pool }).ask (.remove taskId)

/-- The database performs a request. -/
def performWork (work : DbWork) (state : ManagerState) : ManagerState × DbReply :=
  match work with
  | .verify _ _ record | .store _ record | .outside _ record =>
      ({ state with
        db := setField work.key record state.db
        last := setField work.key record state.last }, .done)
  | .read taskId _ =>
      match state.db.lookup taskId with
      | none => (state, .failed)
      | some record => (state, .found record)
  | .erase taskId .. => ({ state with db := deleteField taskId state.db }, .done)
  | .remove taskId =>
      ({ state with
        db := deleteField taskId state.db
        last := deleteField taskId state.last }, .done)

variable (parse : String → Except Exn Json)

/-- The callback of a request. Exceptions and errors end what it belongs to. -/
def continueWork (work : DbWork) (reply : DbReply) (state : ManagerState) : ManagerState :=
  match work, reply with
  | .verify serial _ _, .done =>
      { state with
        pool := deleteField work.key state.pool
        verified := state.verified ++ [serial]
        settled := state.settled ++ [serial] }
  | .read taskId result, .found record =>
      match deserializeTask parse record with
      | .ok (some task) => state.ask (.erase taskId task result)
      | _ => state
  | .erase _ task result, .done =>
      let task := task.setResult result
      match serializeTask task with
      | .error _ => state
      | .ok record => state.ask (.store task record)
  | _, _ => state

/-- One label. A request is performed once, and its callback runs once. -/
def managerStep (state : ManagerState) : ManagerLabel → ManagerState
  | .addTaskUnverified unverifiedTask => addTaskUnverified unverifiedTask state
  | .onVerifyTask taskId isVerified => onVerifyTask taskId isVerified state
  | .onFinishTask taskResult => onFinishTask taskResult state
  | .addOutsideResult outsideTask => addOutsideResult outsideTask state
  | .removeTask taskId => removeTask taskId state
  | .perform i fails =>
      match state.requests[i]? with
      | some ⟨work, .waiting⟩ =>
          if fails then state.setPhase i (.replied .failed)
          else
            let (state, reply) := performWork work state
            state.setPhase i (.replied reply)
      | _ => state
  | .callback i =>
      match state.requests[i]? with
      | some ⟨work, .replied reply⟩ => continueWork parse work reply (state.setPhase i .over)
      | _ => state

/-! ## Requests -/

/-- The request is not over. -/
def ManagerState.Active (state : ManagerState) (i : Nat) (work : DbWork) (phase : DbPhase) : Prop :=
  state.requests[i]? = some ⟨work, phase⟩ ∧ phase ≠ .over

section

variable {state : ManagerState} {i j : Nat} {work asked : DbWork} {phase : DbPhase}

theorem active_of_waiting (found : state.requests[i]? = some ⟨work, .waiting⟩) :
    state.Active i work .waiting :=
  ⟨found, nofun⟩

theorem active_of_replied {reply : DbReply}
    (found : state.requests[i]? = some ⟨work, .replied reply⟩) :
    state.Active i work (.replied reply) :=
  ⟨found, nofun⟩

/-- After a call, the requests are those before it and the new one. -/
theorem active_ask : (state.ask asked).Active i work phase ↔
    state.Active i work phase ∨ (i = state.requests.length ∧ work = asked ∧ phase = .waiting) := by
  simp only [Active, ask]
  rcases Nat.lt_trichotomy i state.requests.length with inside | rfl | outside
  · rw [List.getElem?_append_left inside]
    have differs : i ≠ state.requests.length := Nat.ne_of_lt inside
    simp only [differs, false_and, or_false]
  · rw [List.getElem?_concat_length, List.getElem?_eq_none (Nat.le_refl _)]
    constructor
    · rintro ⟨same, -⟩
      cases same
      exact .inr ⟨rfl, rfl, rfl⟩
    · rintro (⟨missing, -⟩ | ⟨-, rfl, rfl⟩)
      · cases missing
      · exact ⟨rfl, nofun⟩
  · have differs : i ≠ state.requests.length := Nat.ne_of_gt outside
    rw [List.getElem?_eq_none (by simp; omega), List.getElem?_eq_none (Nat.le_of_lt outside)]
    simp only [differs, false_and, or_false]

/-- A request that is active after another phase of one was so before, or is that one. -/
theorem of_active_setPhase {next : DbPhase} (active : (state.setPhase j next).Active i work phase) :
    (i ≠ j ∧ state.Active i work phase) ∨
    (i = j ∧ phase = next ∧ ∃ before, state.requests[j]? = some ⟨work, before⟩) := by
  obtain ⟨found, going⟩ := active
  rw [setPhase, List.getElem?_modify] at found
  obtain ⟨request, isRequest, changed⟩ := Option.map_eq_some_iff.mp found
  split at changed
  · rename_i same
    subst same
    cases changed
    exact .inr ⟨rfl, rfl, request.phase, isRequest⟩
  · rename_i differs
    subst changed
    exact .inl ⟨Ne.symm differs, isRequest, going⟩

/-- After a request is over, the active ones are the others. -/
theorem of_active_over (active : (state.setPhase j .over).Active i work phase) :
    i ≠ j ∧ state.Active i work phase := by
  rcases of_active_setPhase active with before | ⟨-, isOver, -⟩
  · exact before
  · exact absurd isOver active.2

end

/-! ## The pool and the verdicts -/

/-- The number of the task in the pool. -/
def serialAt (pool : List (String × Pooled)) (taskId : String) : Option Nat :=
  (pool.lookup taskId).map (·.serial)

/-- The pool has exactly the accepted tasks whose verdict is not complete. -/
def PoolPending (state : ManagerState) : Prop :=
  ∀ serial, (∃ taskId, serialAt state.pool taskId = some serial) ↔
    serial < state.accepted ∧ serial ∉ state.settled

/-- With this label a call of `onVerifyTask` for the id is complete and has no error. -/
def CompletesVerdict (state : ManagerState) (taskId : String) : ManagerLabel → Prop
  | .onVerifyTask taskId' isVerified =>
      taskId' = taskId ∧ (state.isUnverifiedInPool taskId = false ∨ isVerified = false)
  | .callback i => ∃ serial task record, (StoredTask.own task).key = taskId ∧
      state.requests[i]? = some ⟨.verify serial task record, .replied .done⟩
  | _ => False

/-- The id of a complete verdict is not in the pool, and the pool is what is pending. -/
structure VerdictsRight (state : ManagerState) (label : ManagerLabel) : Prop where
  gone : ∀ taskId, CompletesVerdict state taskId label →
    (managerStep parse state label).pool.lookup taskId = none
  pending : PoolPending (managerStep parse state label)

/-- Submissions, verdicts, and what the database does for them. -/
def IsVerdictLabel : ManagerLabel → Prop
  | .addTaskUnverified _ | .onVerifyTask .. | .perform .. | .callback _ => True
  | _ => False

/-- The verdict for a pooled task is that it is verified, and an earlier verdict for the id
is not being stored. -/
def CleanVerdict (state : ManagerState) : ManagerLabel → Prop
  | .onVerifyTask taskId isVerified => state.pool.lookup taskId ≠ none →
      isVerified = true ∧ ∀ i serial task record phase,
        state.Active i (.verify serial task record) phase → (StoredTask.own task).key ≠ taskId
  | _ => True

/-- The invariant: a request stores a task of the pool, and no two store one task. -/
structure VerdictInv (state : ManagerState) : Prop where
  pending : PoolPending state
  settledBelow : ∀ serial ∈ state.settled, serial < state.accepted
  keys : ∀ taskId entry, state.pool.lookup taskId = some entry →
    (StoredTask.own entry.task).key = taskId
  distinct : ∀ a b serial, serialAt state.pool a = some serial →
    serialAt state.pool b = some serial → a = b
  storing : ∀ i work phase, state.Active i work phase → ∃ serial task record,
    work = .verify serial task record ∧ serialAt state.pool work.key = some serial
  once : ∀ i j work other phase phase', state.Active i work phase →
    state.Active j other phase' → work.key = other.key → i = j

theorem not_active_initial {db : List (String × Json)} {i : Nat} {work : DbWork}
    {phase : DbPhase} : ¬ (ManagerState.initial db).Active i work phase := by
  rintro ⟨found, -⟩
  simp [ManagerState.initial] at found

theorem verdictInv_initial (db : List (String × Json)) : VerdictInv (.initial db) where
  pending := fun _ => iff_of_false (fun ⟨_, found⟩ => by cases found)
    (fun below => Nat.not_lt_zero _ below.1)
  settledBelow := nofun
  keys := by
    intro taskId entry found
    cases found
  distinct := by
    intro a b serial found
    cases found
  storing := fun _ _ _ active => absurd active not_active_initial
  once := fun _ _ _ _ _ _ active => absurd active not_active_initial

variable {parse}

section

variable {state : ManagerState}

theorem serialAt_setField (pool : List (String × Pooled)) (taskId other : String)
    (entry : Pooled) : serialAt (setField taskId entry pool) other =
      if other = taskId then some entry.serial else serialAt pool other := by
  simp only [serialAt, lookup_setField]
  split <;> rfl

theorem serialAt_deleteField (pool : List (String × Pooled)) (taskId other : String) :
    serialAt (deleteField taskId pool) other =
      if other = taskId then none else serialAt pool other := by
  simp only [serialAt, lookup_deleteField]
  split <;> rfl

/-- Whoever writes a pooled task under its own key keeps the keys right. -/
theorem keys_setField {taskId : String} {entry : Pooled}
    (keys : ∀ taskId entry, state.pool.lookup taskId = some entry →
      (StoredTask.own entry.task).key = taskId)
    (isKey : (StoredTask.own entry.task).key = taskId) :
    ∀ other found, (setField taskId entry state.pool).lookup other = some found →
      (StoredTask.own found.task).key = other := by
  intro other found isFound
  rw [lookup_setField] at isFound
  split at isFound
  · rename_i same
    cases isFound
    exact isKey.trans same.symm
  · exact keys other found isFound

/-- A task that is accepted is pending. -/
theorem VerdictInv.add (inv : VerdictInv state) (task : Option OwnTask) :
    VerdictInv (addTaskUnverified task state) := by
  cases task with
  | none => exact inv
  | some task =>
      rw [addTaskUnverified]
      split
      · exact inv
      · rename_i notPooled
        have free : serialAt state.pool (StoredTask.own task).key = none :=
          Option.map_eq_none_iff.mpr
            (lookup_of_hasProperty_eq_false (Bool.eq_false_iff.mpr notPooled))
        have below : ∀ taskId serial, serialAt state.pool taskId = some serial →
            serial < state.accepted := fun taskId serial found =>
          ((inv.pending serial).mp ⟨taskId, found⟩).1
        refine ⟨fun serial => ⟨?_, ?_⟩, ?_, keys_setField inv.keys rfl, ?_, ?_, inv.once⟩
        · rintro ⟨taskId, found⟩
          rw [serialAt_setField] at found
          split at found
          · cases found
            refine ⟨Nat.lt_succ_self _, fun settled => ?_⟩
            exact Nat.lt_irrefl _ (inv.settledBelow _ settled)
          · obtain ⟨isBelow, isPending⟩ := (inv.pending serial).mp ⟨taskId, found⟩
            exact ⟨Nat.lt_succ_of_lt isBelow, isPending⟩
        · rintro ⟨isBelow, isPending⟩
          rcases Nat.lt_succ_iff_lt_or_eq.mp isBelow with earlier | rfl
          · obtain ⟨taskId, found⟩ := (inv.pending serial).mpr ⟨earlier, isPending⟩
            refine ⟨taskId, ?_⟩
            rw [serialAt_setField, if_neg, found]
            rintro rfl
            cases free.symm.trans found
          · exact ⟨_, (serialAt_setField _ _ _ _).trans (if_pos rfl)⟩
        · exact fun serial settled => Nat.lt_succ_of_lt (inv.settledBelow serial settled)
        · intro a b serial first second
          rw [serialAt_setField] at first second
          split at first
          · cases first
            split at second
            · rename_i isA isB
              exact isA.trans isB.symm
            · exact absurd (below b _ second) (Nat.lt_irrefl _)
          · split at second
            · cases second
              exact absurd (below a _ first) (Nat.lt_irrefl _)
            · exact inv.distinct a b serial first second
        · intro i work phase active
          obtain ⟨serial, task', record, isVerify, found⟩ := inv.storing i work phase active
          refine ⟨serial, task', record, isVerify, ?_⟩
          rw [serialAt_setField, if_neg, found]
          intro same
          rw [same] at found
          cases free.symm.trans found

/-- The invariant depends on the numbers in the pool only, and fewer requests are no harm. -/
theorem VerdictInv.of_same_pool (inv : VerdictInv state) {after : ManagerState}
    (pool : after.pool = state.pool) (accepted : after.accepted = state.accepted)
    (settled : after.settled = state.settled)
    (active : ∀ i work phase, after.Active i work phase → ∃ before, state.Active i work before) :
    VerdictInv after := by
  constructor
  · rw [PoolPending, pool, accepted, settled]
    exact inv.pending
  · rw [accepted, settled]
    exact inv.settledBelow
  · rw [pool]
    exact inv.keys
  · rw [pool]
    exact inv.distinct
  · intro i work phase isActive
    obtain ⟨before, wasActive⟩ := active i work phase isActive
    rw [pool]
    exact inv.storing i work before wasActive
  · intro i j work other phase phase' first second sameKey
    obtain ⟨before, wasFirst⟩ := active i work phase first
    obtain ⟨before', wasSecond⟩ := active j other phase' second
    exact inv.once i j work other before before' wasFirst wasSecond sameKey

/-- A verdict that is stored: the task has its new status, and a request is made. -/
theorem VerdictInv.verdict (inv : VerdictInv state) {taskId : String} {isVerified : Bool}
    (clean : CleanVerdict state (.onVerifyTask taskId isVerified)) :
    VerdictInv (onVerifyTask taskId isVerified state) := by
  cases pooled : state.pool.lookup taskId with
  | none =>
      rw [onVerifyTask, pooled]
      exact inv
  | some entry =>
      obtain ⟨serial, task⟩ := entry
      obtain ⟨rfl, notStoring⟩ := clean (pooled ▸ Option.some_ne_none _)
      have isKey : (StoredTask.own task.setInProgressStatus).key = taskId :=
        inv.keys taskId ⟨serial, task⟩ pooled
      have here : serialAt state.pool taskId = some serial := by
        rw [serialAt, pooled]
        rfl
      have serials : ∀ other, serialAt
          (setField taskId ⟨serial, task.setInProgressStatus⟩ state.pool) other =
          serialAt state.pool other := by
        intro other
        rw [serialAt_setField]
        split
        · rename_i same
          rw [same, here]
        · rfl
      have written : VerdictInv { state with
          pool := setField taskId ⟨serial, task.setInProgressStatus⟩ state.pool } := by
        refine ⟨?_, inv.settledBelow, keys_setField inv.keys isKey, ?_, ?_, inv.once⟩
        · intro other
          simp only [serials]
          exact inv.pending other
        · simp only [serials]
          exact inv.distinct
        · simp only [serials]
          exact inv.storing
      rw [onVerifyTask, pooled]
      simp only [if_true]
      split
      · exact written
      · rename_i record _
        refine ⟨written.pending, written.settledBelow, written.keys, written.distinct, ?_, ?_⟩
        · intro i work phase active
          rcases active_ask.mp active with before | ⟨-, rfl, -⟩
          · exact written.storing i work phase before
          · refine ⟨serial, _, record, rfl, ?_⟩
            change serialAt (setField taskId _ state.pool) (StoredTask.own _).key = _
            rw [serials, isKey, here]
        · have differs : ∀ i work phase, state.Active i work phase → work.key ≠ taskId := by
            intro i work phase active
            obtain ⟨serial', task', record', rfl, -⟩ := inv.storing i work phase active
            exact notStoring i serial' task' record' phase active
          intro i j work other phase phase' first second sameKey
          rcases active_ask.mp first with before | ⟨atEnd, rfl, -⟩
          · rcases active_ask.mp second with before' | ⟨-, rfl, -⟩
            · exact inv.once i j work other phase phase' before before' sameKey
            · exact absurd (sameKey.trans isKey) (differs i work phase before)
          · rcases active_ask.mp second with before' | ⟨atEnd', rfl, -⟩
            · exact absurd (sameKey.symm.trans isKey) (differs j other phase' before')
            · exact atEnd.trans atEnd'.symm

/-- A request of a verdict that is performed or fails. -/
theorem VerdictInv.perform (inv : VerdictInv state) (i : Nat) (fails : Bool) :
    VerdictInv (managerStep parse state (.perform i fails)) := by
  rw [managerStep]
  split
  · rename_i work found
    have going : state.Active i work .waiting := active_of_waiting found
    have same : ∀ (performed : ManagerState) (reply : DbReply),
        performed.requests = state.requests → performed.pool = state.pool →
        performed.accepted = state.accepted → performed.settled = state.settled →
        VerdictInv (performed.setPhase i (.replied reply)) := by
      intro performed reply requests pool accepted settled
      refine inv.of_same_pool pool accepted settled fun j other phase active => ?_
      obtain ⟨-, before, going⟩ | ⟨rfl, -, before, isWork⟩ := of_active_setPhase active
      · exact ⟨phase, requests ▸ before, going⟩
      · rw [requests, found] at isWork
        cases isWork
        exact ⟨.waiting, going⟩
    split
    · exact same state .failed rfl rfl rfl rfl
    · obtain ⟨serial, task, record, rfl, -⟩ := inv.storing i work .waiting going
      exact same _ .done rfl rfl rfl rfl
  · exact inv

/-- The callback of a verdict that is stored takes its task out of the pool. -/
theorem VerdictInv.callback (inv : VerdictInv state) (i : Nat) :
    VerdictInv (managerStep parse state (.callback i)) := by
  rw [managerStep]
  split
  · rename_i work reply found
    have going : state.Active i work (.replied reply) := active_of_replied found
    have ended : VerdictInv (state.setPhase i .over) :=
      inv.of_same_pool rfl rfl rfl fun _ _ phase active => ⟨phase, (of_active_over active).2⟩
    obtain ⟨serial, task, record, rfl, here⟩ := inv.storing i work _ going
    cases reply with
    | failed => exact ended
    | found record => exact ended
    | done =>
        have inPool : ∀ taskId other,
            serialAt (deleteField (StoredTask.own task).key state.pool) taskId = some other ↔
            serialAt state.pool taskId = some other ∧ other ≠ serial := by
          intro taskId other
          rw [serialAt_deleteField]
          split
          · rename_i same
            refine iff_of_false nofun ?_
            rintro ⟨isOther, differs⟩
            rw [same] at isOther
            exact differs (Option.some.inj (isOther.symm.trans here))
          · rename_i differs
            refine ⟨fun isOther => ⟨isOther, ?_⟩, fun both => both.1⟩
            rintro rfl
            exact differs (inv.distinct taskId _ other isOther here)
        constructor
        · intro other
          simp only [continueWork, setPhase]
          rw [List.mem_append, List.mem_singleton, not_or, ← and_assoc, ← inv.pending other]
          constructor
          · rintro ⟨taskId, isOther⟩
            obtain ⟨isOther, differs⟩ := (inPool taskId other).mp isOther
            exact ⟨⟨taskId, isOther⟩, differs⟩
          · rintro ⟨⟨taskId, isOther⟩, differs⟩
            exact ⟨taskId, (inPool taskId other).mpr ⟨isOther, differs⟩⟩
        · intro other isSettled
          rcases List.mem_append.mp isSettled with before | now
          · exact inv.settledBelow other before
          · cases List.mem_singleton.mp now
            exact ((inv.pending serial).mp ⟨_, here⟩).1
        · intro taskId entry isEntry
          simp only [continueWork, setPhase, lookup_deleteField] at isEntry
          split at isEntry
          · cases isEntry
          · exact inv.keys taskId entry isEntry
        · intro a b other first second
          exact inv.distinct a b other ((inPool a other).mp first).1 ((inPool b other).mp second).1
        · intro j other phase active
          obtain ⟨differs, before⟩ := of_active_over active
          obtain ⟨serial', task', record', rfl, there⟩ := inv.storing j other phase before
          refine ⟨serial', task', record', rfl, (inPool _ _).mpr ⟨there, ?_⟩⟩
          rintro rfl
          have sameKey := inv.distinct _ _ _ there here
          exact differs (inv.once j i _ _ _ _ before going sameKey)
        · intro j k work' other phase phase' first second
          exact inv.once j k work' other phase phase' (of_active_over first).2
            (of_active_over second).2
  · exact inv

theorem VerdictInv.step (inv : VerdictInv state) {label : ManagerLabel}
    (clean : CleanVerdict state label) (isVerdict : IsVerdictLabel label) :
    VerdictInv (managerStep parse state label) := by
  cases label with
  | addTaskUnverified task => exact inv.add task
  | onVerifyTask taskId isVerified => exact inv.verdict clean
  | perform i fails => exact inv.perform i fails
  | callback i => exact inv.callback i
  | onFinishTask taskResult => cases isVerdict
  | addOutsideResult outsideTask => cases isVerdict
  | removeTask taskId => cases isVerdict

/-- A verdict that is complete without error has taken its id out of the pool. -/
theorem gone_of_completes {label : ManagerLabel} (clean : CleanVerdict state label)
    {taskId : String} (completes : CompletesVerdict state taskId label) :
    (managerStep parse state label).pool.lookup taskId = none := by
  cases label with
  | onVerifyTask taskId' isVerified =>
      obtain ⟨rfl, complete⟩ := completes
      have notPooled : state.pool.lookup taskId' = none := by
        rcases complete with notPooled | rejected
        · exact lookup_of_hasProperty_eq_false notPooled
        · by_contra pooled
          exact absurd (clean pooled).1 (by rw [rejected]; decide)
      rw [managerStep, onVerifyTask, notPooled]
      exact notPooled
  | callback i =>
      obtain ⟨serial, task, record, rfl, found⟩ := completes
      rw [managerStep, found]
      exact lookup_deleteField_self _ _
  | addTaskUnverified task => cases completes
  | perform i fails => cases completes
  | onFinishTask taskResult => cases completes
  | addOutsideResult outsideTask => cases completes
  | removeTask taskId => cases completes

end

/-- In a run of submissions and verdicts in which every verdict for a pooled task is that it
is verified, and comes once, the id of a complete verdict has left the pool, and the pool is
what is pending. -/
theorem verdictsRight_run (db : List (String × Json)) {passed : List ManagerLabel}
    {label : ManagerLabel} (verdicts : ∀ other ∈ passed ++ [label], IsVerdictLabel other)
    (clean : Meets CleanVerdict (managerStep parse) (.initial db) (passed ++ [label])) :
    VerdictsRight parse (run (managerStep parse) (.initial db) passed) label := by
  have both := clean.and_all verdicts
  have inv : VerdictInv (run (managerStep parse) (.initial db) passed) :=
    invariant_run (verdictInv_initial db)
      (fun _ _ inv condition => inv.step condition.1 condition.2) both.of_append
  obtain ⟨cleanLast, isVerdict⟩ := both.last
  exact ⟨fun _ => gone_of_completes cleanLast, (inv.step cleanLast isVerdict).pending⟩

/-- A deployment that is submitted. -/
def submission (preCode : String) : OwnTask :=
  { deploymentOf preCode with status := .str TaskStatus.unverified }

/-- A rejected task stays in the pool, and another task with its id is refused. -/
theorem rejected_blocks :
    ¬ VerdictsRight noTexts (run (managerStep noTexts) (.initial [])
        [.addTaskUnverified (submission "02")]) (.onVerifyTask "aa" false) ∧
    (run (managerStep noTexts) (.initial [])
      [.addTaskUnverified (submission "02"), .onVerifyTask "aa" false,
        .addTaskUnverified (submission "01")]).accepted = 1 := by
  refine ⟨?_, by decide⟩
  rintro ⟨gone, -⟩
  exact absurd (gone "aa" ⟨rfl, .inr rfl⟩) (by decide)

/-- A task that is verified, stored and announced. -/
theorem verdictsRight_run_verified :
    VerdictsRight noTexts (run (managerStep noTexts) (.initial [])
      [.addTaskUnverified (submission "01"), .onVerifyTask "aa" true, .perform 0 false])
      (.callback 0) := by
  refine verdictsRight_run [] ?_ ⟨trivial, fun _ => ⟨rfl, ?_⟩, trivial, trivial, trivial⟩
  · simp [IsVerdictLabel]
  · rintro i serial task record phase ⟨found, -⟩
    have asked : (managerStep noTexts (.initial [])
        (.addTaskUnverified (submission "01"))).requests = [] := by decide
    rw [asked] at found
    cases found

end Tasks
