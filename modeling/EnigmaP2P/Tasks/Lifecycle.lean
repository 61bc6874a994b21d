import EnigmaP2P.Tasks.TaskManager

/-!
# The life of a task id

Over all interleavings of calls, database requests and callbacks: an id that is in the pool
or in the database is not accepted, a task is announced as verified once, and the record of
an id goes from in progress to finished and keeps its result. The manager itself checks the
pool only. The conditions on the calls are those under which the rest holds too: an id with
a record is not submitted again, and while an id is being stored or finished nothing else
stores or finishes it.

Two invariants are independent of each other, one about the numbers of the tasks and one
about the records.
-/

namespace Tasks

open Js Common Transition ManagerState

/-! ## Records -/

/-- How far a status is: not verified, in progress, finished. A record without status is
that of a failure in Ethereum. -/
def statusRank (status : Option Json) : Nat :=
  if status = some (.str TaskStatus.unverified) then 0
  else if status = some (.str TaskStatus.inProgress) then 1
  else 2

def recordRank (record : Json) : Nat :=
  statusRank (record.get? "status")

/-- A record that may be stored after another one: the status does not regress, and a
finished record keeps its result. -/
def Follows (old new : Json) : Prop :=
  recordRank old ≤ recordRank new ∧ (recordRank old = 2 → new.get? "result" = old.get? "result")

theorem follows_of_unfinished {old new : Json} (unfinished : recordRank old ≤ 1)
    (rank : recordRank old ≤ recordRank new) : Follows old new :=
  ⟨rank, fun finished => by omega⟩

theorem follows_refl (record : Json) : Follows record record := ⟨Nat.le_refl _, fun _ => rfl⟩

theorem statusRank_le (status : Option Json) : statusRank status ≤ 2 := by
  rw [statusRank]
  split
  · exact Nat.zero_le 2
  · split <;> decide

/-- The status in the record of a deployment or computation. -/
theorem rank_of_serializeTask {task : OwnTask} {record : Json}
    (serialized : serializeTask (.own task) = .ok record) :
    recordRank record = statusRank (some task.status) := by
  have status : ∀ tail, (definedFields (task.dbFields ++ tail)).get? "status" =
      some task.status := by
    intro tail
    rw [OwnTask.dbFields, List.append_assoc, List.append_assoc, List.cons_append,
      get?_definedFields_cons]
    rfl
  rw [serializeTask, OwnTask.toDbJson] at serialized
  rw [recordRank]
  split at serialized
  · split at serialized
    · cases serialized
    · cases serialized
      rw [status]
  · cases serialized
    have plain := status []
    rw [List.append_nil] at plain
    rw [plain]

/-- A result finishes a task or is ignored. -/
theorem rank_setResult (task : OwnTask) (result : Option Result) :
    statusRank (some task.status) ≤ statusRank (some (task.setResult result).status) := by
  cases result with
  | none => exact Nat.le_refl _
  | some result =>
      rw [OwnTask.setResult]
      split
      · refine Nat.le_trans (statusRank_le _) (Nat.le_of_eq ?_)
        cases result.isSuccess <;> rfl
      · exact Nat.le_refl _

/-- A task is loaded with the status of its record, or finished. -/
theorem rank_of_loadTask {parse : String → Except Exn Json}
    {build : List (String × Json) → Option Task} {cls : Option Json → ResultClass}
    {fields : List (String × Json)} {loaded : OwnTask}
    (loads : loadTask parse build cls fields = .ok (some loaded)) :
    statusRank (fields.lookup "status") ≤ statusRank (some loaded.status) := by
  rw [loadTask] at loads
  split at loads
  · rename_i isStatus
    obtain ⟨status, hasStatus⟩ : ∃ status, fields.lookup "status" = some status := by
      cases hasStatus : fields.lookup "status" with
      | none => rw [hasStatus] at isStatus; cases isStatus
      | some status => exact ⟨status, rfl⟩
    rw [hasStatus] at loads ⊢
    split at loads
    · cases loads
    · rename_i task built
      simp only [] at loads
      split at loads
      · obtain ⟨result, -, loads⟩ := bind_eq_ok.mp loads
        cases loads
        exact rank_setResult ⟨task, status, none⟩ _
      · cases loads
        exact Nat.le_refl _
  · cases loads

/-- What is stored for a deployment or computation that is finished has at least the status
that its record had. -/
theorem rank_of_finished {parse : String → Except Exn Json} {record new : Json} {task : OwnTask}
    (loads : deserializeTask parse record = .ok (some (.own task))) {result : Result}
    (serialized : serializeTask ((StoredTask.own task).setResult result) = .ok new) :
    recordRank record ≤ recordRank new := by
  rw [rank_of_serializeTask serialized]
  refine Nat.le_trans ?_ (rank_setResult task (some result))
  cases record with
  | obj fields =>
      rw [deserializeTask] at loads
      split at loads
      · obtain ⟨loaded, -, isOwn⟩ := bind_eq_ok.mp loads
        cases loaded <;> cases isOwn
      · split at loads
        all_goals
          obtain ⟨loaded, isLoaded, isOwn⟩ := bind_eq_ok.mp loads
          cases loaded with
          | none => cases isOwn
          | some loaded =>
              cases isOwn
              exact rank_of_loadTask isLoaded
  | _ => cases loads

variable (parse : String → Except Exn Json)

/-! ## What should hold, and when -/

/-- The label performs the delete of `removeTask`. -/
def Removes (state : ManagerState) (taskId : String) (label : ManagerLabel) : Prop :=
  ∃ i, label = .perform i false ∧ state.requests[i]? = some ⟨.remove taskId, .waiting⟩

/-- What a label does to the ids. -/
structure LifeRight (state : ManagerState) (label : ManagerLabel) : Prop where
  accepts : ∀ task, label = .addTaskUnverified (some task) →
    (managerStep parse state label).accepted ≠ state.accepted →
      state.pool.lookup (StoredTask.own task).key = none ∧
      state.db.lookup (StoredTask.own task).key = none
  verifiedOnce : (managerStep parse state label).verified.Nodup
  follows : ∀ taskId old, state.last.lookup taskId = some old →
    (∃ new, (managerStep parse state label).last.lookup taskId = some new ∧ Follows old new) ∨
    Removes state taskId label

/-- Whatever is in flight for the id removes it. -/
def Quiet (state : ManagerState) (taskId : String) : Prop :=
  ∀ i work phase, state.Active i work phase → work.key = taskId → work = .remove taskId

/-- A record that may be finished: if it is loaded, it is not finished yet and belongs to a
deployment or computation with this id. -/
def Finishable (taskId : String) (record : Json) : Prop :=
  ∀ task, deserializeTask parse record = .ok (some task) →
    recordRank record ≤ 1 ∧ task.key = taskId ∧ ∃ own, task = .own own

/-- An accepted task has no record. A verdict, a result of the core and an outside result
come for an id with nothing else in flight than its removal. A verdict is stored for an id
whose last record is not finished, what is finished may be finished, and an outside result
follows the last record. -/
def CleanManagerLabel (state : ManagerState) : ManagerLabel → Prop
  | .addTaskUnverified task => ∀ task' ∈ task,
      state.pool.lookup (StoredTask.own task').key = none →
        state.db.lookup (StoredTask.own task').key = none
  | .onVerifyTask taskId isVerified => isVerified = true → state.pool.lookup taskId ≠ none →
      Quiet state taskId ∧ ∀ old ∈ state.last.lookup taskId, recordRank old ≤ 1
  | .onFinishTask taskResult => ∀ taskId, keyOf taskResult.taskId = .ok taskId →
      state.pool.lookup taskId = none →
        Quiet state taskId ∧ ∀ record ∈ state.db.lookup taskId, Finishable parse taskId record
  | .addOutsideResult task => ∀ task' ∈ task, ∀ record,
      serializeTask (.outside task') = .ok record →
        Quiet state (StoredTask.outside task').key ∧
        ∀ old ∈ state.last.lookup (StoredTask.outside task').key, Follows old record
  | _ => True

variable {parse}

/-! ## The numbers of the tasks -/

/-- The number of the task whose verdict is stored. -/
def DbWork.serial? : DbWork → Option Nat
  | .verify serial .. => some serial
  | _ => none

/-- A number in the pool or in a verdict that is being stored was given out and has not been
announced, and a verdict that is being stored is the only one for its number. -/
structure SerialInv (state : ManagerState) : Prop where
  pooled : ∀ taskId serial, serialAt state.pool taskId = some serial →
    serial < state.accepted ∧ serial ∉ state.verified
  keys : ∀ taskId entry, state.pool.lookup taskId = some entry →
    (StoredTask.own entry.task).key = taskId
  distinct : ∀ a b serial, serialAt state.pool a = some serial →
    serialAt state.pool b = some serial → a = b
  announced : ∀ serial ∈ state.verified, serial < state.accepted
  nodup : state.verified.Nodup
  storing : ∀ i serial task record phase, state.Active i (.verify serial task record) phase →
    serial < state.accepted ∧ serial ∉ state.verified ∧
    ∀ taskId, serialAt state.pool taskId = some serial → taskId = (StoredTask.own task).key
  once : ∀ i j serial task task' record record' phase phase',
    state.Active i (.verify serial task record) phase →
    state.Active j (.verify serial task' record') phase' → i = j

theorem serialInv_initial (db : List (String × Json)) : SerialInv (.initial db) where
  pooled := by
    intro taskId serial found
    cases found
  keys := by
    intro taskId entry found
    cases found
  distinct := by
    intro a b serial found
    cases found
  announced := nofun
  nodup := .nil
  storing := fun _ _ _ _ _ active => absurd active not_active_initial
  once := fun _ _ _ _ _ _ _ _ _ active => absurd active not_active_initial

section

variable {state after : ManagerState}

/-- Fewer tasks in the pool and fewer verdicts that are being stored are no harm. -/
theorem SerialInv.of_fewer (inv : SerialInv state)
    (serials : ∀ taskId serial, serialAt after.pool taskId = some serial →
      serialAt state.pool taskId = some serial)
    (keys : ∀ taskId entry, after.pool.lookup taskId = some entry →
      (StoredTask.own entry.task).key = taskId)
    (accepted : after.accepted = state.accepted) (verified : after.verified = state.verified)
    (active : ∀ i serial task record phase, after.Active i (.verify serial task record) phase →
      ∃ before, state.Active i (.verify serial task record) before) :
    SerialInv after := by
  refine ⟨?_, keys, ?_, ?_, ?_, ?_, ?_⟩
  · intro taskId serial found
    rw [accepted, verified]
    exact inv.pooled taskId serial (serials taskId serial found)
  · intro a b serial first second
    exact inv.distinct a b serial (serials a serial first) (serials b serial second)
  · rw [accepted, verified]
    exact inv.announced
  · rw [verified]
    exact inv.nodup
  · intro i serial task record phase isActive
    obtain ⟨before, wasActive⟩ := active i serial task record phase isActive
    obtain ⟨below, fresh, isKey⟩ := inv.storing i serial task record before wasActive
    rw [accepted, verified]
    exact ⟨below, fresh, fun taskId found => isKey taskId (serials taskId serial found)⟩
  · intro i j serial task task' record record' phase phase' first second
    obtain ⟨before, wasFirst⟩ := active i serial task record phase first
    obtain ⟨before', wasSecond⟩ := active j serial task' record' phase' second
    exact inv.once i j serial task task' record record' before before' wasFirst wasSecond

/-- A request that stores no verdict. -/
theorem SerialInv.ask (inv : SerialInv state) {work : DbWork} (other : work.serial? = none) :
    SerialInv (state.ask work) := by
  refine inv.of_fewer (fun _ _ found => found) inv.keys rfl rfl ?_
  intro i serial task record phase active
  rcases active_ask.mp active with before | ⟨-, isWork, -⟩
  · exact ⟨phase, before⟩
  · rw [← isWork] at other
    cases other

/-- An accepted task gets a new number. -/
theorem SerialInv.add (inv : SerialInv state) (task : Option OwnTask) :
    SerialInv (addTaskUnverified task state) := by
  cases task with
  | none => exact inv
  | some task =>
      rw [addTaskUnverified]
      split
      · exact inv
      · have unused : ∀ taskId, serialAt state.pool taskId ≠ some state.accepted :=
          fun taskId found => Nat.lt_irrefl _ (inv.pooled taskId _ found).1
        refine ⟨?_, keys_setField inv.keys rfl, ?_, ?_, inv.nodup, ?_, inv.once⟩
        · intro taskId serial found
          rw [serialAt_setField] at found
          split at found
          · cases found
            exact ⟨Nat.lt_succ_self _, fun announced =>
              Nat.lt_irrefl _ (inv.announced _ announced)⟩
          · obtain ⟨below, fresh⟩ := inv.pooled taskId serial found
            exact ⟨Nat.lt_succ_of_lt below, fresh⟩
        · intro a b serial first second
          rw [serialAt_setField] at first second
          split at first
          · cases first
            split at second
            · rename_i isA isB
              exact isA.trans isB.symm
            · exact absurd second (unused b)
          · split at second
            · cases second
              exact absurd first (unused a)
            · exact inv.distinct a b serial first second
        · exact fun serial announced => Nat.lt_succ_of_lt (inv.announced serial announced)
        · intro i serial task' record phase active
          obtain ⟨below, fresh, isKey⟩ := inv.storing i serial task' record phase active
          refine ⟨Nat.lt_succ_of_lt below, fresh, fun taskId found => ?_⟩
          rw [serialAt_setField] at found
          split at found
          · cases found
            exact absurd below (Nat.lt_irrefl _)
          · exact isKey taskId found

/-- A task that is removed leaves the pool. -/
theorem SerialInv.remove (inv : SerialInv state) (taskId : String) :
    SerialInv (removeTask taskId state) := by
  refine SerialInv.ask ?_ rfl
  refine inv.of_fewer ?_ ?_ rfl rfl fun _ _ _ _ phase active => ⟨phase, active⟩
  · intro other serial found
    rw [serialAt_deleteField] at found
    split at found
    · cases found
    · exact found
  · intro other entry found
    rw [lookup_deleteField] at found
    split at found
    · cases found
    · exact inv.keys other entry found

/-- A verdict for a pooled task, if none is being stored for its number. -/
theorem SerialInv.verdict (inv : SerialInv state) {taskId : String} {isVerified : Bool}
    (unstored : isVerified = true → ∀ serial, serialAt state.pool taskId = some serial →
      ∀ i task record phase, ¬ state.Active i (.verify serial task record) phase) :
    SerialInv (onVerifyTask taskId isVerified state) := by
  cases pooled : state.pool.lookup taskId with
  | none =>
      rw [onVerifyTask, pooled]
      exact inv
  | some entry =>
      obtain ⟨serial, task⟩ := entry
      rw [onVerifyTask, pooled]
      cases isVerified with
      | false =>
          refine inv.of_fewer ?_ ?_ rfl rfl ?_
          · exact fun _ _ found => found
          · exact inv.keys
          · exact fun _ _ _ _ phase active => ⟨phase, active⟩
      | true =>
          have isKey : (StoredTask.own task.setInProgressStatus).key = taskId :=
            inv.keys taskId ⟨serial, task⟩ pooled
          have here : serialAt state.pool taskId = some serial := by
            rw [serialAt, pooled]
            rfl
          have written : SerialInv { state with
              pool := setField taskId ⟨serial, task.setInProgressStatus⟩ state.pool } := by
            refine inv.of_fewer ?_ (keys_setField inv.keys isKey) rfl rfl
              fun _ _ _ _ phase active => ⟨phase, active⟩
            intro other serial' found
            rw [serialAt_setField] at found
            split at found
            · rename_i same
              rw [same, here]
              exact found
            · exact found
          have only := unstored rfl serial here
          simp only [if_true]
          split
          · exact written
          · refine ⟨written.pooled, written.keys, written.distinct, written.announced,
              written.nodup, ?_, ?_⟩
            · intro i serial' task' record' phase active
              rcases active_ask.mp active with before | ⟨-, isNew, -⟩
              · exact written.storing i serial' task' record' phase before
              · cases isNew
                obtain ⟨below, fresh⟩ := inv.pooled taskId serial here
                refine ⟨below, fresh, fun other found => ?_⟩
                have there := written.distinct other taskId serial found
                  ((serialAt_setField _ _ _ _).trans (if_pos rfl))
                exact there.trans isKey.symm
            · intro i j serial' first second record record' phase phase' isFirst isSecond
              rcases active_ask.mp isFirst with before | ⟨atEnd, isNew, -⟩
              · rcases active_ask.mp isSecond with before' | ⟨-, isNew, -⟩
                · exact inv.once i j serial' first second record record' phase phase' before before'
                · cases isNew
                  exact absurd before (only i first record phase)
              · rcases active_ask.mp isSecond with before' | ⟨atEnd', -, -⟩
                · cases isNew
                  exact absurd before' (only j second record' phase')
                · exact atEnd.trans atEnd'.symm

/-- What the database does is no matter of the numbers. -/
theorem SerialInv.perform (inv : SerialInv state) (i : Nat) (fails : Bool) :
    SerialInv (managerStep parse state (.perform i fails)) := by
  rw [managerStep]
  split
  · rename_i work found
    have same : ∀ (performed : ManagerState) (reply : DbReply),
        performed.requests = state.requests → performed.pool = state.pool →
        performed.accepted = state.accepted → performed.verified = state.verified →
        SerialInv (performed.setPhase i (.replied reply)) := by
      intro performed reply requests pool accepted verified
      refine inv.of_fewer ?_ ?_ accepted verified ?_
      · intro taskId serial isSerial
        rw [← pool]
        exact isSerial
      · intro taskId entry isEntry
        exact inv.keys taskId entry (pool ▸ isEntry)
      · intro j serial task record phase active
        obtain ⟨-, before, going⟩ | ⟨rfl, -, before, isWork⟩ := of_active_setPhase active
        · exact ⟨phase, requests ▸ before, going⟩
        · rw [requests, found] at isWork
          cases isWork
          exact ⟨.waiting, active_of_waiting found⟩
    split
    · exact same state .failed rfl rfl rfl rfl
    · cases work with
      | read taskId result =>
          cases stored : state.db.lookup taskId with
          | none =>
              simp only [performWork, stored]
              exact same state .failed rfl rfl rfl rfl
          | some record =>
              simp only [performWork, stored]
              exact same state (.found record) rfl rfl rfl rfl
      | _ => exact same _ .done rfl rfl rfl rfl
  · exact inv

/-- A verdict that is stored is announced, and its task leaves the pool. -/
theorem SerialInv.announce (inv : SerialInv state) {i : Nat} {serial : Nat} {task : OwnTask}
    {record : Json} {reply : DbReply}
    (going : state.Active i (.verify serial task record) (.replied reply)) :
    SerialInv (continueWork parse (.verify serial task record) .done
      (state.setPhase i .over)) := by
  obtain ⟨below, fresh, isKey⟩ := inv.storing i serial task record _ going
  have inPool : ∀ taskId other,
      serialAt (deleteField (StoredTask.own task).key state.pool) taskId = some other →
      serialAt state.pool taskId = some other ∧ other ≠ serial := by
    intro taskId other found
    rw [serialAt_deleteField] at found
    split at found
    · cases found
    · rename_i differs
      refine ⟨found, ?_⟩
      rintro rfl
      exact differs (isKey taskId found)
  have notAnnounced : ∀ other, other ∉ state.verified → other ≠ serial →
      other ∉ state.verified ++ [serial] := by
    intro other isFresh differs announced
    rcases List.mem_append.mp announced with before | now
    · exact isFresh before
    · exact differs (List.mem_singleton.mp now)
  refine ⟨?_, ?_, ?_, ?_, ?_, ?_, ?_⟩
  · intro taskId other found
    obtain ⟨found, differs⟩ := inPool taskId other found
    obtain ⟨isBelow, isFresh⟩ := inv.pooled taskId other found
    exact ⟨isBelow, notAnnounced other isFresh differs⟩
  · intro taskId entry found
    simp only [continueWork, setPhase, lookup_deleteField] at found
    split at found
    · cases found
    · exact inv.keys taskId entry found
  · intro a b other first second
    exact inv.distinct a b other (inPool a other first).1 (inPool b other second).1
  · intro other announced
    rcases List.mem_append.mp announced with before | now
    · exact inv.announced other before
    · cases List.mem_singleton.mp now
      exact below
  · refine List.nodup_append.mpr ⟨inv.nodup, List.nodup_singleton serial, ?_⟩
    intro other isOld now isNow same
    exact fresh (List.mem_singleton.mp isNow ▸ same ▸ isOld)
  · intro j other task' record' phase active
    obtain ⟨differs, before⟩ := of_active_over active
    obtain ⟨isBelow, isFresh, isKey'⟩ := inv.storing j other task' record' phase before
    refine ⟨isBelow, notAnnounced other isFresh ?_, ?_⟩
    · rintro rfl
      exact differs (inv.once j i _ _ _ _ _ _ _ before going)
    · exact fun taskId found => isKey' taskId (inPool taskId other found).1
  · intro j k other first second record record' phase phase' isFirst isSecond
    exact inv.once j k other first second record record' phase phase'
      (of_active_over isFirst).2 (of_active_over isSecond).2

theorem SerialInv.callback (inv : SerialInv state) (i : Nat) :
    SerialInv (managerStep parse state (.callback i)) := by
  rw [managerStep]
  split
  · rename_i work reply found
    have going : state.Active i work (.replied reply) := active_of_replied found
    have ended : SerialInv (state.setPhase i .over) :=
      inv.of_fewer (fun _ _ found => found) inv.keys rfl rfl
        fun _ _ _ _ phase active => ⟨phase, (of_active_over active).2⟩
    rw [continueWork.eq_def]
    split
    · exact @announce parse state inv i _ _ _ _ going
    · split
      · exact ended.ask rfl
      · exact ended
    · simp only []
      split
      · exact ended
      · exact ended.ask rfl
    · exact ended
  · exact inv

theorem SerialInv.step (inv : SerialInv state) {label : ManagerLabel}
    (clean : CleanManagerLabel parse state label) : SerialInv (managerStep parse state label) := by
  cases label with
  | addTaskUnverified task => exact inv.add task
  | onVerifyTask taskId isVerified =>
      refine inv.verdict fun verified serial here i task record phase active => ?_
      have sameKey := (inv.storing i serial task record phase active).2.2 taskId here
      have pooled : state.pool.lookup taskId ≠ none := by
        intro absent
        rw [serialAt, absent] at here
        cases here
      cases (clean verified pooled).1 i _ phase active sameKey.symm
  | onFinishTask taskResult =>
      rw [managerStep, onFinishTask]
      split
      · exact inv
      · split
        · exact inv
        · exact inv.ask rfl
  | addOutsideResult outsideTask =>
      rw [managerStep, addOutsideResult.eq_def]
      split
      · exact inv
      · split
        · exact inv
        · exact inv.ask rfl
  | removeTask taskId => exact inv.remove taskId
  | perform i fails => exact inv.perform i fails
  | callback i => exact inv.callback i

end

variable (parse) in
/-- What a request in flight may rely on, from the last record of its id and the one in the
database: it may be stored after the last one. -/
def Promise (last db : Option Json) : DbWork → DbPhase → Prop
  | .verify _ _ record, .waiting | .store _ record, .waiting | .outside _ record, .waiting =>
      ∀ old ∈ last, Follows old record
  | .read taskId _, .waiting => ∀ record ∈ db, Finishable parse taskId record
  | .read taskId _, .replied (.found record) =>
      Finishable parse taskId record ∧ ∀ old ∈ last, old = record
  | .erase taskId task result, .waiting | .erase taskId task result, .replied .done =>
      task.key = taskId ∧ ∀ old ∈ last, recordRank old ≤ 1 ∧
        ∀ record, serializeTask (task.setResult result) = .ok record →
          recordRank old ≤ recordRank record
  | _, _ => True

variable (parse) in
/-- The database has the last record of an id, or none while the id is being finished, and
each id has one request in flight besides its removals. -/
structure RecordInv (state : ManagerState) : Prop where
  held : ∀ taskId old, state.last.lookup taskId = some old →
    state.db.lookup taskId = some old ∨ (state.db.lookup taskId = none ∧ recordRank old ≤ 1)
  known : ∀ taskId record, state.db.lookup taskId = some record →
    state.last.lookup taskId = some record
  once : ∀ i j work other phase phase', state.Active i work phase →
    state.Active j other phase' → work.key = other.key →
      i = j ∨ work = .remove work.key ∨ other = .remove other.key
  promises : ∀ i work phase, state.Active i work phase →
    Promise parse (state.last.lookup work.key) (state.db.lookup work.key) work phase

theorem recordInv_initial (db : List (String × Json)) : RecordInv parse (.initial db) where
  held := fun _ _ found => .inl found
  known := fun _ _ found => found
  once := fun _ _ _ _ _ _ active => absurd active not_active_initial
  promises := fun _ _ _ active => absurd active not_active_initial

theorem promise_remove (last db : Option Json) (taskId : String) (phase : DbPhase) :
    Promise parse last db (.remove taskId) phase := by
  cases phase <;> trivial

theorem promise_over (last db : Option Json) (work : DbWork) :
    Promise parse last db work .over := by
  cases work <;> trivial

/-- With no record there is nothing to rely on. -/
theorem Promise.none {last db : Option Json} {work : DbWork} {phase : DbPhase}
    (promise : Promise parse last db work phase) : Promise parse none none work phase := by
  rcases phase with _ | reply | _
  · cases work with
    | erase taskId task result => exact ⟨promise.1, nofun⟩
    | _ => first | trivial | nofun
  · cases work with
    | erase taskId task result =>
        cases reply with
        | done => exact ⟨promise.1, nofun⟩
        | _ => trivial
    | read taskId result =>
        cases reply with
        | found record => exact ⟨promise.1, nofun⟩
        | _ => trivial
    | _ => trivial
  · exact promise_over _ _ _

section

variable {state : ManagerState}

/-- A new request for an id with nothing else in flight than removals. -/
theorem RecordInv.ask (inv : RecordInv parse state) {work : DbWork}
    (quiet : Quiet state work.key)
    (promise : Promise parse (state.last.lookup work.key) (state.db.lookup work.key) work
      .waiting) :
    RecordInv parse (state.ask work) := by
  refine ⟨inv.held, inv.known, ?_, ?_⟩
  · intro i j first second phase phase' isFirst isSecond sameKey
    rcases active_ask.mp isFirst with before | ⟨atEnd, rfl, -⟩
    · rcases active_ask.mp isSecond with before' | ⟨-, rfl, -⟩
      · exact inv.once i j first second phase phase' before before' sameKey
      · exact .inr (.inl ((quiet i first phase before sameKey).trans (by rw [sameKey])))
    · rcases active_ask.mp isSecond with before' | ⟨atEnd', -, -⟩
      · exact .inr (.inr ((quiet j second phase' before' sameKey.symm).trans (by rw [sameKey])))
      · exact .inl (atEnd.trans atEnd'.symm)
  · intro i other phase active
    rcases active_ask.mp active with before | ⟨-, rfl, rfl⟩
    · exact inv.promises i other phase before
    · exact promise

/-- A removal never matters to the other requests. -/
theorem RecordInv.ask_remove (inv : RecordInv parse state) (taskId : String) :
    RecordInv parse (state.ask (.remove taskId)) := by
  refine ⟨inv.held, inv.known, ?_, ?_⟩
  · intro i j first second phase phase' isFirst isSecond sameKey
    rcases active_ask.mp isFirst with before | ⟨-, rfl, -⟩
    · rcases active_ask.mp isSecond with before' | ⟨-, rfl, -⟩
      · exact inv.once i j first second phase phase' before before' sameKey
      · exact .inr (.inr rfl)
    · exact .inr (.inl rfl)
  · intro i other phase active
    rcases active_ask.mp active with before | ⟨-, rfl, rfl⟩
    · exact inv.promises i other phase before
    · exact promise_remove _ _ _ _

/-- A request goes on to its next phase, and the records of its id may change. -/
theorem RecordInv.advance (inv : RecordInv parse state) {i : Nat} {work : DbWork}
    {phase : DbPhase} (active : state.Active i work phase) (after : ManagerState)
    (requests : after.requests = state.requests)
    (elsewhere : ∀ taskId, taskId ≠ work.key → after.db.lookup taskId = state.db.lookup taskId ∧
      after.last.lookup taskId = state.last.lookup taskId)
    (held : ∀ old, after.last.lookup work.key = some old →
      after.db.lookup work.key = some old ∨
      (after.db.lookup work.key = none ∧ recordRank old ≤ 1))
    (known : ∀ record, after.db.lookup work.key = some record →
      after.last.lookup work.key = some record)
    (others : ∀ j other phase', j ≠ i → state.Active j other phase' → other.key = work.key →
      Promise parse (after.last.lookup work.key) (after.db.lookup work.key) other phase')
    {next : DbPhase}
    (promise : Promise parse (after.last.lookup work.key) (after.db.lookup work.key) work next) :
    RecordInv parse (after.setPhase i next) := by
  have actives : ∀ j other phase', (after.setPhase i next).Active j other phase' →
      ∃ before, state.Active j other before := by
    intro j other phase' isActive
    obtain ⟨-, before, going⟩ | ⟨rfl, -, before, isWork⟩ := of_active_setPhase isActive
    · exact ⟨phase', requests ▸ before, going⟩
    · rw [requests, active.1] at isWork
      cases isWork
      exact ⟨phase, active⟩
  refine ⟨?_, ?_, ?_, ?_⟩
  · intro taskId old found
    by_cases same : taskId = work.key
    · subst same
      exact held old found
    · obtain ⟨db, last⟩ := elsewhere taskId same
      simp only [setPhase] at found ⊢
      rw [last] at found
      rw [db]
      exact inv.held taskId old found
  · intro taskId record found
    by_cases same : taskId = work.key
    · subst same
      exact known record found
    · obtain ⟨db, last⟩ := elsewhere taskId same
      simp only [setPhase] at found ⊢
      rw [db] at found
      rw [last]
      exact inv.known taskId record found
  · intro j k first second phase' phase'' isFirst isSecond
    obtain ⟨before, wasFirst⟩ := actives j first phase' isFirst
    obtain ⟨before', wasSecond⟩ := actives k second phase'' isSecond
    exact inv.once j k first second before before' wasFirst wasSecond
  · intro j other phase' isActive
    obtain ⟨differs, before, going⟩ | ⟨rfl, isNext, before, isWork⟩ := of_active_setPhase isActive
    · have wasActive : state.Active j other phase' := ⟨requests ▸ before, going⟩
      by_cases same : other.key = work.key
      · simp only [setPhase]
        rw [same]
        exact others j other phase' differs wasActive same
      · obtain ⟨db, last⟩ := elsewhere other.key same
        simp only [setPhase]
        rw [db, last]
        exact inv.promises j other phase' wasActive
    · rw [requests, active.1] at isWork
      cases isWork
      rw [isNext]
      exact promise

/-- The requests for the id of a request that is no removal are removals. -/
theorem RecordInv.others (inv : RecordInv parse state) {i : Nat} {work : DbWork}
    {phase : DbPhase} (active : state.Active i work phase) (stays : work ≠ .remove work.key)
    {last db : Option Json} (j : Nat) (other : DbWork) (phase' : DbPhase) (differs : j ≠ i)
    (isActive : state.Active j other phase') (sameKey : other.key = work.key) :
    Promise parse last db other phase' := by
  rcases inv.once j i other work phase' phase isActive active sameKey with same | removes | removes
  · exact absurd same differs
  · rw [removes]
    exact promise_remove _ _ _ _
  · exact absurd removes stays

/-- A request that changes no record goes on. -/
theorem RecordInv.setPhase (inv : RecordInv parse state) {i : Nat} {work : DbWork}
    {phase : DbPhase} (active : state.Active i work phase) {next : DbPhase}
    (promise : Promise parse (state.last.lookup work.key) (state.db.lookup work.key) work next) :
    RecordInv parse (state.setPhase i next) := by
  refine inv.advance active state rfl (fun _ _ => ⟨rfl, rfl⟩) (inv.held _) (inv.known _) ?_ promise
  intro j other phase' _ isActive sameKey
  rw [← sameKey]
  exact inv.promises j other phase' isActive

/-- A record is stored and is the last one then. -/
theorem RecordInv.put (inv : RecordInv parse state) {i : Nat} {work : DbWork}
    (active : state.Active i work .waiting) (stays : work ≠ .remove work.key) (record : Json)
    (promise : ∀ last db, Promise parse last db work (.replied .done)) :
    RecordInv parse (ManagerState.setPhase { state with
      db := setField work.key record state.db
      last := setField work.key record state.last } i (.replied .done)) := by
  refine inv.advance active { state with
    db := setField work.key record state.db
    last := setField work.key record state.last } rfl ?_ ?_ ?_ (inv.others active stays)
    (promise _ _)
  · intro taskId differs
    exact ⟨lookup_setField_ne differs _ _, lookup_setField_ne differs _ _⟩
  · intro old found
    rw [lookup_setField_self] at found ⊢
    exact .inl found
  · intro old found
    rw [lookup_setField_self] at found ⊢
    exact found

theorem RecordInv.perform (inv : RecordInv parse state) (i : Nat) (fails : Bool) :
    RecordInv parse (managerStep parse state (.perform i fails)) := by
  rw [managerStep]
  split
  · rename_i work found
    have active : state.Active i work .waiting := active_of_waiting found
    have failed : RecordInv parse (state.setPhase i (.replied .failed)) :=
      inv.setPhase active (by cases work <;> trivial)
    have promise := inv.promises i work .waiting active
    split
    · exact failed
    · cases work with
      | verify serial task record =>
          exact inv.put active (fun same => by cases same) record fun _ _ => trivial
      | store task record =>
          exact inv.put active (fun same => by cases same) record fun _ _ => trivial
      | outside task record =>
          exact inv.put active (fun same => by cases same) record fun _ _ => trivial
      | read taskId result =>
          cases stored : state.db.lookup taskId with
          | none =>
              simp only [performWork, stored]
              exact failed
          | some record =>
              simp only [performWork, stored]
              refine inv.setPhase active ⟨promise record stored, fun old isLast => ?_⟩
              exact Option.some.inj (isLast.symm.trans (inv.known taskId record stored))
      | erase taskId task result =>
          refine inv.advance active { state with db := deleteField taskId state.db } rfl ?_ ?_ ?_
            (inv.others active fun same => by cases same) promise
          · exact fun other differs => ⟨lookup_deleteField_ne differs _, rfl⟩
          · exact fun old isLast =>
              .inr ⟨lookup_deleteField_self _ _, (promise.2 old isLast).1⟩
          · intro record isStored
            cases (lookup_deleteField_self taskId state.db).symm.trans isStored
      | remove taskId =>
          refine inv.advance active { state with
            db := deleteField taskId state.db
            last := deleteField taskId state.last } rfl ?_ ?_ ?_ ?_ (promise_remove _ _ _ _)
          · exact fun other differs =>
              ⟨lookup_deleteField_ne differs _, lookup_deleteField_ne differs _⟩
          · intro old isLast
            cases (lookup_deleteField_self taskId state.last).symm.trans isLast
          · intro record isStored
            cases (lookup_deleteField_self taskId state.db).symm.trans isStored
          · intro j other phase _ isActive sameKey
            have gone := (inv.promises j other phase isActive).none
            simp only [DbWork.key, lookup_deleteField_self]
            exact gone
  · exact inv

/-- When a request that is no removal is over, its id is quiet. -/
theorem RecordInv.quiet (inv : RecordInv parse state) {i : Nat} {work : DbWork}
    {phase : DbPhase} (active : state.Active i work phase) (stays : work ≠ .remove work.key) :
    Quiet (state.setPhase i .over) work.key := by
  intro j other phase' isActive sameKey
  obtain ⟨differs, before⟩ := of_active_over isActive
  rcases inv.once j i other work phase' phase before active sameKey with same | removes | removes
  · exact absurd same differs
  · rw [← sameKey]
    exact removes
  · exact absurd removes stays

theorem key_setResult (task : StoredTask) (result : Result) :
    (task.setResult result).key = task.key := by
  cases task with
  | own task =>
      rw [StoredTask.setResult, OwnTask.setResult]
      split <;> rfl
  | outside task =>
      rw [StoredTask.setResult, OutsideTask.setResult]
      split <;> rfl

theorem RecordInv.callback (inv : RecordInv parse state) (i : Nat) :
    RecordInv parse (managerStep parse state (.callback i)) := by
  rw [managerStep]
  split
  · rename_i work reply found
    have active : state.Active i work (.replied reply) := active_of_replied found
    have ended : RecordInv parse (state.setPhase i .over) :=
      inv.setPhase active (promise_over _ _ _)
    have promise := inv.promises i work _ active
    rw [continueWork.eq_def]
    split
    · exact ⟨ended.held, ended.known, ended.once, ended.promises⟩
    · rename_i taskId result record
      split
      · rename_i task loads
        obtain ⟨finishable, isLast⟩ := promise
        obtain ⟨unfinished, isKey, own, rfl⟩ := finishable task loads
        have quiet : Quiet (state.setPhase i .over) taskId :=
          inv.quiet active fun same => by cases same
        refine ended.ask quiet ⟨isKey, fun old last => ?_⟩
        rw [isLast old last]
        exact ⟨unfinished, fun new serialized => rank_of_finished loads serialized⟩
      · exact ended
    · rename_i taskId task result
      simp only []
      split
      · exact ended
      · rename_i record serialized
        obtain ⟨isKey, follows⟩ := promise
        have sameKey : (task.setResult result).key = taskId :=
          (key_setResult task result).trans isKey
        refine ended.ask ?_ ?_
        · change Quiet _ (task.setResult result).key
          rw [sameKey]
          exact inv.quiet active fun same => by cases same
        · change ∀ old ∈ state.last.lookup (task.setResult result).key, _
          rw [sameKey]
          intro old last
          obtain ⟨unfinished, rank⟩ := follows old last
          exact follows_of_unfinished unfinished (rank record serialized)
    · exact ended
  · exact inv

theorem RecordInv.step (inv : RecordInv parse state) {label : ManagerLabel}
    (keys : ∀ taskId entry, state.pool.lookup taskId = some entry →
      (StoredTask.own entry.task).key = taskId)
    (clean : CleanManagerLabel parse state label) :
    RecordInv parse (managerStep parse state label) := by
  have same : ∀ after : ManagerState, after.db = state.db → after.last = state.last →
      after.requests = state.requests → RecordInv parse after := by
    rintro ⟨pool, db, requests, accepted, verified, settled, last⟩ rfl rfl rfl
    exact ⟨inv.held, inv.known, inv.once, inv.promises⟩
  cases label with
  | addTaskUnverified task =>
      rw [managerStep, addTaskUnverified.eq_def]
      split
      · exact inv
      · simp only []
        split
        · exact inv
        · exact same _ rfl rfl rfl
  | onVerifyTask taskId isVerified =>
      cases pooled : state.pool.lookup taskId with
      | none =>
          rw [managerStep, onVerifyTask, pooled]
          exact inv
      | some entry =>
          obtain ⟨serial, task⟩ := entry
          rw [managerStep, onVerifyTask, pooled]
          cases isVerified with
          | false => exact same _ rfl rfl rfl
          | true =>
              obtain ⟨quiet, unfinished⟩ := clean rfl (pooled ▸ Option.some_ne_none _)
              have isKey : (StoredTask.own task.setInProgressStatus).key = taskId :=
                keys taskId ⟨serial, task⟩ pooled
              have written := same { state with
                pool := setField taskId ⟨serial, task.setInProgressStatus⟩ state.pool } rfl rfl rfl
              simp only [if_true]
              split
              · exact written
              · rename_i record serialized
                refine written.ask ?_ ?_
                · change Quiet state (StoredTask.own task.setInProgressStatus).key
                  rw [isKey]
                  exact quiet
                · change ∀ old ∈ state.last.lookup (StoredTask.own task.setInProgressStatus).key, _
                  rw [isKey]
                  intro old last
                  refine follows_of_unfinished (unfinished old last) ?_
                  rw [rank_of_serializeTask serialized]
                  exact unfinished old last
  | onFinishTask taskResult =>
      rw [managerStep, onFinishTask]
      split
      · exact inv
      · rename_i taskId isKey
        split
        · exact inv
        · rename_i notPooled
          obtain ⟨quiet, finishable⟩ := clean taskId isKey
            (lookup_of_hasProperty_eq_false (Bool.eq_false_iff.mpr notPooled))
          exact inv.ask quiet finishable
  | addOutsideResult outsideTask =>
      cases outsideTask with
      | none => exact inv
      | some task =>
          rw [managerStep, addOutsideResult]
          split
          · exact inv
          · rename_i record serialized
            obtain ⟨quiet, follows⟩ := clean task rfl record serialized
            exact inv.ask quiet follows
  | removeTask taskId =>
      have removed := same { state with pool := deleteField taskId state.pool } rfl rfl rfl
      exact removed.ask_remove taskId
  | perform i fails => exact inv.perform i fails
  | callback i => exact inv.callback i

/-- The last record of an id is followed by the next one or removed. -/
theorem RecordInv.follows (inv : RecordInv parse state) (label : ManagerLabel) {taskId : String}
    {old : Json} (last : state.last.lookup taskId = some old) :
    (∃ new, (managerStep parse state label).last.lookup taskId = some new ∧ Follows old new) ∨
    Removes state taskId label := by
  have same : ∀ after : ManagerState, after.last = state.last →
      (∃ new, after.last.lookup taskId = some new ∧ Follows old new) ∨
      Removes state taskId label := by
    intro after isLast
    rw [isLast]
    exact .inl ⟨old, last, follows_refl old⟩
  cases label with
  | addTaskUnverified task =>
      apply same
      rw [managerStep, addTaskUnverified.eq_def]
      split
      · rfl
      · simp only []
        split <;> rfl
  | onVerifyTask id isVerified =>
      apply same
      rw [managerStep, onVerifyTask.eq_def]
      split
      · rfl
      · split
        · simp only []
          split <;> rfl
        · rfl
  | onFinishTask taskResult =>
      apply same
      rw [managerStep, onFinishTask]
      split
      · rfl
      · split <;> rfl
  | addOutsideResult outsideTask =>
      apply same
      rw [managerStep, addOutsideResult.eq_def]
      split
      · rfl
      · split <;> rfl
  | removeTask id => exact same _ rfl
  | perform i fails =>
      rw [managerStep]
      split
      · rename_i work found
        have promise := inv.promises i work .waiting (active_of_waiting found)
        have put : ∀ record, (∀ old ∈ state.last.lookup work.key, Follows old record) →
            ∃ new, (setField work.key record state.last).lookup taskId = some new ∧
              Follows old new := by
          intro record follows
          rw [lookup_setField]
          split
          · rename_i isKey
            exact ⟨record, rfl, follows old (isKey ▸ last)⟩
          · exact ⟨old, last, follows_refl old⟩
        split
        · exact same _ rfl
        · rename_i succeeds
          cases work with
          | verify serial task record => exact .inl (put record promise)
          | store task record => exact .inl (put record promise)
          | outside task record => exact .inl (put record promise)
          | read id result =>
              cases stored : state.db.lookup id with
              | none =>
                  simp only [performWork, stored]
                  exact same _ rfl
              | some record =>
                  simp only [performWork, stored]
                  exact same _ rfl
          | erase id task result => exact same _ rfl
          | remove id =>
              by_cases isId : taskId = id
              · subst isId
                exact .inr ⟨i, by rw [Bool.eq_false_of_not_eq_true succeeds], found⟩
              · refine .inl ⟨old, ?_, follows_refl old⟩
                exact (lookup_deleteField_ne isId _).trans last
      · exact same _ rfl
  | callback i =>
      apply same
      rw [managerStep]
      split
      · rw [continueWork.eq_def]
        split
        · rfl
        · split <;> rfl
        · simp only []
          split <;> rfl
        · rfl
      · rfl

/-- A task that is accepted is not in the pool, and by the condition it has no record. -/
theorem accepts_of_clean {label : ManagerLabel} (clean : CleanManagerLabel parse state label)
    (task : OwnTask) (isAdd : label = .addTaskUnverified (some task))
    (accepted : (managerStep parse state label).accepted ≠ state.accepted) :
    state.pool.lookup (StoredTask.own task).key = none ∧
      state.db.lookup (StoredTask.own task).key = none := by
  subst isAdd
  have notPooled : state.pool.lookup (StoredTask.own task).key = none := by
    by_contra pooled
    refine accepted ?_
    rw [managerStep, addTaskUnverified]
    obtain ⟨entry, found⟩ := Option.ne_none_iff_exists'.mp pooled
    have inPool : state.isUnverifiedInPool (StoredTask.own task).key = true :=
      hasProperty_of_lookup found
    simp only [if_pos inPool]
  exact ⟨notPooled, clean task rfl notPooled⟩

end

/-- In a run whose calls meet the conditions, ids are accepted, announced and stored as they
should be, in whatever order calls, requests and callbacks come. -/
theorem lifeRight_run (db : List (String × Json)) {passed : List ManagerLabel}
    {label : ManagerLabel}
    (clean : Meets (CleanManagerLabel parse) (managerStep parse) (.initial db)
      (passed ++ [label])) :
    LifeRight parse (run (managerStep parse) (.initial db) passed) label := by
  obtain ⟨serials, records⟩ := @invariant_run _ _ (CleanManagerLabel parse) (managerStep parse)
    (fun state => SerialInv state ∧ RecordInv parse state) (.initial db)
    ⟨serialInv_initial db, recordInv_initial db⟩
    (fun _ _ inv condition => ⟨inv.1.step condition, inv.2.step inv.1.keys condition⟩) _
    clean.of_append
  exact ⟨accepts_of_clean clean.last, (serials.step clean.last).nodup,
    fun _ _ last => records.follows label last⟩

/-- The task is submitted, verified, stored and announced. -/
def verifiedRun : List ManagerLabel :=
  [.addTaskUnverified (submission "01"), .onVerifyTask "aa" true, .perform 0 false, .callback 0]

/-- What the core returns for a task that fails. -/
def coreFailure : Result :=
  .ofFields .failed [("taskId", .str "aa"), ("status", .str TaskStatus.failed),
    ("output", .str "05"), ("usedGas", .num 1), ("signature", .str "06")]

/-- The task is finished, too: its record is read, deleted and stored. -/
def finishedRun : List ManagerLabel :=
  verifiedRun ++ [.onFinishTask coreFailure, .perform 1 false, .callback 1, .perform 2 false,
    .callback 2, .perform 3 false, .callback 3]

/-- A record that does not follow the one before it. -/
theorem not_lifeRight_of_record {state : ManagerState} {i : Nat} {taskId : String}
    {old new : Json} (last : state.last.lookup taskId = some old)
    (next : (managerStep parse state (.perform i false)).last.lookup taskId = some new)
    (wrong : recordRank new < recordRank old ∨
      recordRank old = 2 ∧ new.get? "result" ≠ old.get? "result") :
    ¬ LifeRight parse state (.perform i false) := by
  rintro ⟨-, -, follows⟩
  rcases follows taskId old last with ⟨new', isNext, rank, result⟩ | ⟨j, isLabel, found⟩
  · cases next.symm.trans isNext
    rcases wrong with regresses | ⟨finished, replaced⟩
    · exact absurd regresses (Nat.not_lt.mpr rank)
    · exact replaced (result finished)
  · cases isLabel
    rw [managerStep, found] at next
    simp only [performWork, Bool.false_eq_true, if_false, setPhase] at next
    cases (lookup_deleteField_self taskId state.last).symm.trans next

/-- A verified task is accepted again, a task with two verdicts is announced twice, the
verdict of the second submission takes a finished record back to in progress, and an outside
result replaces the result of a finished record. -/
theorem life_wrong :
    ¬ LifeRight noTexts (run (managerStep noTexts) (.initial []) verifiedRun)
      (.addTaskUnverified (submission "01")) ∧
    ¬ LifeRight noTexts (run (managerStep noTexts) (.initial [])
      [.addTaskUnverified (submission "01"), .onVerifyTask "aa" true, .onVerifyTask "aa" true,
        .perform 0 false, .perform 1 false, .callback 0]) (.callback 1) ∧
    ¬ LifeRight noTexts (run (managerStep noTexts) (.initial []) (finishedRun ++
      [.addTaskUnverified (submission "01"), .onVerifyTask "aa" true])) (.perform 4 false) ∧
    ¬ LifeRight noTexts (run (managerStep noTexts) (.initial []) (finishedRun ++
      [.addOutsideResult failedInEthereum])) (.perform 4 false) := by
  refine ⟨?_, ?_, ?_, ?_⟩
  · rintro ⟨accepts, -, -⟩
    exact absurd (accepts _ rfl (by decide)).2 (by decide)
  · rintro ⟨-, once, -⟩
    exact absurd once (by decide)
  · exact @not_lifeRight_of_record _ _ 4 "aa" _ _ rfl rfl (.inl (by decide))
  · exact @not_lifeRight_of_record _ _ 4 "aa" _ _ rfl rfl (.inr (by decide))

/-- Nothing is in flight where every request is over. -/
theorem quiet_of_over {state : ManagerState}
    (ended : ∀ request ∈ state.requests, request.phase = .over) (taskId : String) :
    Quiet state taskId := by
  rintro i work phase ⟨found, going⟩ -
  exact absurd (ended _ (List.mem_of_getElem? found)) going

/-- A task is submitted, verified, stored, announced and finished, and then an outside result of
another task is stored. -/
theorem lifeRight_run_finished :
    LifeRight noTexts (run (managerStep noTexts) (.initial [])
      (finishedRun ++ [.addOutsideResult (some { failedInEthereum with taskId := some "bb" })]))
      (.perform 4 false) := by
  refine lifeRight_run [] ⟨?_, fun _ _ => ⟨quiet_of_over (by decide) _, ?_⟩, trivial, trivial, ?_,
    trivial, trivial, trivial, trivial, trivial, trivial, ?_, trivial, trivial⟩
  · rintro _ ⟨⟩ -
    rfl
  · intro old found
    cases found
  · rintro taskId ⟨⟩ -
    refine ⟨quiet_of_over (by decide) _, ?_⟩
    rintro record ⟨⟩ task ⟨⟩
    exact ⟨by decide, rfl, _, rfl⟩
  · rintro task ⟨⟩ record -
    refine ⟨quiet_of_over (by decide) _, ?_⟩
    rintro old ⟨⟩

end Tasks
