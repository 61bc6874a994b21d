import EnigmaP2P.Tasks.VerifyAndStore

/-!
# How the action on a published result ends

The payload of the task-results topic is any text. It is parsed, its result is built by
status and type, and the action goes on with what was built, which is `null` where a
property is missing. In order, the action throws nothing and calls back once.

The main result lists the messages and answers that end so. That the core is updated only
with verified deployments and deltas holds for every message.
-/

namespace Tasks

open Js Common Ethereum

/-- `execute` on the data of a message. -/
def executeData (env : Env) (data : String) : List Effect :=
  match env.parse data with
  | .error exn => [.throws exn]
  | .ok msgObj => execute env msgObj

namespace Effect

def isCall : Effect → Bool
  | .calls _ => true
  | _ => false

def isThrow : Effect → Bool
  | .throws _ => true
  | _ => false

end Effect

/-- Nothing is thrown, and the callback is called once. -/
def CallsOnce (effects : List Effect) : Prop :=
  effects.countP Effect.isThrow = 0 ∧ effects.countP Effect.isCall = 1

/-- The class that `_buildTaskResult` builds; a text has no status. -/
def taskClass (type : Option Json) (resultObj : Json) : Option ResultClass :=
  if resultObj.get? "status" = some (.str TaskStatus.failed) then some .failed
  else if type = some (.str CoreRequests.deploySecretContract) then some .deploy
  else if type = some (.str CoreRequests.computeTask) then some .compute
  else none

/-- The value that a builder reads: a text is parsed. -/
def readResult (parse : String → Except Exn Json) : Json → Except Exn Json
  | .str text => parse text
  | value => .ok value

/-- The message has this result, complete. -/
def HasResult (env : Env) (msgObj : Json) (result : Result) : Prop :=
  ∃ resultObj cls fields, msgObj.get? "result" = some resultObj ∧
    taskClass (msgObj.get? "type") resultObj = some cls ∧
    readResult env.parse resultObj = .ok (.obj fields) ∧ HasExpected cls fields ∧
    result = Result.ofFields cls fields

/-- A deployment, or a computation with a delta. -/
def ChangesState (result : Result) : Prop :=
  result.cls = .deploy ∨ result.cls = .compute ∧ result.hasDelta = true

/-- A payload meets an orderly end, and the core gets only the changes of a result that the
verifier, if there is one, accepted. -/
structure EndsInOrder (env : Env) (data : String) : Prop where
  callsOnce : CallsOnce (executeData env data)
  update : ∀ coreMsg, .updatesDb coreMsg ∈ executeData env data →
    ∃ msgObj result, env.parse data = .ok msgObj ∧ HasResult env msgObj result ∧
      ChangesState result ∧
      (env.hasEthereum = true → Accepts env.verifyTaskSubmission ∧
        ∃ localTip, .verifies (some result) (msgObj.get? "contractAddress") localTip ∈
          executeData env data)

/-! ## The messages that end in order -/

/-- The verifier answers without an error, and does not accept. -/
def Undecided (env : Env) : Prop :=
  env.hasEthereum = true ∧ (∃ blockNumber, env.getEthereumBlockNumber = .ok blockNumber) ∧
  ∃ verdict, env.verifyTaskSubmission = .ok verdict ∧ verdict.error = none ∧
    verdict.isVerified = false

/-- The tip that the verification needs cannot be read. -/
def LacksTip (env : Env) (contractAddress : Option Json) (result : Result) : Prop :=
  needsTip (some result) = true ∧
    ∀ localTip, env.getTips.bind (readTip · contractAddress) ≠ .ok (.ok localTip)

/-- The id of the result is text, or no log line writes it. -/
def LogsId (env : Env) (contractAddress : Option Json) (result : Result) : Prop :=
  (∃ id, keyOf result.taskId = .ok id) ∨ env.hasEthereum = false ∨
    LacksTip env contractAddress result ∨ Undecided env

/-- The three ways in which a result leads to one call: its type is unknown, and text; it is
complete; or it is not, and a verifier leaves it undecided. -/
inductive Handled (env : Env) (type contractAddress : Option Json) (resultObj : Json) : Prop
  | unknown (text : String) (noClass : taskClass type resultObj = none)
      (isText : keyOf type = .ok text)
  | complete (cls : ResultClass) (fields : List (String × Json))
      (isClass : taskClass type resultObj = some cls)
      (reads : readResult env.parse resultObj = .ok (.obj fields)) (has : HasExpected cls fields)
      (logs : LogsId env contractAddress (Result.ofFields cls fields))
  | incomplete (cls : ResultClass) (value : Json)
      (isClass : taskClass type resultObj = some cls)
      (reads : readResult env.parse resultObj = .ok value)
      (lacks : (∃ items, value = .arr items) ∨
        ∃ fields, value = .obj fields ∧ ¬ HasExpected cls fields)
      (undecided : Undecided env)

/-- The payload has a result, whose id and status are text, and that is handled. -/
def Processable (env : Env) (data : String) : Prop :=
  ∃ msgObj resultObj id status, env.parse data = .ok msgObj ∧
    msgObj.get? "result" = some resultObj ∧ resultObj ≠ .null ∧
    keyOf (resultObj.get? "taskId") = .ok id ∧ keyOf (resultObj.get? "status") = .ok status ∧
    Handled env (msgObj.get? "type") (msgObj.get? "contractAddress") resultObj

section

variable {env : Env} {type contractAddress : Option Json} {resultObj : Json}
  {taskResult : Option Result} {verifyError error : Option Fault} {isVerified : Bool}
  {effects : List Effect}

/-! ## What the parts of the action do -/

theorem not_callsOnce_throws (effects : List Effect) (exn : Exn) :
    ¬ CallsOnce (effects ++ [.throws exn]) := by
  rintro ⟨noThrow, -⟩
  simp [List.countP_append, Effect.isThrow] at noThrow

/-- Effects that neither throw nor call may come first. -/
theorem callsOnce_append {earlier later : List Effect}
    (noThrow : earlier.countP Effect.isThrow = 0) (noCall : earlier.countP Effect.isCall = 0) :
    CallsOnce (earlier ++ later) ↔ CallsOnce later := by
  simp only [CallsOnce, List.countP_append, noThrow, noCall, Nat.zero_add]

theorem callsOnce_storeAndCall :
    CallsOnce (storeAndCall env type resultObj verifyError isVerified error) := by
  unfold storeAndCall
  (repeat' split) <;> exact ⟨rfl, rfl⟩

theorem not_updates_storeAndCall (coreMsg : Json) :
    .updatesDb coreMsg ∉ storeAndCall env type resultObj verifyError isVerified error := by
  unfold storeAndCall
  (repeat' split) <;> simp

theorem countP_announceContract :
    (announceContract env type resultObj error).1.countP Effect.isThrow = 0 ∧
      (announceContract env type resultObj error).1.countP Effect.isCall = 0 := by
  unfold announceContract
  (repeat' split) <;> exact ⟨rfl, rfl⟩

/-- `_verifyResult` does nothing but ask the verifier. -/
theorem verifyResult_effects :
    (verifyResult env taskResult contractAddress).1 = [] ∨ ∃ localTip,
      (verifyResult env taskResult contractAddress).1 =
        [.verifies taskResult contractAddress localTip] := by
  unfold verifyResult verifyWithTip
  (repeat' split) <;> first | exact .inl rfl | exact .inr ⟨_, rfl⟩

theorem countP_verifyResult :
    (verifyResult env taskResult contractAddress).1.countP Effect.isThrow = 0 ∧
      (verifyResult env taskResult contractAddress).1.countP Effect.isCall = 0 := by
  rcases @verifyResult_effects env contractAddress taskResult with same | ⟨localTip, same⟩
  · rw [same]
    exact ⟨rfl, rfl⟩
  · rw [same]
    exact ⟨rfl, rfl⟩

theorem not_updates_verifyResult (coreMsg : Json) :
    .updatesDb coreMsg ∉ (verifyResult env taskResult contractAddress).1 := by
  rcases @verifyResult_effects env contractAddress taskResult with same | ⟨localTip, same⟩ <;>
    rw [same] <;> simp

/-- Every result that is there has a message for the core, or needs none. -/
theorem buildIpcMsg_some (result : Result) (contractAddress : Option Json) :
    ∃ coreMsg, buildIpcMsg (some result) contractAddress = .ok coreMsg := by
  cases isClass : result.cls with
  | failed =>
      simp only [buildIpcMsg, isClass]
      exact ⟨_, rfl⟩
  | deploy =>
      simp only [buildIpcMsg, isClass]
      exact ⟨_, rfl⟩
  | compute =>
      simp only [buildIpcMsg, isClass]
      split <;> exact ⟨_, rfl⟩

/-- Only deployments and deltas have one. -/
theorem changesState_of_buildIpcMsg {result : Result} {coreMsg : Json}
    (built : buildIpcMsg (some result) contractAddress = .ok (some coreMsg)) :
    ChangesState result := by
  cases isClass : result.cls with
  | failed =>
      simp only [buildIpcMsg, isClass] at built
      cases built
  | deploy => exact .inl isClass
  | compute =>
      simp only [buildIpcMsg, isClass] at built
      split at built
      · rename_i hasDelta
        exact .inr ⟨isClass, hasDelta⟩
      · cases built

/-- After the verification only a verified `null` does harm. -/
theorem callsOnce_afterVerification :
    CallsOnce (afterVerification env type contractAddress resultObj taskResult verifyError
      isVerified) ↔ (isVerified = true → ∃ result, taskResult = some result) := by
  unfold afterVerification
  by_cases verified : isVerified = true
  · rw [if_pos verified]
    cases taskResult with
    | none =>
        refine iff_of_false (not_callsOnce_throws [] .typeError) ?_
        intro all
        cases (all verified).choose_spec
    | some result =>
        refine iff_of_true ?_ fun _ => ⟨result, rfl⟩
        obtain ⟨coreMsg, built⟩ := buildIpcMsg_some result contractAddress
        rw [built]
        cases coreMsg with
        | none => exact callsOnce_storeAndCall
        | some coreMsg =>
            cases env.updateDb with
            | error exn => exact ⟨rfl, rfl⟩
            | ok _ =>
                obtain ⟨noThrow, noCall⟩ := @countP_announceContract env type resultObj verifyError
                have before := @callsOnce_append
                  (.updatesDb coreMsg :: (announceContract env type resultObj verifyError).1)
                exact (before noThrow noCall).mpr callsOnce_storeAndCall
  · rw [if_neg verified]
    exact iff_of_true callsOnce_storeAndCall fun isVerified => absurd isVerified verified

/-- The core is updated with what is built for it, after verification. -/
theorem of_updatesDb_afterVerification {coreMsg : Json}
    (updates : .updatesDb coreMsg ∈ afterVerification env type contractAddress resultObj taskResult
      verifyError isVerified) :
    isVerified = true ∧ buildIpcMsg taskResult contractAddress = .ok (some coreMsg) := by
  have announced : .updatesDb coreMsg ∉ (announceContract env type resultObj verifyError).1 := by
    unfold announceContract
    (repeat' split) <;> simp
  unfold afterVerification at updates
  split at updates
  · rename_i verified
    refine ⟨verified, ?_⟩
    split at updates
    · simp at updates
    · exact absurd updates (not_updates_storeAndCall coreMsg)
    · rename_i built
      rw [built]
      split at updates
      · simp only [List.mem_cons, Effect.updatesDb.injEq, reduceCtorEq, List.not_mem_nil,
          or_false] at updates
        rw [updates]
      · rcases List.mem_append.mp updates with early | late
        · rcases List.mem_cons.mp early with same | later
          · cases same
            rfl
          · exact absurd later announced
        · exact absurd late (not_updates_storeAndCall coreMsg)
  · exact absurd updates (not_updates_storeAndCall coreMsg)

/-- The answer of the verifier is taken unless a log line throws. -/
theorem takeVerdict_ok_iff {answer : Except Exn Verdict} :
    (∃ outcome, takeVerdict taskResult answer = .ok outcome) ↔
      canLog taskResult = true ∨
        ∃ verdict, answer = .ok verdict ∧ verdict.error = none ∧ verdict.isVerified = false := by
  by_cases logs : canLog taskResult = true
  · refine iff_of_true ?_ (.inl logs)
    simp only [takeVerdict, logs, if_true]
    (repeat' split) <;> exact ⟨_, rfl⟩
  · have noLog : canLog taskResult = false := Bool.eq_false_iff.mpr logs
    constructor
    · rintro ⟨outcome, taken⟩
      refine .inr ?_
      unfold takeVerdict at taken
      rw [noLog] at taken
      split at taken
      · cases taken
      · rename_i verdict
        split at taken
        · cases taken
        · rename_i noError
          cases isVerified : verdict.isVerified with
          | true => simp [isVerified] at taken
          | false => exact ⟨verdict, rfl, noError, isVerified⟩
    · rintro (canLog | ⟨verdict, rfl, noError, notVerified⟩)
      · exact absurd canLog logs
      · refine ⟨(none, false), ?_⟩
        simp only [takeVerdict, noError, notVerified, Bool.false_eq_true, if_false]

theorem canLog_some_iff {result : Result} :
    canLog (some result) = true ↔ ∃ id, keyOf result.taskId = .ok id := by
  change (keyOf result.taskId).isOk = true ↔ _
  cases keyOf result.taskId with
  | error exn => exact iff_of_false (by nofun) (by nofun)
  | ok id => exact iff_of_true rfl ⟨id, rfl⟩

/-- The verification with a tip, or without need of one. -/
theorem verifyWithTip_ok_iff {localTip : Option Json} (ethereum : env.hasEthereum = true) :
    (∃ outcome, (verifyWithTip env taskResult contractAddress localTip).2 = .ok outcome) ↔
      canLog taskResult = true ∨ Undecided env := by
  unfold verifyWithTip
  cases read : env.getEthereumBlockNumber with
  | error exn =>
      dsimp only
      refine takeVerdict_ok_iff.trans (or_congr_right (iff_of_false ?_ ?_))
      · rintro ⟨_, same, -⟩
        cases same
      · rintro ⟨-, ⟨_, same⟩, -⟩
        cases read.symm.trans same
  | ok blockNumber =>
      dsimp only
      refine takeVerdict_ok_iff.trans (or_congr_right ?_)
      exact ⟨fun verdict => ⟨ethereum, ⟨blockNumber, read⟩, verdict⟩,
        fun undecided => undecided.2.2⟩

/-- The verification of a result goes on exactly if its id can be logged, or is not. -/
theorem verifyResult_some_ok_iff {result : Result} :
    (∃ outcome, (verifyResult env (some result) contractAddress).2 = .ok outcome) ↔
      LogsId env contractAddress result := by
  unfold LogsId
  rw [← canLog_some_iff]
  unfold verifyResult
  by_cases ethereum : env.hasEthereum = true
  · rw [if_pos ethereum]
    by_cases needs : needsTip (some result) = true
    · rw [if_pos needs]
      cases read : env.getTips.bind (readTip · contractAddress) with
      | error exn =>
          refine iff_of_true ⟨_, rfl⟩ (.inr (.inr (.inl ⟨needs, fun localTip same => ?_⟩)))
          cases read.symm.trans same
      | ok tip =>
          cases tip with
          | error text =>
              refine iff_of_true ⟨_, rfl⟩ (.inr (.inr (.inl ⟨needs, fun localTip same => ?_⟩)))
              cases read.symm.trans same
          | ok localTip =>
              refine (verifyWithTip_ok_iff ethereum).trans (or_congr_right ?_)
              have hasTip : ¬ LacksTip env contractAddress result :=
                fun lacks => lacks.2 localTip read
              simp [ethereum, hasTip]
    · have hasTip : ¬ LacksTip env contractAddress result := fun lacks => needs lacks.1
      rw [if_neg needs]
      refine (verifyWithTip_ok_iff ethereum).trans (or_congr_right ?_)
      simp [ethereum, hasTip]
  · rw [if_neg ethereum]
    exact iff_of_true ⟨_, rfl⟩ (.inr (.inl (Bool.eq_false_iff.mpr ethereum)))

/-- The verification of `null` goes on without success only if it is left undecided. -/
theorem verifyResult_none_iff :
    (∃ verifyError, (verifyResult env none contractAddress).2 = .ok (verifyError, false)) ↔
      Undecided env := by
  unfold verifyResult
  by_cases ethereum : env.hasEthereum = true
  · have noTip : ¬ needsTip none = true := by nofun
    rw [if_pos ethereum, if_neg noTip]
    constructor
    · rintro ⟨verifyError, ran⟩
      rcases (verifyWithTip_ok_iff ethereum).mp ⟨_, ran⟩ with logs | undecided
      · cases logs
      · exact undecided
    · rintro ⟨-, ⟨blockNumber, read⟩, verdict, answer, noError, notVerified⟩
      refine ⟨none, ?_⟩
      simp only [verifyWithTip, read, answer, takeVerdict, noError, notVerified,
        Bool.false_eq_true, if_false]
  · rw [if_neg ethereum]
    refine iff_of_false ?_ fun undecided => ethereum undecided.1
    rintro ⟨_, same⟩
    cases same

/-- With a result built, the action verifies it and goes on, or throws. -/
theorem execute_eq {msgObj : Json} (logged : logReceived (msgObj.get? "result") = .ok resultObj)
    (built : buildTaskResult env.parse (msgObj.get? "type") resultObj = .ok (.ok taskResult)) :
    execute env msgObj =
      (verifyResult env taskResult (msgObj.get? "contractAddress")).1 ++
        match (verifyResult env taskResult (msgObj.get? "contractAddress")).2 with
        | .error exn => [.throws exn]
        | .ok (verifyError, isVerified) =>
            afterVerification env (msgObj.get? "type") (msgObj.get? "contractAddress") resultObj
              taskResult verifyError isVerified := by
  simp only [execute, logged, built]
  cases verifyResult env taskResult (msgObj.get? "contractAddress") with
  | mk effects outcome =>
      cases outcome with
      | error exn => rfl
      | ok outcome => rfl

/-- With a result built, the end is in order exactly if verification goes on and does not
accept `null`. -/
theorem callsOnce_execute {msgObj : Json}
    (logged : logReceived (msgObj.get? "result") = .ok resultObj)
    (built : buildTaskResult env.parse (msgObj.get? "type") resultObj = .ok (.ok taskResult)) :
    CallsOnce (execute env msgObj) ↔ ∃ verifyError isVerified,
      (verifyResult env taskResult (msgObj.get? "contractAddress")).2 =
        .ok (verifyError, isVerified) ∧
      (isVerified = true → ∃ result, taskResult = some result) := by
  obtain ⟨noThrow, noCall⟩ :=
    @countP_verifyResult env (msgObj.get? "contractAddress") taskResult
  rw [execute_eq logged built, callsOnce_append noThrow noCall]
  cases (verifyResult env taskResult (msgObj.get? "contractAddress")).2 with
  | error exn =>
      refine iff_of_false (not_callsOnce_throws [] exn) ?_
      rintro ⟨_, _, same, -⟩
      cases same
  | ok outcome =>
      obtain ⟨verifyError, isVerified⟩ := outcome
      refine callsOnce_afterVerification.trans ⟨fun all => ⟨_, _, rfl, all⟩, ?_⟩
      rintro ⟨_, _, same, all⟩
      cases same
      exact all

/-- A complete result ends in order exactly if its id can be logged, or is not. -/
theorem callsOnce_execute_some {msgObj : Json} {result : Result}
    (logged : logReceived (msgObj.get? "result") = .ok resultObj)
    (built : buildTaskResult env.parse (msgObj.get? "type") resultObj = .ok (.ok (some result))) :
    CallsOnce (execute env msgObj) ↔ LogsId env (msgObj.get? "contractAddress") result := by
  rw [callsOnce_execute logged built, ← verifyResult_some_ok_iff]
  constructor
  · rintro ⟨_, _, ran, -⟩
    exact ⟨_, ran⟩
  · rintro ⟨⟨_, _⟩, ran⟩
    exact ⟨_, _, ran, fun _ => ⟨result, rfl⟩⟩

/-- A `null` ends in order exactly if it is left undecided. -/
theorem callsOnce_execute_none {msgObj : Json}
    (logged : logReceived (msgObj.get? "result") = .ok resultObj)
    (built : buildTaskResult env.parse (msgObj.get? "type") resultObj = .ok (.ok none)) :
    CallsOnce (execute env msgObj) ↔ Undecided env := by
  rw [callsOnce_execute logged built, ← verifyResult_none_iff]
  constructor
  · rintro ⟨verifyError, isVerified, ran, all⟩
    cases isVerified with
    | true => cases (all rfl).choose_spec
    | false => exact ⟨verifyError, ran⟩
  · rintro ⟨verifyError, ran⟩
    exact ⟨verifyError, false, ran, by nofun⟩

/-! ## What is built -/

/-- The first log line is written for a result whose id and status are text. -/
theorem logReceived_eq_ok {received : Option Json} :
    logReceived received = .ok resultObj ↔
      received = some resultObj ∧ resultObj ≠ .null ∧
        (∃ id, keyOf (resultObj.get? "taskId") = .ok id) ∧
        ∃ status, keyOf (resultObj.get? "status") = .ok status := by
  unfold logReceived
  constructor
  · intro logged
    split at logged
    · cases logged
    · cases logged
    · rename_i value notNull
      obtain ⟨id, isId, logged⟩ := bind_eq_ok.mp logged
      obtain ⟨status, isStatus, same⟩ := bind_eq_ok.mp logged
      cases same
      exact ⟨rfl, fun isNull => notNull isNull, ⟨id, isId⟩, status, isStatus⟩
  · rintro ⟨rfl, notNull, ⟨id, isId⟩, status, isStatus⟩
    cases resultObj with
    | null => exact absurd rfl notNull
    | _ => exact bind_eq_ok.mpr ⟨id, isId, bind_eq_ok.mpr ⟨status, isStatus, rfl⟩⟩

theorem buildResult_eq {parse : String → Except Exn Json} (cls : ResultClass) (value : Json) :
    buildResult parse cls (some value) = readResult parse value >>= buildFromValue cls := by
  cases value <;> rfl

theorem buildTaskResult_of_class {parse : String → Except Exn Json} {cls : ResultClass}
    (isClass : taskClass type resultObj = some cls) :
    buildTaskResult parse type resultObj =
      (readResult parse resultObj >>= buildFromValue cls).map .ok := by
  rw [← buildResult_eq]
  unfold taskClass at isClass
  unfold buildTaskResult
  split at isClass
  · rename_i failed
    cases isClass
    rw [if_pos failed]
    rfl
  · rename_i notFailed
    rw [if_neg notFailed]
    split at isClass
    · rename_i deploy
      cases isClass
      rw [if_pos deploy]
      rfl
    · rename_i notDeploy
      rw [if_neg notDeploy]
      split at isClass
      · rename_i compute
        cases isClass
        rw [if_pos compute]
        rfl
      · cases isClass

theorem buildTaskResult_of_no_class {parse : String → Except Exn Json}
    (noClass : taskClass type resultObj = none) :
    buildTaskResult parse type resultObj = (keyOf type).map fun text =>
      .error ("[VERIFY_TASK_RESULT] received unrecognized task type " ++ text ++
        ", task is dropped") := by
  unfold taskClass at noClass
  unfold buildTaskResult
  split at noClass
  · cases noClass
  · rename_i notFailed
    rw [if_neg notFailed]
    split at noClass
    · cases noClass
    · rename_i notDeploy
      rw [if_neg notDeploy]
      split at noClass
      · cases noClass
      · rename_i notCompute
        rw [if_neg notCompute]
        cases keyOf type <;> rfl

/-- A complete result is built from the fields of an object. -/
theorem buildFromValue_eq_some {cls : ResultClass} {value : Json} {result : Result} :
    buildFromValue cls value = .ok (some result) ↔
      ∃ fields, value = .obj fields ∧ HasExpected cls fields ∧
        result = Result.ofFields cls fields := by
  constructor
  · intro built
    cases value with
    | obj fields =>
        have picked := Except.ok.inj built
        split at picked
        · rename_i has
          exact ⟨fields, rfl, has, (Option.some.inj picked).symm⟩
        · cases picked
    | _ => cases built
  · rintro ⟨fields, rfl, has, rfl⟩
    rw [buildFromValue, if_pos has]

/-- `null` is built from arrays, and from objects that lack a property. -/
theorem buildFromValue_eq_none {cls : ResultClass} {value : Json} :
    buildFromValue cls value = .ok none ↔
      (∃ items, value = .arr items) ∨ ∃ fields, value = .obj fields ∧ ¬ HasExpected cls fields := by
  constructor
  · intro built
    cases value with
    | arr items => exact .inl ⟨items, rfl⟩
    | obj fields =>
        refine .inr ⟨fields, rfl, fun has => ?_⟩
        rw [buildFromValue, if_pos has] at built
        cases built
    | _ => cases built
  · rintro (⟨items, rfl⟩ | ⟨fields, rfl, lacks⟩)
    · rfl
    · rw [buildFromValue, if_neg lacks]

/-- What is built is read, and built from what was read. -/
theorem buildTaskResult_eq_ok {parse : String → Except Exn Json} :
    buildTaskResult parse type resultObj = .ok (.ok taskResult) ↔
      ∃ cls value, taskClass type resultObj = some cls ∧ readResult parse resultObj = .ok value ∧
        buildFromValue cls value = .ok taskResult := by
  cases isClass : taskClass type resultObj with
  | none =>
      rw [buildTaskResult_of_no_class isClass]
      refine iff_of_false ?_ (by nofun)
      cases keyOf type <;> nofun
  | some cls =>
      rw [buildTaskResult_of_class isClass]
      constructor
      · intro built
        cases outcome : readResult parse resultObj >>= buildFromValue cls with
        | error exn =>
            rw [outcome] at built
            cases built
        | ok result =>
            rw [outcome] at built
            cases built
            obtain ⟨value, reads, built⟩ := bind_eq_ok.mp outcome
            exact ⟨cls, value, rfl, reads, built⟩
      · rintro ⟨_, value, ⟨rfl⟩, reads, built⟩
        rw [bind_eq_ok.mpr ⟨value, reads, built⟩]
        rfl

/-! ## The end of a run -/

/-- A parsed message ends in order exactly if it has a result that is handled. -/
theorem callsOnce_execute_iff {msgObj : Json} :
    CallsOnce (execute env msgObj) ↔ ∃ resultObj id status,
      msgObj.get? "result" = some resultObj ∧ resultObj ≠ .null ∧
      keyOf (resultObj.get? "taskId") = .ok id ∧ keyOf (resultObj.get? "status") = .ok status ∧
      Handled env (msgObj.get? "type") (msgObj.get? "contractAddress") resultObj := by
  constructor
  · intro once
    cases logged : logReceived (msgObj.get? "result") with
    | error exn =>
        rw [execute, logged] at once
        exact absurd once (not_callsOnce_throws [] exn)
    | ok resultObj =>
        obtain ⟨received, notNull, ⟨id, isId⟩, status, isStatus⟩ := logReceived_eq_ok.mp logged
        refine ⟨resultObj, id, status, received, notNull, isId, isStatus, ?_⟩
        cases built : buildTaskResult env.parse (msgObj.get? "type") resultObj with
        | error exn =>
            simp only [execute, logged, built] at once
            exact absurd once (not_callsOnce_throws [] exn)
        | ok outcome =>
            cases outcome with
            | error text =>
                cases isClass : taskClass (msgObj.get? "type") resultObj with
                | none =>
                    rw [buildTaskResult_of_no_class isClass] at built
                    cases isText : keyOf (msgObj.get? "type") with
                    | error exn =>
                        rw [isText] at built
                        cases built
                    | ok text => exact .unknown text isClass isText
                | some cls =>
                    rw [buildTaskResult_of_class isClass] at built
                    cases outcome : readResult env.parse resultObj >>= buildFromValue cls with
                    | error exn =>
                        rw [outcome] at built
                        cases built
                    | ok result =>
                        rw [outcome] at built
                        cases built
            | ok taskResult =>
                obtain ⟨cls, value, isClass, reads, isBuilt⟩ := buildTaskResult_eq_ok.mp built
                cases taskResult with
                | none =>
                    have undecided := (callsOnce_execute_none logged built).mp once
                    exact .incomplete cls value isClass reads (buildFromValue_eq_none.mp isBuilt)
                      undecided
                | some result =>
                    have logs := (callsOnce_execute_some logged built).mp once
                    obtain ⟨fields, rfl, has, rfl⟩ := buildFromValue_eq_some.mp isBuilt
                    exact .complete cls fields isClass reads has logs
  · rintro ⟨resultObj, id, status, received, notNull, isId, isStatus, handled⟩
    have logged := logReceived_eq_ok.mpr ⟨received, notNull, ⟨id, isId⟩, status, isStatus⟩
    cases handled with
    | unknown text noClass isText =>
        have built := @buildTaskResult_of_no_class _ _ env.parse noClass
        rw [isText] at built
        simp only [execute, logged, built]
        exact ⟨rfl, rfl⟩
    | complete cls fields isClass reads has logs =>
        have built := buildTaskResult_eq_ok.mpr
          ⟨cls, _, isClass, reads, buildFromValue_eq_some.mpr ⟨fields, rfl, has, rfl⟩⟩
        exact (callsOnce_execute_some logged built).mpr logs
    | incomplete cls value isClass reads lacks undecided =>
        have built := buildTaskResult_eq_ok.mpr
          ⟨cls, value, isClass, reads, buildFromValue_eq_none.mpr lacks⟩
        exact (callsOnce_execute_none logged built).mpr undecided

/-- The core is updated with a complete result that changes the state, and that the verifier
accepted if there is one. -/
theorem of_updatesDb_execute {msgObj coreMsg : Json}
    (updates : .updatesDb coreMsg ∈ execute env msgObj) :
    ∃ result, HasResult env msgObj result ∧ ChangesState result ∧
      (env.hasEthereum = true → Accepts env.verifyTaskSubmission ∧
        ∃ localTip, .verifies (some result) (msgObj.get? "contractAddress") localTip ∈
          execute env msgObj) := by
  cases logged : logReceived (msgObj.get? "result") with
  | error exn =>
      rw [execute, logged] at updates
      simp at updates
  | ok resultObj =>
      cases built : buildTaskResult env.parse (msgObj.get? "type") resultObj with
      | error exn =>
          simp [execute, logged, built] at updates
      | ok outcome =>
          cases outcome with
          | error text => simp [execute, logged, built] at updates
          | ok taskResult =>
              rw [execute_eq logged built] at updates ⊢
              replace updates :=
                (List.mem_append.mp updates).resolve_left (not_updates_verifyResult coreMsg)
              cases ran : verifyResult env taskResult (msgObj.get? "contractAddress") with
              | mk effects outcome =>
                  rw [ran] at updates
                  cases outcome with
                  | error exn => simp at updates
                  | ok outcome =>
                      obtain ⟨verifyError, isVerified⟩ := outcome
                      obtain ⟨rfl, isMsg⟩ := of_updatesDb_afterVerification updates
                      cases taskResult with
                      | none => cases isMsg
                      | some result =>
                          obtain ⟨cls, value, isClass, reads, isBuilt⟩ :=
                            buildTaskResult_eq_ok.mp built
                          obtain ⟨fields, rfl, has, isResult⟩ := buildFromValue_eq_some.mp isBuilt
                          refine ⟨result, ⟨resultObj, cls, fields, (logReceived_eq_ok.mp logged).1,
                            isClass, reads, has, isResult⟩, changesState_of_buildIpcMsg isMsg, ?_⟩
                          intro ethereum
                          obtain ⟨_, localTip, ⟨rfl⟩, -, verifies, -, outcome⟩ :=
                            of_verifyResult ethereum ran (.inl rfl)
                          rcases outcome with ⟨-, -, accepts⟩ | ⟨notVerified, -⟩
                          · exact ⟨accepts, localTip, List.mem_append_left _ verifies⟩
                          · cases notVerified

/-- A payload meets an orderly end exactly if it is processable, whatever the tips, the
verifier, the core, the announcement and the store answer. -/
theorem endsInOrder_iff (env : Env) (data : String) :
    EndsInOrder env data ↔ Processable env data := by
  constructor
  · rintro ⟨once, -⟩
    cases parsed : env.parse data with
    | error exn =>
        rw [executeData, parsed] at once
        exact absurd once (not_callsOnce_throws [] exn)
    | ok msgObj =>
        rw [executeData, parsed] at once
        obtain ⟨resultObj, id, status, handled⟩ := callsOnce_execute_iff.mp once
        exact ⟨msgObj, resultObj, id, status, parsed, handled⟩
  · rintro ⟨msgObj, resultObj, id, status, parsed, handled⟩
    have same : executeData env data = execute env msgObj := by
      rw [executeData, parsed]
    refine ⟨?_, fun coreMsg updates => ?_⟩
    · rw [same]
      exact callsOnce_execute_iff.mpr ⟨resultObj, id, status, handled⟩
    · rw [same] at updates ⊢
      obtain ⟨result, has, changes, accepted⟩ := of_updatesDb_execute updates
      exact ⟨msgObj, result, parsed, has, changes, accepted⟩

end

/-! ## Three payloads -/

/-- A parser that knows one text. -/
def parseOnly (known : String) (value : Json) (text : String) : Except Exn Json :=
  if text = known then .ok value else .error .error

/-- The answer of `verifyTaskSubmission` for what is no result. -/
def wrongType : Verdict := ⟨false, some ⟨.typeErr, "Wrong task result type"⟩⟩

/-- A computation of which only the id and the status arrived. -/
def truncated : Json :=
  .obj [("type", .str CoreRequests.computeTask),
    ("result", .obj [("taskId", .str "0a"), ("status", .str TaskStatus.success)])]

def truncatedText : String :=
  "\x7b\"type\":\"ComputeTask\",\"result\":\x7b\"taskId\":\"0a\",\"status\":\"SUCCESS\"\x7d\x7d"

/-- No end is in order of a text that does not parse, of a message without result, and of a
computation without delta, of which the verifier says that it is none. -/
theorem endsInOrder_wrong :
    let env : Env := openEnv none (.ok wrongType)
    ¬ EndsInOrder { env with parse := parseOnly "\x7b\x7d" (.obj []) } "\x7b" ∧
    ¬ EndsInOrder { env with parse := parseOnly "\x7b\x7d" (.obj []) } "\x7b\x7d" ∧
    ¬ EndsInOrder { env with parse := parseOnly truncatedText truncated } truncatedText := by
  intro env
  refine ⟨?_, ?_, ?_⟩
  · rintro ⟨⟨noThrow, -⟩, -⟩
    exact absurd noThrow (by decide)
  · rintro ⟨⟨noThrow, -⟩, -⟩
    exact absurd noThrow (by decide)
  · rintro ⟨⟨noThrow, -⟩, -⟩
    exact absurd noThrow (by decide)

end Tasks
