import EnigmaP2P.Ethereum.TaskEvents
import EnigmaP2P.Js.Object

/-!
# Delivery of events to listeners

The verifier keeps its listeners in two objects, one for creations and one for
submissions, under the ids of their tasks. A callback walks the ids, fires and deletes the
first listener that its event names, and returns. So an event with a map of tasks reaches
one listener, and the fee event none, because its id has a prefix that the ids of the
listeners do not have.
-/

namespace Ethereum

open Js Common

/-- A registered listener: the block number for its timeout, and whose it is. -/
structure Listener (ι : Type) where
  blockNumber : Nat
  owner : ι
  deriving DecidableEq

/-- `_unverifiedCreateTasks` or `_unverifiedSubmitTasks`. -/
abbrev Listeners (ι : Type) := List (String × Listener ι)

variable {ι ν : Type}

/-- `Object.keys` of the listeners. -/
def allTaskIds (listeners : Listeners ι) : List String :=
  (entries listeners).map (·.1)

/-- The loop of a callback: the first id for which the event has a notice. -/
def deliver (notice : String → Option ν) (listeners : Listeners ι) :
    Listeners ι × List (ι × ν) :=
  match (allTaskIds listeners).findSome? fun taskId => (notice taskId).map (taskId, ·) with
  | none => (listeners, [])
  | some (taskId, notice) =>
      match listeners.lookup taskId with
      | none => (listeners, [])
      | some listener => (deleteField taskId listeners, [(listener.owner, notice)])

/-- The two conditions of the loop of `_taskCreationEventCallback`. -/
def CreationEvent.noticeFor (event : CreationEvent) (taskId : String) : Option CreationNotice :=
  if event.taskId = some taskId then some event.notice
  else match event.tasks with
    | none => none
    | some tasks =>
        if hasProperty taskId tasks then some ((tasks.lookup taskId).getD .inherited) else none

/-- The condition of the loops of `_taskSubmissionEventCallback` and
`_taskDeployedContractEventCallback`. -/
def submissionNoticeFor (named : String) (notice : SubmissionNotice) (taskId : String) :
    Option SubmissionNotice :=
  if named = taskId then some notice else none

/-- The listeners of both kinds. -/
structure PendingListeners (ι : Type) where
  create : Listeners ι
  submit : Listeners ι

/-- What is fired: owners of both kinds with what their listeners are told. -/
structure Fired (ι : Type) where
  create : List (ι × CreationNotice)
  submit : List (ι × SubmissionNotice)

/-- The callback of an event. -/
def handleEvent (pending : PendingListeners ι) : TaskEvent → PendingListeners ι × Fired ι
  | .creation event =>
      let (create, fired) := deliver event.noticeFor pending.create
      (⟨create, pending.submit⟩, ⟨fired, []⟩)
  | .submission taskId notice | .deployment taskId notice =>
      let (submit, fired) := deliver (submissionNoticeFor taskId notice) pending.submit
      (⟨pending.create, submit⟩, ⟨[], fired⟩)

/-! ## Who should be reached -/

/-- Every listener under a named id is fired once and removed, and no other. -/
structure Reached (named : List String) (before after : Listeners ι)
    (fired : List (ι × ν)) : Prop where
  once : (fired.map (·.1)).Perm ((before.filter (·.1 ∈ named)).map (·.2.owner))
  rest : after = before.filter (·.1 ∉ named)

/-- Nothing happens to the listeners of the other kind. -/
def Untouched (before after : Listeners ι) (fired : List (ι × ν)) : Prop :=
  after = before ∧ fired = []

/-- An event that is delivered: one of the contract's, or one with a map of tasks. -/
inductive Delivery where
  | raw (event : RawTaskEvent)
  | tasks (taskId : Option String) (tasks : List (String × CreationNotice))
      (notice : CreationNotice)

namespace Delivery

/-- The event at the callback. -/
def event : Delivery → TaskEvent
  | raw event => parseEvent event
  | tasks taskId map notice => .creation ⟨taskId, some map, notice⟩

/-- The ids that are named, without prefix. -/
def named : Delivery → List String
  | raw event => [strip0x event.taskId]
  | tasks taskId map _ => taskId.toList ++ map.map (·.1)

/-- The ids of the contract have a prefix. -/
def Prefixed : Delivery → Prop
  | raw event => strip0x event.taskId ≠ event.taskId
  | tasks .. => True

/-- The event is about the creation of tasks. -/
def IsCreation : Delivery → Prop
  | raw (.taskRecordCreated ..) | raw (.taskFeeReturned _) | tasks .. => True
  | raw _ => False

end Delivery

/-- The listeners of the event's kind are reached, those of the other kind are not. -/
def DeliveredRight (pending : PendingListeners ι) (delivery : Delivery) : Prop :=
  let (after, fired) := handleEvent pending delivery.event
  (delivery.IsCreation → Reached delivery.named pending.create after.create fired.create ∧
    Untouched pending.submit after.submit fired.submit) ∧
  (¬ delivery.IsCreation → Reached delivery.named pending.submit after.submit fired.submit ∧
    Untouched pending.create after.create fired.create)

/-- No one waits for a fee event, and a map of tasks names one listener at most. -/
def DeliveryHarmless (pending : PendingListeners ι) : Delivery → Prop
  | .raw (.taskFeeReturned taskId) => pending.create.lookup (strip0x taskId) = none
  | .raw _ => True
  | .tasks taskId tasks _ =>
      (pending.create.filter (·.1 ∈ taskId.toList ++ tasks.map (·.1))).length ≤ 1

/-- The ids of the listeners: distinct texts without prefix, and not the names of
properties that every object has. -/
structure HasTaskIds (listeners : Listeners ι) : Prop where
  distinct : (listeners.map (·.1)).Nodup
  plain : ∀ entry ∈ listeners, strip0x entry.1 = entry.1 ∧ entry.1 ∉ objectPrototype

/-! ## One loop -/

theorem mem_allTaskIds {listeners : Listeners ι} {taskId : String} :
    taskId ∈ allTaskIds listeners ↔ taskId ∈ listeners.map (·.1) :=
  ((entries_perm listeners).map (·.1)).mem_iff

/-- A loop does nothing if the event names no listener. -/
theorem deliver_eq_none {notice : String → Option ν} {listeners : Listeners ι}
    (silent : ∀ entry ∈ listeners, notice entry.1 = none) :
    deliver notice listeners = (listeners, []) := by
  have nothing : (allTaskIds listeners).findSome? (fun taskId => (notice taskId).map (taskId, ·)) =
      none := by
    rw [List.findSome?_eq_none_iff]
    intro taskId member
    obtain ⟨entry, listed, rfl⟩ := List.mem_map.mp (mem_allTaskIds.mp member)
    rw [silent entry listed]
    rfl
  rw [deliver, nothing]

/-- A loop fires a listener that the event names, if there is one. -/
theorem deliver_eq_some {notice : String → Option ν} {listeners : Listeners ι}
    {entry : String × Listener ι} (listed : entry ∈ listeners) (named : notice entry.1 ≠ none) :
    ∃ taskId listener told, notice taskId = some told ∧
      listeners.lookup taskId = some listener ∧
      deliver notice listeners = (deleteField taskId listeners, [(listener.owner, told)]) := by
  cases found : (allTaskIds listeners).findSome? fun taskId => (notice taskId).map (taskId, ·) with
  | none =>
      have silent := List.findSome?_eq_none_iff.mp found entry.1
        (mem_allTaskIds.mpr (List.mem_map_of_mem listed))
      exact absurd (Option.map_eq_none_iff.mp silent) named
  | some first =>
      obtain ⟨id, member, isFirst⟩ := List.exists_of_findSome?_eq_some found
      obtain ⟨told, isTold, rfl⟩ := Option.map_eq_some_iff.mp isFirst
      cases looked : listeners.lookup id with
      | none => exact absurd (mem_allTaskIds.mp member) (not_mem_of_lookup_eq_none looked)
      | some listener =>
          refine ⟨id, listener, told, isTold, looked, ?_⟩
          rw [deliver, found]
          simp only [looked]

/-- A loop over one listener. -/
theorem deliver_singleton (notice : String → Option ν) (taskId : String) (listener : Listener ι) :
    deliver notice [(taskId, listener)] = match notice taskId with
      | none => ([(taskId, listener)], [])
      | some told => ([], [(listener.owner, told)]) := by
  cases told : notice taskId with
  | none => exact deliver_eq_none (by simpa using told)
  | some told' =>
      have hasNotice : notice taskId ≠ none := told ▸ Option.some_ne_none told'
      obtain ⟨id, found, told'', isTold, looked, same⟩ :=
        deliver_eq_some (List.mem_singleton_self (taskId, listener)) hasNotice
      cases List.mem_singleton.mp (mem_of_lookup_eq_some looked)
      cases told.symm.trans isTold
      rw [same]
      simp [deleteField]

/-- A loop reaches everyone that it should exactly if it should reach one at most. -/
theorem deliver_reached_iff {notice : String → Option ν} {listeners : Listeners ι}
    {named : List String}
    (names : ∀ entry ∈ listeners, notice entry.1 ≠ none ↔ entry.1 ∈ named) :
    Reached named listeners (deliver notice listeners).1 (deliver notice listeners).2 ↔
      (listeners.filter (·.1 ∈ named)).length ≤ 1 := by
  by_cases someone : ∃ entry ∈ listeners, entry.1 ∈ named
  · obtain ⟨entry, listed, isNamed⟩ := someone
    obtain ⟨taskId, listener, told, isTold, looked, delivered⟩ :=
      deliver_eq_some listed ((names entry listed).mpr isNamed)
    have fires : (taskId, listener) ∈ listeners.filter (·.1 ∈ named) := by
      refine List.mem_filter.mpr ⟨mem_of_lookup_eq_some looked, decide_eq_true ?_⟩
      exact (names _ (mem_of_lookup_eq_some looked)).mp (isTold ▸ Option.some_ne_none told)
    rw [delivered]
    constructor
    · rintro ⟨once, -⟩
      have lengths := once.length_eq
      simp only [List.length_map, List.length_singleton] at lengths
      omega
    · intro atMost
      obtain ⟨only, isOnly⟩ : ∃ only, listeners.filter (·.1 ∈ named) = [only] :=
        List.length_eq_one_iff.mp (Nat.le_antisymm atMost (List.length_pos_of_mem fires))
      obtain rfl := List.mem_singleton.mp (isOnly ▸ fires)
      refine ⟨by rw [isOnly]; rfl, List.filter_congr fun other member => ?_⟩
      rw [decide_eq_decide]
      constructor
      · rintro differs isNamed'
        have same : other ∈ listeners.filter (·.1 ∈ named) :=
          List.mem_filter.mpr ⟨member, decide_eq_true isNamed'⟩
        rw [isOnly] at same
        exact differs (congrArg Prod.fst (List.mem_singleton.mp same))
      · rintro notNamed rfl
        exact notNamed (of_decide_eq_true (List.mem_filter.mp fires).2)
  · have none : ∀ entry ∈ listeners, ¬ entry.1 ∈ named :=
      fun entry listed isNamed => someone ⟨entry, listed, isNamed⟩
    have empty : listeners.filter (·.1 ∈ named) = [] :=
      List.filter_eq_nil_iff.mpr fun entry listed => by simpa using none entry listed
    have silent : ∀ entry ∈ listeners, notice entry.1 = .none :=
      fun entry listed => not_not.mp (mt (names entry listed).mp (none entry listed))
    rw [deliver_eq_none silent, empty]
    refine iff_of_true ⟨by rw [empty]; exact .nil, ?_⟩ (Nat.zero_le 1)
    exact (List.filter_eq_self.mpr fun entry listed => decide_eq_true (none entry listed)).symm

/-! ## Which ids an event reaches -/

theorem submissionNoticeFor_ne_none {named taskId : String} {notice : SubmissionNotice} :
    submissionNoticeFor named notice taskId ≠ none ↔ taskId ∈ [named] := by
  rw [submissionNoticeFor, List.mem_singleton]
  split
  · rename_i same
    exact iff_of_true (Option.some_ne_none _) same.symm
  · rename_i differs
    exact iff_of_false (not_not.mpr rfl) (fun same => differs same.symm)

/-- A creation event has a notice for the id that it names and the keys of its map. -/
theorem noticeFor_ne_none {event : CreationEvent} {taskId : String}
    (plain : taskId ∉ objectPrototype) :
    event.noticeFor taskId ≠ none ↔
      taskId ∈ event.taskId.toList ++ (event.tasks.getD []).map (·.1) := by
  rw [CreationEvent.noticeFor, List.mem_append, Option.mem_toList]
  split
  · rename_i same
    exact iff_of_true (Option.some_ne_none _) (.inl same)
  · rename_i differs
    cases isTasks : event.tasks with
    | none =>
        refine iff_of_false (not_not.mpr rfl) ?_
        rintro (same | member)
        · exact differs same
        · cases member
    | some tasks =>
        simp only [Option.getD_some, hasProperty_eq_isSome plain]
        cases found : tasks.lookup taskId with
        | none =>
            refine iff_of_false (not_not.mpr rfl) ?_
            rintro (same | member)
            · exact differs same
            · exact not_mem_of_lookup_eq_none found member
        | some notice =>
            refine iff_of_true (Option.some_ne_none _) (.inr ?_)
            exact List.mem_map_of_mem (mem_of_lookup_eq_some found)

/-- Under distinct ids, one name reaches one listener at most. -/
theorem filter_single_le {listeners : Listeners ι} (distinct : (listeners.map (·.1)).Nodup)
    (taskId : String) : (listeners.filter (·.1 ∈ [taskId])).length ≤ 1 := by
  have counted : (listeners.filter (·.1 ∈ [taskId])).length =
      (listeners.map (·.1)).count taskId := by
    rw [List.count_eq_countP, List.countP_map, List.countP_eq_length_filter]
    congr 1
    refine List.filter_congr fun entry _ => ?_
    simp only [List.mem_singleton, Function.comp_apply, beq_eq_decide]
  rw [counted]
  exact List.nodup_iff_count_le_one.mp distinct taskId

/-- An event of the submission kind reaches the listener under its id, if there is one. -/
theorem deliver_submission_reached {listeners : Listeners ι}
    (distinct : (listeners.map (·.1)).Nodup) (named : String) (notice : SubmissionNotice) :
    Reached [named] listeners (deliver (submissionNoticeFor named notice) listeners).1
      (deliver (submissionNoticeFor named notice) listeners).2 :=
  (deliver_reached_iff fun _ _ => submissionNoticeFor_ne_none).mpr (filter_single_le distinct named)

/-- A creation event reaches everyone that it names exactly if that is one at most. -/
theorem deliver_creation_reached_iff {listeners : Listeners ι} (ids : HasTaskIds listeners)
    (event : CreationEvent) :
    Reached (event.taskId.toList ++ (event.tasks.getD []).map (·.1)) listeners
        (deliver event.noticeFor listeners).1 (deliver event.noticeFor listeners).2 ↔
      (listeners.filter
        (·.1 ∈ event.taskId.toList ++ (event.tasks.getD []).map (·.1))).length ≤ 1 :=
  deliver_reached_iff fun entry listed => noticeFor_ne_none (ids.plain entry listed).2

/-- An id with a prefix is no listener's, so a fee event reaches no one. -/
theorem deliver_prefixed {listeners : Listeners ι} (ids : HasTaskIds listeners)
    {taskId : String} (isPrefixed : strip0x taskId ≠ taskId) (notice : CreationNotice) :
    deliver (CreationEvent.noticeFor ⟨some taskId, none, notice⟩) listeners = (listeners, []) := by
  refine deliver_eq_none fun entry listed => ?_
  rw [CreationEvent.noticeFor, if_neg]
  rintro same
  rw [Option.some.inj same] at isPrefixed
  exact isPrefixed (ids.plain entry listed).1

/-- Where nothing happens, everyone is reached exactly if no one is named. -/
theorem reached_nothing_iff {named : List String} {listeners : Listeners ι} :
    Reached named listeners listeners ([] : List (ι × ν)) ↔
      ∀ entry ∈ listeners, entry.1 ∉ named := by
  constructor
  · rintro ⟨-, rest⟩ entry listed
    rw [rest] at listed
    exact of_decide_eq_true (List.mem_filter.mp listed).2
  · intro absent
    constructor
    · rw [List.filter_eq_nil_iff.mpr fun entry listed => by simpa using absent entry listed]
      exact .nil
    · exact (List.filter_eq_self.mpr fun entry listed => decide_eq_true (absent entry listed)).symm

/-- So a fee event is delivered as it should be if no one waits for it. -/
theorem deliver_fee_reached_iff {listeners : Listeners ι} (ids : HasTaskIds listeners)
    {taskId : String} (isPrefixed : strip0x taskId ≠ taskId) (notice : CreationNotice) :
    Reached [strip0x taskId] listeners
        (deliver (CreationEvent.noticeFor ⟨some taskId, none, notice⟩) listeners).1
        (deliver (CreationEvent.noticeFor ⟨some taskId, none, notice⟩) listeners).2 ↔
      listeners.lookup (strip0x taskId) = none := by
  rw [deliver_prefixed ids isPrefixed, reached_nothing_iff]
  constructor
  · intro absent
    refine lookup_eq_none_of_not_mem fun member => ?_
    obtain ⟨entry, listed, isNamed⟩ := List.mem_map.mp member
    exact absent entry listed (List.mem_singleton.mpr isNamed)
  · intro absent entry listed isNamed
    refine not_mem_of_lookup_eq_none absent ?_
    rw [← List.mem_singleton.mp isNamed]
    exact List.mem_map_of_mem listed

/-- A creation event is delivered right if it reaches its listeners: no callback touches the
listeners of the other kind. -/
theorem deliveredRight_creation {pending : PendingListeners ι} (delivery : Delivery)
    (creation : delivery.IsCreation) {event : CreationEvent}
    (isEvent : delivery.event = .creation event) :
    DeliveredRight pending delivery ↔
      Reached delivery.named pending.create (deliver event.noticeFor pending.create).1
        (deliver event.noticeFor pending.create).2 := by
  rw [DeliveredRight, isEvent]
  constructor
  · rintro ⟨right, -⟩
    exact (right creation).1
  · intro reached
    exact ⟨fun _ => ⟨reached, rfl, rfl⟩, fun other => absurd creation other⟩

/-- The events about submissions and deployments are delivered right. -/
theorem deliveredRight_submission {pending : PendingListeners ι} {event : RawTaskEvent}
    (submit : HasTaskIds pending.submit) (other : ¬ (Delivery.raw event).IsCreation)
    {notice : SubmissionNotice}
    (isEvent : parseEvent event = .submission (strip0x event.taskId) notice ∨
      parseEvent event = .deployment (strip0x event.taskId) notice) :
    DeliveredRight pending (.raw event) := by
  have reached := deliver_submission_reached submit.distinct (strip0x event.taskId) notice
  rw [DeliveredRight, Delivery.event]
  rcases isEvent with isEvent | isEvent
  · rw [isEvent]
    exact ⟨fun creation => absurd creation other, fun _ => ⟨reached, rfl, rfl⟩⟩
  · rw [isEvent]
    exact ⟨fun creation => absurd creation other, fun _ => ⟨reached, rfl, rfl⟩⟩

/-- Every listener of an event's kind under an id that it names is fired once and removed,
and every other one is left alone, exactly if the event is not a fee event for a listener
and does not name two listeners. -/
theorem deliveredRight_iff {pending : PendingListeners ι} (create : HasTaskIds pending.create)
    (submit : HasTaskIds pending.submit) {delivery : Delivery} (isPrefixed : delivery.Prefixed) :
    DeliveredRight pending delivery ↔ DeliveryHarmless pending delivery := by
  cases delivery with
  | tasks taskId map notice =>
      rw [deliveredRight_creation (.tasks taskId map notice) trivial rfl]
      exact deliver_creation_reached_iff create ⟨taskId, some map, notice⟩
  | raw event =>
      cases event with
      | taskRecordCreated taskId inputsHash gasLimit blockNumber =>
          rw [deliveredRight_creation (.raw (.taskRecordCreated ..)) trivial rfl]
          refine iff_of_true ?_ trivial
          exact (deliver_creation_reached_iff create
            ⟨some (strip0x taskId), none, .taskCreation inputsHash gasLimit blockNumber⟩).mpr
              (filter_single_le create.distinct _)
      | taskFeeReturned taskId =>
          rw [deliveredRight_creation (.raw (.taskFeeReturned taskId)) trivial rfl]
          exact deliver_fee_reached_iff create isPrefixed .taskCancelled
      | receiptVerified taskId stateDeltaHash outputHash deltaHashIndex =>
          exact iff_of_true (deliveredRight_submission submit id (.inl rfl)) trivial
      | receiptFailed taskId outputHash =>
          exact iff_of_true (deliveredRight_submission submit id (.inl rfl)) trivial
      | receiptFailedETH taskId =>
          exact iff_of_true (deliveredRight_submission submit id (.inl rfl)) trivial
      | secretContractDeployed taskId codeHash initStateDeltaHash =>
          exact iff_of_true (deliveredRight_submission submit id (.inr rfl)) trivial

/-- Creations of the tasks `aa` and `bb` and a submission of `aa` are waited for. -/
def threeListeners : PendingListeners Nat where
  create := [("aa", ⟨1, 0⟩), ("bb", ⟨1, 1⟩)]
  submit := [("aa", ⟨1, 2⟩)]

theorem threeListeners_ids : HasTaskIds threeListeners.create ∧ HasTaskIds threeListeners.submit :=
  ⟨⟨by decide, by decide⟩, by decide, by decide⟩

theorem prefixed_aa : strip0x "0xaa" ≠ "0xaa" := by decide

/-- A map of both tasks reaches one listener, and the fee event of `aa` reaches none. -/
theorem deliveredRight_iff_three :
    (DeliveredRight threeListeners (.raw (.receiptVerified "0xaa" "0x01" "0x02" 0)) ↔ True) ∧
    (DeliveredRight threeListeners (.raw (.taskFeeReturned "0xaa")) ↔
      threeListeners.create.lookup "aa" = none) ∧
    (DeliveredRight threeListeners
        (.tasks none [("aa", .taskCancelled), ("bb", .taskCancelled)] .taskCancelled) ↔
      (2 ≤ 1)) :=
  ⟨deliveredRight_iff threeListeners_ids.1 threeListeners_ids.2 prefixed_aa,
    deliveredRight_iff threeListeners_ids.1 threeListeners_ids.2 prefixed_aa,
    deliveredRight_iff threeListeners_ids.1 threeListeners_ids.2 trivial⟩

/-- No listener is told of the cancellation of `aa`, and one of the two of a map is not told
either. -/
theorem deliveries_missed :
    ¬ DeliveredRight threeListeners (.raw (.taskFeeReturned "0xaa")) ∧
    ¬ DeliveredRight threeListeners
        (.tasks none [("aa", .taskCancelled), ("bb", .taskCancelled)] .taskCancelled) := by
  constructor
  · rw [deliveredRight_creation (.raw (.taskFeeReturned "0xaa")) trivial rfl]
    refine mt (deliver_fee_reached_iff threeListeners_ids.1 prefixed_aa .taskCancelled).mp ?_
    decide
  · rw [deliveredRight_creation (.tasks none _ _) trivial rfl]
    refine mt (deliver_creation_reached_iff threeListeners_ids.1 ⟨none, some _, _⟩).mp ?_
    decide

end Ethereum
