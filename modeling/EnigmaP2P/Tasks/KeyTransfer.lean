import EnigmaP2P.Tasks.Task
import EnigmaP2P.Transition.Runs

/-!
# Verified tasks and the transfer of state keys

A task that is verified while a transfer of state keys (PTT) is in progress waits for the
end of the transfer; otherwise it is executed at once. A computation is sent to core when it
is executed, and a deployment starts a transfer for its contract and is sent when that one
has ended. The end of a transfer executes all waiting tasks one after the other, and then
the owner of the transfer goes on.

One label is one turn of the event loop: the code behind the `await` of a deployment runs
before anything else arrives.
-/

namespace Tasks

open Transition

/-- A verified task, with its number among these. -/
structure Arrival where
  serial : Nat
  task : Task
  deriving DecidableEq

/-- `task instanceof DeployTask`. -/
def Arrival.isDeploy (arrival : Arrival) : Bool :=
  match arrival.task with
  | .deploy .. => true
  | .compute _ => false

/-- The answer that a transfer waits for: the request of core, the response of the principal
node to it, and what core says about the response. -/
inductive PttStage where
  | request
  | principal
  | response
  deriving DecidableEq

/-- A transfer that is in progress; one that a new epoch started has no owner. -/
structure PttRound where
  owner : Option Arrival
  stage : PttStage
  deriving DecidableEq

/-- A request that was sent to core for a task, and whether a transfer was in progress. -/
structure TaskRequest where
  arrival : Arrival
  inPTT : Bool
  deriving DecidableEq

/-- The tasks that wait are the listeners for the end of the transfer. -/
structure PttState where
  pttInProgress : Bool
  waiting : List Arrival
  round : Option PttRound
  arrivals : Nat
  sent : List TaskRequest
  deriving DecidableEq

namespace PttState

def initial : PttState :=
  ⟨false, [], none, 0, []⟩

/-- The part of `ExecuteTaskAction` that sends the request. -/
def sendToCore (state : PttState) (arrival : Arrival) : PttState :=
  { state with sent := state.sent ++ [⟨arrival, state.pttInProgress⟩] }

/-- `GetStateKeysAction` up to its first request, with `startPTT`. If a transfer is in
progress, the answer is an error, which ends the execution of the owner. -/
def getStateKeys (state : PttState) (owner : Option Arrival) : PttState :=
  if state.pttInProgress then state
  else { state with pttInProgress := true, round := some ⟨owner, .request⟩ }

/-- `ExecuteTaskAction` up to its first `await`. -/
def executeTask (state : PttState) (arrival : Arrival) : PttState :=
  if arrival.isDeploy then state.getStateKeys (some arrival) else state.sendToCore arrival

/-- `HandleVerifiedTaskAction`. -/
def handleVerifiedTask (state : PttState) (task : Task) : PttState :=
  let arrival := ⟨state.arrivals, task⟩
  let state := { state with arrivals := state.arrivals + 1 }
  if state.pttInProgress then { state with waiting := state.waiting ++ [arrival] }
  else state.executeTask arrival

/-- `onPTTEnd`: the listeners that are registered run in their order, each once. -/
def onPTTEnd (state : PttState) : PttState :=
  state.waiting.foldl executeTask
    { state with pttInProgress := false, round := none, waiting := [] }

/-- What the owner of a transfer does when it has ended without error. -/
def resume (state : PttState) : Option Arrival → PttState
  | none => state
  | some owner => state.sendToCore owner

/-- An answer for the transfer in progress; an error ends it, and its owner stops. -/
def answer (state : PttState) (isError : Bool) : PttState :=
  match state.round with
  | none => state
  | some ⟨owner, stage⟩ =>
      if isError then state.onPTTEnd
      else match stage with
        | .request => { state with round := some ⟨owner, .principal⟩ }
        | .principal => { state with round := some ⟨owner, .response⟩ }
        | .response => state.onPTTEnd.resume owner

end PttState

inductive PttLabel where
  /-- `TASK_VERIFIED`. -/
  | verified (task : Task)
  /-- `NewEpoch`. -/
  | newEpoch
  | answer (isError : Bool)
  deriving DecidableEq

def pttStep (state : PttState) : PttLabel → PttState
  | .verified task => state.handleVerifiedTask task
  | .newEpoch => state.getStateKeys none
  | .answer isError => state.answer isError

/-! ## What should hold, and when -/

/-- The task was sent to core, owns the transfer in progress, or waits for its end. -/
def Placed (state : PttState) (arrival : Arrival) : Prop :=
  (∃ request ∈ state.sent, request.arrival = arrival) ∨
  (∃ stage, state.round = some ⟨some arrival, stage⟩) ∨ arrival ∈ state.waiting

/-- The label ends a transfer. -/
def EndsPTT (state : PttState) (label : PttLabel) : Prop :=
  ∃ round, state.round = some round ∧
    (label = .answer true ∨ label = .answer false ∧ round.stage = .response)

/-- The end of a transfer drops no waiting task, and no request for a task is sent while a
transfer is in progress. -/
structure PttRight (state : PttState) (label : PttLabel) : Prop where
  kept : EndsPTT state label → ∀ arrival ∈ state.waiting, Placed (pttStep state label) arrival
  quiet : ∀ request ∈ (pttStep state label).sent, request.inPTT = false

/-- When a transfer ends, at most the last waiting task is a deployment, and none is if the
transfer was one of a deployment. -/
def CleanPtt (state : PttState) : PttLabel → Prop
  | .answer false => ∀ owner, state.round = some ⟨owner, .response⟩ →
      (∀ arrival ∈ state.waiting.dropLast, arrival.isDeploy = false) ∧
      (owner ≠ none → ∀ arrival ∈ state.waiting, arrival.isDeploy = false)
  | _ => True

/-- Tasks wait only for a transfer in progress, each once; they have not been sent, and they
do not own it. -/
structure PttInv (state : PttState) : Prop where
  flag : state.pttInProgress = state.round.isSome
  waits : state.round = none → state.waiting = []
  nodup : state.waiting.Nodup
  unsent : ∀ arrival ∈ state.waiting, ∀ request ∈ state.sent, request.arrival ≠ arrival
  below : (∀ arrival ∈ state.waiting, arrival.serial < state.arrivals) ∧
    (∀ request ∈ state.sent, request.arrival.serial < state.arrivals) ∧
    ∀ owner stage, state.round = some ⟨some owner, stage⟩ → owner.serial < state.arrivals

theorem pttInv_initial : PttInv .initial where
  flag := rfl
  waits := fun _ => rfl
  nodup := .nil
  unsent := fun _ member => absurd member List.not_mem_nil
  below := ⟨List.forall_mem_nil _, List.forall_mem_nil _, fun _ _ same => nomatch same⟩

/-! ## The end of a transfer -/

section

variable {state : PttState}

/-- Computations that are executed one after the other are sent. -/
theorem foldl_computes {arrivals : List Arrival}
    (computes : ∀ arrival ∈ arrivals, arrival.isDeploy = false) :
    arrivals.foldl PttState.executeTask state =
      { state with sent := state.sent ++ arrivals.map (⟨·, state.pttInProgress⟩) } := by
  induction arrivals generalizing state with
  | nil => simp
  | cons arrival arrivals ih =>
      obtain ⟨first, later⟩ := List.forall_mem_cons.mp computes
      rw [List.foldl_cons, PttState.executeTask, if_neg (by rw [first]; nofun), ih later]
      simp [PttState.sendToCore]

/-- During a transfer, computations are sent all the same, and deployments are dropped. -/
theorem foldl_inPTT (inPTT : state.pttInProgress = true) (arrivals : List Arrival) :
    arrivals.foldl PttState.executeTask state =
      { state with
        sent := state.sent ++ (arrivals.filter (!·.isDeploy)).map (⟨·, true⟩) } := by
  induction arrivals generalizing state with
  | nil => simp
  | cons arrival arrivals ih =>
      rw [List.foldl_cons, PttState.executeTask]
      cases isDeploy : arrival.isDeploy with
      | true =>
          rw [if_pos rfl, PttState.getStateKeys, if_pos inPTT, ih inPTT]
          simp [isDeploy]
      | false =>
          have sends : (state.sendToCore arrival).pttInProgress = true := inPTT
          rw [if_neg nofun, ih sends]
          simp [PttState.sendToCore, isDeploy, inPTT]

/-- Either all waiting tasks are computations and are sent, or the first deployment starts a
transfer, during which the computations behind it are sent. -/
theorem onPTTEnd_cases (state : PttState) :
    ((∀ arrival ∈ state.waiting, arrival.isDeploy = false) ∧
      state.onPTTEnd =
        ⟨false, [], none, state.arrivals, state.sent ++ state.waiting.map (⟨·, false⟩)⟩) ∨
    ∃ before deploy after, state.waiting = before ++ deploy :: after ∧
      (∀ arrival ∈ before, arrival.isDeploy = false) ∧ deploy.isDeploy = true ∧
      state.onPTTEnd = ⟨true, [], some ⟨some deploy, .request⟩, state.arrivals,
        state.sent ++ before.map (⟨·, false⟩) ++
          (after.filter (!·.isDeploy)).map (⟨·, true⟩)⟩ := by
  cases found : state.waiting.find? (·.isDeploy) with
  | none =>
      have computes : ∀ arrival ∈ state.waiting, arrival.isDeploy = false := fun arrival member =>
        Bool.eq_false_of_not_eq_true (List.find?_eq_none.mp found arrival member)
      exact .inl ⟨computes, foldl_computes computes⟩
  | some deploy =>
      obtain ⟨isDeploy, before, after, split, computes⟩ := List.find?_eq_some_iff_append.mp found
      have noDeploy : ∀ arrival ∈ before, arrival.isDeploy = false := by
        intro arrival member
        have isCompute := computes arrival member
        rwa [Bool.not_eq_true'] at isCompute
      refine .inr ⟨before, deploy, after, split, noDeploy, isDeploy, ?_⟩
      rw [PttState.onPTTEnd, split, List.foldl_append, foldl_computes noDeploy, List.foldl_cons,
        PttState.executeTask, if_pos isDeploy, PttState.getStateKeys, if_neg nofun,
        foldl_inPTT rfl]

/-- Every request that the end of a transfer sends is one for a waiting task. -/
theorem arrival_of_onPTTEnd {request : TaskRequest} (sent : request ∈ state.onPTTEnd.sent) :
    request ∈ state.sent ∨ request.arrival ∈ state.waiting := by
  rcases onPTTEnd_cases state with ⟨-, ends⟩ | ⟨before, deploy, after, split, -, -, ends⟩
  · rw [ends] at sent
    simp only [List.mem_append, List.mem_map] at sent
    rcases sent with earlier | ⟨arrival, member, rfl⟩
    · exact .inl earlier
    · exact .inr member
  · rw [ends] at sent
    rw [split]
    simp only [List.mem_append, List.mem_map, List.mem_filter] at sent
    rcases sent with (earlier | ⟨arrival, member, rfl⟩) | ⟨arrival, ⟨member, -⟩, rfl⟩
    · exact .inl earlier
    · exact .inr (List.mem_append_left _ member)
    · exact .inr (List.mem_append_right _ (List.mem_cons_of_mem _ member))

theorem PttInv.onPTTEnd (inv : PttInv state) : PttInv state.onPTTEnd := by
  obtain ⟨waiting, sent, -⟩ := inv.below
  have below : ∀ request ∈ state.onPTTEnd.sent, request.arrival.serial < state.arrivals := by
    intro request isSent
    rcases arrival_of_onPTTEnd isSent with earlier | waited
    · exact sent request earlier
    · exact waiting _ waited
  rcases onPTTEnd_cases state with ⟨-, ends⟩ | ⟨before, deploy, after, split, -, -, ends⟩
  · rw [ends] at below ⊢
    exact ⟨rfl, fun _ => rfl, .nil, List.forall_mem_nil _, List.forall_mem_nil _, below,
      fun _ _ same => nomatch same⟩
  · rw [ends] at below ⊢
    refine ⟨rfl, fun _ => rfl, .nil, List.forall_mem_nil _, List.forall_mem_nil _, below, ?_⟩
    rintro owner stage ⟨⟩
    exact waiting deploy (split ▸ List.mem_append_right _ (List.mem_cons_self ..))

/-- A task with a new number is executed when no transfer is in progress. -/
theorem PttInv.executeTask (inv : PttInv state) (idle : state.pttInProgress = false)
    {arrival : Arrival} (isNew : arrival.serial = state.arrivals) :
    PttInv (PttState.executeTask { state with arrivals := state.arrivals + 1 } arrival) := by
  obtain ⟨waiting, sent, owners⟩ := inv.below
  have noRound : state.round = none :=
    Option.not_isSome_iff_eq_none.mp (inv.flag ▸ Bool.eq_false_iff.mp idle)
  have noWaiting : state.waiting = [] := inv.waits noRound
  have later : ∀ {serial}, serial < state.arrivals → serial < state.arrivals + 1 :=
    Nat.lt_succ_of_lt
  rw [PttState.executeTask]
  split
  · rw [PttState.getStateKeys, if_neg (by rw [idle]; nofun)]
    refine ⟨rfl, fun _ => noWaiting, inv.nodup, inv.unsent, ?_, ?_, ?_⟩
    · exact fun other member => later (waiting other member)
    · exact fun request member => later (sent request member)
    · rintro owner stage ⟨⟩
      exact Nat.lt_succ_of_le (Nat.le_of_eq isNew)
  · refine ⟨inv.flag, inv.waits, inv.nodup, ?_, ?_, ?_, ?_⟩
    · intro other member
      cases noWaiting ▸ member
    · exact fun other member => later (waiting other member)
    · intro request member
      rcases List.mem_append.mp member with earlier | now
      · exact later (sent request earlier)
      · cases List.mem_singleton.mp now
        exact Nat.lt_succ_of_le (Nat.le_of_eq isNew)
    · exact fun owner stage isOwner => later (owners owner stage isOwner)

theorem PttInv.handleVerifiedTask (inv : PttInv state) (task : Task) :
    PttInv (state.handleVerifiedTask task) := by
  rw [PttState.handleVerifiedTask]
  simp only []
  split
  · rename_i inPTT
    obtain ⟨waiting, sent, owners⟩ := inv.below
    have isNew : ∀ arrival ∈ state.waiting, arrival ≠ ⟨state.arrivals, task⟩ := by
      rintro arrival member rfl
      exact Nat.lt_irrefl _ (waiting _ member)
    refine ⟨inv.flag, ?_, ?_, ?_, ?_, ?_, ?_⟩
    · intro noRound
      rw [inv.flag, noRound] at inPTT
      cases inPTT
    · refine List.nodup_append.mpr ⟨inv.nodup, List.nodup_singleton _, ?_⟩
      intro arrival member other isOther same
      cases List.mem_singleton.mp isOther
      exact isNew arrival member same
    · intro arrival member request isSent
      rcases List.mem_append.mp member with earlier | now
      · exact inv.unsent arrival earlier request isSent
      · cases List.mem_singleton.mp now
        intro same
        have below := sent request isSent
        rw [same] at below
        exact Nat.lt_irrefl _ below
    · intro arrival member
      rcases List.mem_append.mp member with earlier | now
      · exact Nat.lt_succ_of_lt (waiting arrival earlier)
      · cases List.mem_singleton.mp now
        exact Nat.lt_succ_self _
    · exact fun request isSent => Nat.lt_succ_of_lt (sent request isSent)
    · exact fun owner stage isOwner => Nat.lt_succ_of_lt (owners owner stage isOwner)
  · rename_i idle
    exact inv.executeTask (Bool.eq_false_of_not_eq_true idle) rfl

/-- Nobody waits when the owner of the ended transfer goes on. -/
theorem PttInv.resume (inv : PttInv state) (noWaiting : state.waiting = []) {owner : Option Arrival}
    (below : ∀ arrival ∈ owner, arrival.serial < state.arrivals) : PttInv (state.resume owner) := by
  cases owner with
  | none => exact inv
  | some owner =>
      obtain ⟨waiting, sent, owners⟩ := inv.below
      refine ⟨inv.flag, inv.waits, inv.nodup, ?_, waiting, ?_, owners⟩
      · intro arrival member
        cases noWaiting ▸ member
      · intro request member
        rcases List.mem_append.mp member with earlier | now
        · exact sent request earlier
        · cases List.mem_singleton.mp now
          exact below owner rfl

/-- Whoever waited has been told. -/
theorem onPTTEnd_waiting (state : PttState) : state.onPTTEnd.waiting = [] := by
  rcases onPTTEnd_cases state with ⟨-, ends⟩ | ⟨before, deploy, after, -, -, -, ends⟩ <;> rw [ends]

theorem onPTTEnd_arrivals (state : PttState) : state.onPTTEnd.arrivals = state.arrivals := by
  rcases onPTTEnd_cases state with ⟨-, ends⟩ | ⟨before, deploy, after, -, -, -, ends⟩ <;> rw [ends]

theorem PttInv.step (inv : PttInv state) (label : PttLabel) : PttInv (pttStep state label) := by
  obtain ⟨waiting, sent, owners⟩ := inv.below
  cases label with
  | verified task => exact inv.handleVerifiedTask task
  | newEpoch =>
      rw [pttStep, PttState.getStateKeys]
      split
      · exact inv
      · rename_i idle
        have noRound : state.round = none := Option.not_isSome_iff_eq_none.mp (inv.flag ▸ idle)
        exact ⟨rfl, fun _ => inv.waits noRound, inv.nodup, inv.unsent, waiting, sent,
          fun _ _ same => nomatch same⟩
  | answer isError =>
      rw [pttStep, PttState.answer]
      split
      · exact inv
      · rename_i owner stage isRound
        have next : ∀ after, PttInv { state with round := some ⟨owner, after⟩ } := by
          intro after
          refine ⟨inv.flag.trans (by rw [isRound]; rfl), (fun same => nomatch same), inv.nodup,
            inv.unsent, waiting, sent, ?_⟩
          rintro _ _ ⟨⟩
          exact owners _ _ isRound
        split
        · exact inv.onPTTEnd
        · cases stage with
          | request => exact next .principal
          | principal => exact next .response
          | response =>
              refine inv.onPTTEnd.resume (onPTTEnd_waiting state) ?_
              rw [onPTTEnd_arrivals]
              rintro arrival ⟨⟩
              exact owners _ _ isRound

/-- The end of a transfer is right exactly if it starts none before a waiting task or the
owner is sent. -/
theorem onPTTEnd_right_iff (inv : PttInv state)
    (quiet : ∀ request ∈ state.sent, request.inPTT = false) (owner : Option Arrival) :
    ((∀ arrival ∈ state.waiting, Placed (state.onPTTEnd.resume owner) arrival) ∧
      ∀ request ∈ (state.onPTTEnd.resume owner).sent, request.inPTT = false) ↔
    (∀ arrival ∈ state.waiting.dropLast, arrival.isDeploy = false) ∧
      (owner ≠ none → ∀ arrival ∈ state.waiting, arrival.isDeploy = false) := by
  have resumed : ∀ ended : PttState,
      (∀ request ∈ (ended.resume owner).sent, request.inPTT = false) ↔
      (∀ request ∈ ended.sent, request.inPTT = false) ∧
        (owner ≠ none → ended.pttInProgress = false) := by
    intro ended
    cases owner with
    | none => simp [PttState.resume]
    | some owner =>
        simp only [PttState.resume, PttState.sendToCore, List.forall_mem_append,
          List.forall_mem_singleton]
        simp
  have stays : ∀ (ended : PttState) request, request ∈ ended.sent →
      request ∈ (ended.resume owner).sent := by
    intro ended request member
    cases owner with
    | none => exact member
    | some owner => exact List.mem_append_left _ member
  rw [resumed]
  rcases onPTTEnd_cases state with ⟨computes, ends⟩ | ⟨before, deploy, after, split, computes,
    isDeploy, ends⟩
  · refine iff_of_true ⟨?_, ?_, ?_⟩ ⟨?_, fun _ => computes⟩
    · intro arrival member
      refine .inl ⟨⟨arrival, false⟩, stays _ _ ?_, rfl⟩
      rw [ends]
      exact List.mem_append_right _ (List.mem_map.mpr ⟨arrival, member, rfl⟩)
    · rw [ends]
      intro request member
      rcases List.mem_append.mp member with earlier | now
      · exact quiet request earlier
      · obtain ⟨arrival, -, rfl⟩ := List.mem_map.mp now
        rfl
    · rw [ends]
      exact fun _ => rfl
    · exact fun arrival member => computes arrival (List.dropLast_subset _ member)
  · have clean : ((∀ arrival ∈ state.waiting.dropLast, arrival.isDeploy = false) ∧
        (owner ≠ none → ∀ arrival ∈ state.waiting, arrival.isDeploy = false)) ↔
        after = [] ∧ owner = none := by
      have noDeploy : ¬ ∀ arrival ∈ state.waiting, arrival.isDeploy = false := by
        intro all
        have isCompute := all deploy (split ▸ List.mem_append_right _ (List.mem_cons_self ..))
        exact Bool.false_ne_true (isCompute.symm.trans isDeploy)
      refine and_congr ?_ ⟨fun free => ?_, fun none owned => absurd none owned⟩
      · rw [split, List.dropLast_append_of_ne_nil (List.cons_ne_nil _ _)]
        cases after with
        | nil => simpa using computes
        | cons next rest =>
            refine iff_of_false (fun all => ?_) nofun
            have isCompute := all deploy (List.mem_append_right _ (List.mem_cons_self ..))
            exact Bool.false_ne_true (isCompute.symm.trans isDeploy)
      · by_contra owned
        exact noDeploy (free owned)
    rw [clean]
    constructor
    · rintro ⟨kept, noRequest, free⟩
      have noOwner : owner = none := by
        by_contra owned
        have idle := free owned
        rw [ends] at idle
        cases idle
      subst noOwner
      refine ⟨List.eq_nil_iff_forall_not_mem.mpr fun arrival member => ?_, rfl⟩
      have waits : arrival ∈ state.waiting :=
        split ▸ List.mem_append_right _ (List.mem_cons_of_mem _ member)
      rw [ends] at noRequest
      cases isCompute : arrival.isDeploy with
      | false =>
          -- a computation behind the deployment is sent during the new transfer
          have inPTT := noRequest ⟨arrival, true⟩ (List.mem_append_right _
            (List.mem_map.mpr ⟨arrival, List.mem_filter.mpr ⟨member, by rw [isCompute]; rfl⟩, rfl⟩))
          cases inPTT
      | true =>
          -- a second deployment is neither sent, nor the owner, nor waiting
          have placed := kept arrival waits
          rw [PttState.resume, ends] at placed
          rcases placed with ⟨request, isSent, isArrival⟩ | ⟨stage, isOwner⟩ | waits
          · rcases List.mem_append.mp isSent with earlier | later
            · rcases List.mem_append.mp earlier with earlier | now
              · exact inv.unsent arrival waits request earlier isArrival
              · obtain ⟨other, isBefore, rfl⟩ := List.mem_map.mp now
                have notDeploy := computes other isBefore
                rw [show other = arrival from isArrival, isCompute] at notDeploy
                cases notDeploy
            · obtain ⟨other, -, rfl⟩ := List.mem_map.mp later
              cases noRequest _ isSent
          · cases isOwner
            have once := inv.nodup
            rw [split] at once
            exact (List.nodup_cons.mp (List.nodup_append.mp once).2.1).1 member
          · cases waits
    · rintro ⟨rfl, rfl⟩
      rw [PttState.resume, ends]
      refine ⟨?_, ?_, fun owned => absurd rfl owned⟩
      · intro arrival member
        rw [split] at member
        rcases List.mem_append.mp member with isBefore | isLast
        · refine .inl ⟨⟨arrival, false⟩, List.mem_append_left _ (List.mem_append_right _ ?_), rfl⟩
          exact List.mem_map.mpr ⟨arrival, isBefore, rfl⟩
        · cases List.mem_singleton.mp isLast
          exact .inr (.inl ⟨.request, rfl⟩)
      · intro request member
        rcases List.mem_append.mp member with earlier | later
        · rcases List.mem_append.mp earlier with earlier | now
          · exact quiet request earlier
          · obtain ⟨arrival, -, rfl⟩ := List.mem_map.mp now
            rfl
        · cases later

/-- A label is right exactly if it is clean, where everything was right before. -/
theorem pttRight_iff (inv : PttInv state)
    (quiet : ∀ request ∈ state.sent, request.inPTT = false) {label : PttLabel}
    (succeeds : label ≠ .answer true) : PttRight state label ↔ CleanPtt state label := by
  have right : ¬ EndsPTT state label →
      (∀ request ∈ (pttStep state label).sent, request.inPTT = false) → PttRight state label :=
    fun notEnd noRequest => ⟨fun ends => absurd ends notEnd, noRequest⟩
  cases label with
  | verified task =>
      refine iff_of_true (right ?_ ?_) trivial
      · rintro ⟨round, -, isAnswer | ⟨isAnswer, -⟩⟩ <;> cases isAnswer
      · rw [pttStep, PttState.handleVerifiedTask]
        simp only []
        split
        · exact quiet
        · rename_i idle
          rw [PttState.executeTask]
          split
          · rw [PttState.getStateKeys, if_neg idle]
            exact quiet
          · intro request member
            rcases List.mem_append.mp member with earlier | now
            · exact quiet request earlier
            · cases List.mem_singleton.mp now
              exact Bool.eq_false_of_not_eq_true idle
  | newEpoch =>
      refine iff_of_true (right ?_ ?_) trivial
      · rintro ⟨round, -, isAnswer | ⟨isAnswer, -⟩⟩ <;> cases isAnswer
      · rw [pttStep, PttState.getStateKeys]
        split <;> exact quiet
  | answer isError =>
      obtain rfl : isError = false :=
        Bool.eq_false_of_not_eq_true fun isError => succeeds (isError ▸ rfl)
      cases isRound : state.round with
      | none =>
          refine iff_of_true (right ?_ ?_) ?_
          · rintro ⟨round, isSome, -⟩
            cases isRound.symm.trans isSome
          · rw [pttStep, PttState.answer, isRound]
            exact quiet
          · intro owner isSome
            cases isRound.symm.trans isSome
      | some round =>
          obtain ⟨owner, stage⟩ := round
          by_cases ends : stage = .response
          · subst ends
            have step : pttStep state (.answer false) = state.onPTTEnd.resume owner := by
              rw [pttStep, PttState.answer, isRound]
              rfl
            have clean : CleanPtt state (.answer false) ↔
                (∀ arrival ∈ state.waiting.dropLast, arrival.isDeploy = false) ∧
                (owner ≠ none → ∀ arrival ∈ state.waiting, arrival.isDeploy = false) := by
              constructor
              · exact fun clean => clean owner isRound
              · rintro clean _ isOwner
                cases isRound.symm.trans isOwner
                exact clean
            rw [clean, ← onPTTEnd_right_iff inv quiet owner, ← step]
            exact ⟨fun both => ⟨both.kept ⟨_, isRound, .inr ⟨rfl, rfl⟩⟩, both.quiet⟩,
              fun both => ⟨fun _ => both.1, both.2⟩⟩
          · refine iff_of_true (right ?_ ?_) ?_
            · rintro ⟨round, isSome, isAnswer | ⟨-, isResponse⟩⟩
              · cases isAnswer
              · cases isRound.symm.trans isSome
                exact ends isResponse
            · rw [pttStep, PttState.answer, isRound]
              cases stage with
              | request => exact quiet
              | principal => exact quiet
              | response => exact absurd rfl ends
            · intro owner' isResponse
              cases isRound.symm.trans isResponse
              exact absurd rfl ends

end

/-- The runs in which every transfer ends without error are right exactly if, whenever a
transfer ends, no deployment waits before another task or for another deployment. -/
theorem pttRight_run_iff {labels : List PttLabel}
    (succeed : ∀ label ∈ labels, label ≠ .answer true) :
    Meets PttRight pttStep .initial labels ↔ Meets CleanPtt pttStep .initial labels := by
  refine @meets_congr _ _ PttRight pttStep
    (fun state => PttInv state ∧ ∀ request ∈ state.sent, request.inPTT = false)
    (· ≠ .answer true) CleanPtt .initial ⟨pttInv_initial, List.forall_mem_nil _⟩
    ?_ ?_ labels succeed
  · exact fun state label inv succeeds => pttRight_iff inv.1 inv.2 succeeds
  · intro state label inv succeeds clean
    exact ⟨inv.1.step label, ((pttRight_iff inv.1 inv.2 succeeds).mpr clean).quiet⟩

def someDeployment : Task :=
  .deploy ⟨some "aa", some "bb", none, none, none, none, none⟩ none

def someComputation : Task :=
  .compute ⟨some "cc", some "bb", none, none, none, none, none⟩

/-- A new epoch starts a transfer, and before it ends these tasks are verified. -/
def waitingRun (tasks : List Task) : List PttLabel :=
  .newEpoch :: tasks.map .verified ++ [.answer false, .answer false, .answer false]

/-- The second of two waiting deployments is dropped, a computation that waits behind a
deployment is sent during its transfer, and so is a deployment that another one waited for. -/
theorem pttRight_run_wrong :
    ¬ Meets PttRight pttStep .initial (waitingRun [someDeployment, someDeployment]) ∧
    ¬ Meets PttRight pttStep .initial (waitingRun [someDeployment, someComputation]) ∧
    ¬ Meets PttRight pttStep .initial
      [.verified someDeployment, .verified someDeployment, .answer false, .answer false,
        .answer false] := by
  refine ⟨?_, ?_, ?_⟩
  · rintro ⟨-, -, -, -, -, ⟨kept, -⟩, -⟩
    rcases kept ⟨_, rfl, .inr ⟨rfl, rfl⟩⟩ ⟨1, someDeployment⟩ (by decide) with
      ⟨request, isSent, -⟩ | ⟨stage, isOwner⟩ | waits
    · cases isSent
    · cases isOwner
    · cases waits
  · rintro ⟨-, -, -, -, -, ⟨-, quiet⟩, -⟩
    exact absurd quiet (by decide)
  · rintro ⟨-, -, -, -, ⟨-, quiet⟩, -⟩
    exact absurd quiet (by decide)

theorem pttRight_run_iff_computations :
    Meets PttRight pttStep .initial (waitingRun [someComputation, someDeployment]) ↔
      Meets CleanPtt pttStep .initial (waitingRun [someComputation, someDeployment]) :=
  pttRight_run_iff (by decide)

end Tasks
