import EnigmaP2P.Transition.Runs

/-!
# The start of a worker

`InitWorkerAction` syncs, announces the local state, subscribes to events and to the worker's own
topic, and registers with the contract, one after the other. It is run by a command, or when the
node connects to a peer. Two flags of the controller say whether an initialization is in progress
and whether there has been one. Whether the node has an Ethereum API does not change.

The flags are common to all initializations. The one that ends first sets them for the others,
and one that ends with an error sets them too, so it is not repeated.
-/

namespace Startup

open Transition

/-- What the action has other actions do. -/
inductive Command where
  | receiveAll
  | announceLocalState
  | onNewEpoch
  | selfKeySubscribe
  | getEthWorkerParam
  | register
  deriving DecidableEq

/-- What the waterfall waits for. -/
inductive Phase where
  | syncState
  | announceState
  | workerParams
  | registration
  | ended
  deriving DecidableEq

/-- An execution of the action, with the calls of its callback, if it was given one; `none` is
`null`. -/
structure InitWorker (ε : Type) where
  phase : Phase
  commands : List Command
  calls : List (Option ε)

structure Node (ε : Type) where
  workerInitialized : Bool
  workerInitInProgress : Bool
  inits : List (InitWorker ε)

namespace EthereumWorkerStatus

def unregistered : Nat := 0
def loggedIn : Nat := 1
def loggedOut : Nat := 2

end EthereumWorkerStatus

inductive WorkerStatus where
  | initializing
  | unregistered
  | registered
  | loggedIn
  deriving DecidableEq

variable {ε : Type}

namespace InitWorker

/-- The last callback of the waterfall. -/
def done (err : Option ε) (init : InitWorker ε) : InitWorker ε :=
  { init with phase := .ended, calls := init.calls ++ [err] }

def execCmd (command : Command) (phase : Phase) (init : InitWorker ε) : InitWorker ε :=
  { init with phase, commands := init.commands ++ [command] }

/-- `syncState`. -/
def syncState (hasEthereum : Bool) : InitWorker ε :=
  if hasEthereum then execCmd .receiveAll .syncState ⟨.syncState, [], []⟩
  else execCmd .announceLocalState .announceState ⟨.syncState, [], []⟩

/-- `registerWorker` up to the parameters of the worker. -/
def registerWorker (hasEthereum : Bool) (init : InitWorker ε) : InitWorker ε :=
  if hasEthereum then execCmd .getEthWorkerParam .workerParams init else done none init

/-- `backgroundServices`. -/
def backgroundServices (hasEthereum : Bool) (init : InitWorker ε) : InitWorker ε :=
  let init := if hasEthereum then execCmd .onNewEpoch .announceState init else init
  registerWorker hasEthereum (execCmd .selfKeySubscribe .announceState init)

/-- `onEnd` of the sync. -/
def synced (err : Option ε) (init : InitWorker ε) : InitWorker ε :=
  match err with
  | some err => done (some err) init
  | none => execCmd .announceLocalState .announceState init

/-- `onResponse` of the announcement. -/
def announced (hasEthereum : Bool) (err : Option ε) (init : InitWorker ε) : InitWorker ε :=
  match err with
  | some err => done (some err) init
  | none => backgroundServices hasEthereum init

/-- The status of the worker is there, or an error, which is only logged. A status that is no
number is `none`. -/
def paramsRead (workerParams : Except ε (Option Nat)) (init : InitWorker ε) : InitWorker ε :=
  match workerParams with
  | .error _ => done none init
  | .ok status =>
      if status = some EthereumWorkerStatus.loggedIn ∨ status = some EthereumWorkerStatus.loggedOut
      then done none init
      else execCmd .register .registration init

end InitWorker

namespace Node

def initial : Node ε := ⟨false, false, []⟩

def canInitWorker (node : Node ε) : Bool :=
  !node.workerInitialized && !node.workerInitInProgress

/-- `execute` of the action. -/
def initWorker (hasEthereum : Bool) (node : Node ε) : Node ε :=
  if node.workerInitialized then { node with inits := node.inits ++ [⟨.ended, [], [none]⟩] }
  else { node with
    workerInitInProgress := true
    inits := node.inits ++ [.syncState hasEthereum] }

/-- An execution that waits in the phase goes on. A second call of its callback throws. -/
def goOn (i : Nat) (phase : Phase) (next : InitWorker ε → InitWorker ε) (node : Node ε) :
    Node ε :=
  match node.inits[i]? with
  | some init =>
      if init.phase = phase then
        let init := next init
        let node := { node with inits := node.inits.set i init }
        if init.phase = .ended then
          { node with workerInitialized := true, workerInitInProgress := false }
        else node
      else node
  | none => node

end Node

/-- The command, a new peer, and the answers to the executions. -/
inductive NodeLabel (ε : Type) where
  | initWorker
  | newPeer
  | synced (i : Nat) (err : Option ε)
  | announced (i : Nat) (err : Option ε)
  | paramsRead (i : Nat) (workerParams : Except ε (Option Nat))
  | registered (i : Nat) (err : Option ε)

section

variable (hasEthereum autoInit : Bool)

def nodeStep (node : Node ε) : NodeLabel ε → Node ε
  | .initWorker => node.initWorker hasEthereum
  | .newPeer => if autoInit && node.canInitWorker then node.initWorker hasEthereum else node
  | .synced i err => node.goOn i .syncState (.synced err)
  | .announced i err => node.goOn i .announceState (.announced hasEthereum err)
  | .paramsRead i workerParams => node.goOn i .workerParams (.paramsRead workerParams)
  | .registered i _ => node.goOn i .registration (.done none)

/-- `GetStatusAction`, with the status that it reads from the chain. -/
def getStatus (node : Node ε) (workerParams : Except ε (Option Nat)) :
    Option ε × Option WorkerStatus :=
  if node.workerInitInProgress then (none, some .initializing)
  else match workerParams with
    | .error err => (some err, none)
    | .ok status => (none,
        if status = some EthereumWorkerStatus.unregistered then some .unregistered
        else if status = some EthereumWorkerStatus.loggedIn then some .loggedIn
        else if status = some EthereumWorkerStatus.loggedOut then some .registered
        else none)

/-! ## What every start does -/

/-- The commands of an execution that goes through. -/
def allCommands : List Command :=
  if hasEthereum then [.receiveAll, .announceLocalState, .onNewEpoch, .selfKeySubscribe,
    .getEthWorkerParam, .register]
  else [.announceLocalState, .selfKeySubscribe]

/-- The commands come in order, each after the answers that it depends on; the callback is called
once, at the end, with an error exactly if the sync or the announcement failed. -/
structure InitRight (labels : List (NodeLabel ε)) (i : Nat) (init : InitWorker ε) : Prop where
  ordered : init.commands <+: allCommands hasEthereum
  announces : .announceLocalState ∈ init.commands → hasEthereum = true →
    .synced i none ∈ labels
  subscribes : .selfKeySubscribe ∈ init.commands → .announced i none ∈ labels
  registers : .register ∈ init.commands → ∃ status, .paramsRead i (.ok status) ∈ labels ∧
    status ≠ some EthereumWorkerStatus.loggedIn ∧ status ≠ some EthereumWorkerStatus.loggedOut
  pending : init.phase ≠ .ended → init.calls = []
  failed : ∀ err, some err ∈ init.calls → .selfKeySubscribe ∉ init.commands ∧
    (.synced i (some err) ∈ labels ∨ .announced i (some err) ∈ labels)
  succeeded : none ∈ init.calls → init.commands = [] ∨ .selfKeySubscribe ∈ init.commands
  once : init.phase = .ended → ∃ err, init.calls = [err]

/-- The command is run only where an initialization can be. A new peer sees to that itself. -/
def Guarded (node : Node ε) (label : NodeLabel ε) : Prop :=
  match label with
  | .initWorker => node.canInitWorker = true
  | _ => True

/-- The node after a run. An initialization that has ended, with or without an error, is the last
one that does anything. Without a command that cuts in there is only one, and the status says
so as long as it has not ended. -/
structure StartRight (labels : List (NodeLabel ε)) : Prop where
  inits : ∀ i init, (run (nodeStep hasEthereum autoInit) .initial labels).inits[i]? = some init →
    InitRight hasEthereum labels i init
  initialized : (run (nodeStep hasEthereum autoInit) .initial labels).workerInitialized = true ↔
    ∃ init ∈ (run (nodeStep hasEthereum autoInit) .initial labels).inits, init.phase = .ended
  last : ∀ before after, labels = before ++ after →
    (run (nodeStep hasEthereum autoInit) .initial before).workerInitialized = true →
    ∀ i init, (run (nodeStep hasEthereum autoInit) .initial before).inits.length ≤ i →
      (run (nodeStep hasEthereum autoInit) .initial labels).inits[i]? = some init →
        init.commands = []
  guarded : Meets Guarded (nodeStep hasEthereum autoInit) .initial labels →
    (run (nodeStep hasEthereum autoInit) .initial labels).inits.length ≤ 1 ∧
    ∀ workerParams, (getStatus (run (nodeStep hasEthereum autoInit) .initial labels)
        workerParams).2 = some .initializing ↔
      ∃ init ∈ (run (nodeStep hasEthereum autoInit) .initial labels).inits, init.phase ≠ .ended

/-! ## How far an execution has come -/

def announceCommands : List Command :=
  if hasEthereum then [.receiveAll, .announceLocalState] else [.announceLocalState]

def paramsCommands : List Command :=
  [.receiveAll, .announceLocalState, .onNewEpoch, .selfKeySubscribe, .getEthWorkerParam]

/-- The labels after which an execution has announced, and after which it goes on. -/
def Synced (labels : List (NodeLabel ε)) (i : Nat) : Prop :=
  hasEthereum = true → .synced i none ∈ labels

inductive Trail (labels : List (NodeLabel ε)) (i : Nat) : InitWorker ε → Prop where
  | skipped : Trail labels i ⟨.ended, [], [none]⟩
  | syncing (eth : hasEthereum = true) : Trail labels i ⟨.syncState, [.receiveAll], []⟩
  | syncFailed {err : ε} (eth : hasEthereum = true) (failed : .synced i (some err) ∈ labels) :
      Trail labels i ⟨.ended, [.receiveAll], [some err]⟩
  | announcing (synced : Synced hasEthereum labels i) :
      Trail labels i ⟨.announceState, announceCommands hasEthereum, []⟩
  | announceFailed {err : ε} (synced : Synced hasEthereum labels i)
      (failed : .announced i (some err) ∈ labels) :
      Trail labels i ⟨.ended, announceCommands hasEthereum, [some err]⟩
  | withoutEthereum (noEth : hasEthereum = false) (announced : .announced i none ∈ labels) :
      Trail labels i ⟨.ended, [.announceLocalState, .selfKeySubscribe], [none]⟩
  | reading (eth : hasEthereum = true) (synced : Synced hasEthereum labels i)
      (announced : .announced i none ∈ labels) : Trail labels i ⟨.workerParams, paramsCommands, []⟩
  | known (eth : hasEthereum = true) (synced : Synced hasEthereum labels i)
      (announced : .announced i none ∈ labels) : Trail labels i ⟨.ended, paramsCommands, [none]⟩
  | registering {status : Option Nat} (eth : hasEthereum = true)
      (synced : Synced hasEthereum labels i) (announced : .announced i none ∈ labels)
      (read : .paramsRead i (.ok status) ∈ labels)
      (unknown : status ≠ some EthereumWorkerStatus.loggedIn ∧
        status ≠ some EthereumWorkerStatus.loggedOut) :
      Trail labels i ⟨.registration, paramsCommands ++ [.register], []⟩
  | registered {status : Option Nat} (eth : hasEthereum = true)
      (synced : Synced hasEthereum labels i) (announced : .announced i none ∈ labels)
      (read : .paramsRead i (.ok status) ∈ labels)
      (unknown : status ≠ some EthereumWorkerStatus.loggedIn ∧
        status ≠ some EthereumWorkerStatus.loggedOut) :
      Trail labels i ⟨.ended, paramsCommands ++ [.register], [none]⟩

end

section

variable {hasEthereum autoInit : Bool} {labels : List (NodeLabel ε)} {i : Nat}
  {init : InitWorker ε} {node : Node ε}

/-- An execution on its way is right. -/
theorem Trail.right (trail : Trail hasEthereum labels i init) :
    InitRight hasEthereum labels i init := by
  cases trail with
  | skipped =>
      exact ⟨List.nil_prefix, nofun, nofun, nofun, fun busy => absurd rfl busy, by simp,
        fun _ => .inl rfl, fun _ => ⟨none, rfl⟩⟩
  | syncing eth =>
      subst eth
      exact ⟨⟨_, rfl⟩, by simp, by simp, by simp, fun _ => rfl, by simp, by simp, by simp⟩
  | syncFailed eth failed =>
      subst eth
      exact ⟨⟨_, rfl⟩, by simp, by simp, by simp, fun busy => absurd rfl busy,
        by simp [failed], by simp, fun _ => ⟨_, rfl⟩⟩
  | announcing synced =>
      refine ⟨?_, fun _ => synced, ?_, ?_, fun _ => rfl, by simp, by simp, by simp⟩ <;>
        cases hasEthereum <;> simp [announceCommands, allCommands]
  | announceFailed synced failed =>
      refine ⟨?_, fun _ => synced, ?_, ?_, fun busy => absurd rfl busy, ?_, by simp,
        fun _ => ⟨_, rfl⟩⟩ <;>
        cases hasEthereum <;> simp [announceCommands, allCommands, failed]
  | withoutEthereum noEth announced =>
      subst noEth
      exact ⟨⟨_, rfl⟩, by simp, fun _ => announced, by simp, fun busy => absurd rfl busy, by simp,
        by simp, fun _ => ⟨_, rfl⟩⟩
  | reading eth synced announced =>
      subst eth
      exact ⟨⟨_, rfl⟩, fun _ => synced, fun _ => announced, by simp [paramsCommands], fun _ => rfl,
        by simp, by simp, by simp⟩
  | known eth synced announced =>
      subst eth
      exact ⟨⟨_, rfl⟩, fun _ => synced, fun _ => announced, by simp [paramsCommands],
        fun busy => absurd rfl busy, by simp, by simp [paramsCommands], fun _ => ⟨_, rfl⟩⟩
  | registering eth synced announced read unknown =>
      subst eth
      exact ⟨⟨_, rfl⟩, fun _ => synced, fun _ => announced, fun _ => ⟨_, read, unknown⟩,
        fun _ => rfl, by simp, by simp, by simp⟩
  | registered eth synced announced read unknown =>
      subst eth
      exact ⟨⟨_, rfl⟩, fun _ => synced, fun _ => announced, fun _ => ⟨_, read, unknown⟩,
        fun busy => absurd rfl busy, by simp, by simp [paramsCommands], fun _ => ⟨_, rfl⟩⟩

theorem Trail.begins : Trail hasEthereum labels i (.syncState hasEthereum) := by
  cases hasEthereum with
  | true => exact .syncing rfl
  | false => exact .announcing nofun

/-- What an execution waits for takes it on. -/
theorem Trail.synced (trail : Trail hasEthereum labels i init) (waits : init.phase = .syncState)
    {err : Option ε} (isLabel : .synced i err ∈ labels) :
    Trail hasEthereum labels i (init.synced err) := by
  cases trail <;> cases waits
  rename_i eth
  subst eth
  cases err with
  | none => exact .announcing fun _ => isLabel
  | some err => exact .syncFailed rfl isLabel

theorem Trail.announced (trail : Trail hasEthereum labels i init)
    (waits : init.phase = .announceState) {err : Option ε} (isLabel : .announced i err ∈ labels) :
    Trail hasEthereum labels i (init.announced hasEthereum err) := by
  cases trail <;> cases waits
  rename_i synced
  cases err with
  | some err => exact .announceFailed synced isLabel
  | none =>
      cases hasEthereum with
      | true => exact .reading rfl synced isLabel
      | false => exact .withoutEthereum rfl isLabel

theorem Trail.paramsRead (trail : Trail hasEthereum labels i init)
    (waits : init.phase = .workerParams) {workerParams : Except ε (Option Nat)}
    (isLabel : .paramsRead i workerParams ∈ labels) :
    Trail hasEthereum labels i (init.paramsRead workerParams) := by
  cases trail <;> cases waits
  rename_i eth synced announced
  cases workerParams with
  | error err => exact .known eth synced announced
  | ok status =>
      rw [InitWorker.paramsRead]
      split
      · exact .known eth synced announced
      · rename_i unknown
        exact .registering eth synced announced isLabel (not_or.mp unknown)

theorem Trail.registrationEnds (trail : Trail hasEthereum labels i init)
    (waits : init.phase = .registration) : Trail hasEthereum labels i (init.done none) := by
  cases trail <;> cases waits
  rename_i eth synced announced read unknown
  exact .registered eth synced announced read unknown

/-! ## The flags -/

/-- The executions are on their way, and the flags fit them. -/
structure NodeInv (hasEthereum : Bool) (labels : List (NodeLabel ε)) (node : Node ε) : Prop where
  trails : ∀ i init, node.inits[i]? = some init → Trail hasEthereum labels i init
  initialized : node.workerInitialized = true ↔ ∃ init ∈ node.inits, init.phase = .ended

/-- An execution goes on, or nothing happens. -/
theorem goOn_cases (i : Nat) (phase : Phase) (next : InitWorker ε → InitWorker ε) (node : Node ε) :
    node.goOn i phase next = node ∨
    ∃ init, node.inits[i]? = some init ∧ init.phase = phase ∧
      (((next init).phase ≠ .ended ∧
        node.goOn i phase next = { node with inits := node.inits.set i (next init) }) ∨
      ((next init).phase = .ended ∧
        node.goOn i phase next = ⟨true, false, node.inits.set i (next init)⟩)) := by
  rw [Node.goOn]
  split
  · rename_i init found
    split
    · rename_i waits
      refine .inr ⟨init, found, waits, ?_⟩
      by_cases ends : (next init).phase = .ended
      · exact .inr ⟨ends, if_pos ends⟩
      · exact .inl ⟨ends, if_neg ends⟩
    · exact .inl rfl
  · exact .inl rfl

/-- A step does nothing, starts an initialization, or takes one on by what it waits for. -/
theorem nodeStep_cases {label : NodeLabel ε} (isLabel : label ∈ labels) (node : Node ε) :
    nodeStep hasEthereum autoInit node label = node ∨
    ((Guarded node label → node.canInitWorker = true) ∧
      nodeStep hasEthereum autoInit node label = node.initWorker hasEthereum) ∨
    ∃ i phase next, phase ≠ .ended ∧
      (∀ init, Trail hasEthereum labels i init → init.phase = phase →
        Trail hasEthereum labels i (next init)) ∧
      nodeStep hasEthereum autoInit node label = node.goOn i phase next := by
  cases label with
  | initWorker => exact .inr (.inl ⟨id, rfl⟩)
  | newPeer =>
      by_cases can : (autoInit && node.canInitWorker) = true
      · exact .inr (.inl ⟨fun _ => (Bool.and_eq_true_iff.mp can).2, if_pos can⟩)
      · exact .inl (if_neg can)
  | synced i err =>
      refine .inr (.inr ⟨i, .syncState, .synced err, nofun, ?_, rfl⟩)
      exact fun init trail waits => trail.synced waits isLabel
  | announced i err =>
      refine .inr (.inr ⟨i, .announceState, .announced hasEthereum err, nofun, ?_, rfl⟩)
      exact fun init trail waits => trail.announced waits isLabel
  | paramsRead i workerParams =>
      refine .inr (.inr ⟨i, .workerParams, .paramsRead workerParams, nofun, ?_, rfl⟩)
      exact fun init trail waits => trail.paramsRead waits isLabel
  | registered i err =>
      refine .inr (.inr ⟨i, .registration, .done none, nofun, ?_, rfl⟩)
      exact fun init trail waits => trail.registrationEnds waits

/-- What goes on stays on its way, and tells the flags if it ends. -/
theorem NodeInv.goOn (inv : NodeInv hasEthereum labels node) {phase : Phase}
    {next : InitWorker ε → InitWorker ε} (waiting : phase ≠ .ended)
    (goesOn : ∀ init, Trail hasEthereum labels i init → init.phase = phase →
      Trail hasEthereum labels i (next init)) :
    NodeInv hasEthereum labels (node.goOn i phase next) := by
  rcases goOn_cases i phase next node with same | ⟨init, found, waits, step⟩
  · rw [same]
    exact inv
  · have inside : i < node.inits.length := (List.getElem?_eq_some_iff.mp found).1
    have trails : ∀ j other, (node.inits.set i (next init))[j]? = some other →
        Trail hasEthereum labels j other := by
      intro j other isAt
      by_cases same : i = j
      · subst same
        rw [List.getElem?_set_self inside] at isAt
        cases isAt
        exact goesOn init (inv.trails i init found) waits
      · rw [List.getElem?_set_ne same] at isAt
        exact inv.trails j other isAt
    rcases step with ⟨goes, same⟩ | ⟨ends, same⟩
    · rw [same]
      refine ⟨trails, inv.initialized.trans ⟨?_, ?_⟩⟩
      · rintro ⟨other, member, ended⟩
        obtain ⟨j, isAt⟩ := List.mem_iff_getElem?.mp member
        have differs : i ≠ j := by
          rintro rfl
          cases found.symm.trans isAt
          exact waiting (waits.symm.trans ended)
        exact ⟨other, List.mem_of_getElem? ((List.getElem?_set_ne differs).trans isAt), ended⟩
      · rintro ⟨other, member, ended⟩
        rcases List.mem_or_eq_of_mem_set member with old | rfl
        · exact ⟨other, old, ended⟩
        · exact absurd ended goes
    · rw [same]
      exact ⟨trails, iff_of_true rfl ⟨next init, List.mem_set inside _, ends⟩⟩

/-- An execution that begins is on its way, and one that is skipped has ended. -/
theorem NodeInv.initWorker (inv : NodeInv hasEthereum labels node) :
    NodeInv hasEthereum labels (node.initWorker hasEthereum) := by
  have trails : ∀ added, (∀ i, Trail hasEthereum labels i added) →
      ∀ i init, (node.inits ++ [added])[i]? = some init → Trail hasEthereum labels i init := by
    intro added trail i init isAt
    rcases getElem?_concat_eq_some.mp isAt with old | ⟨-, rfl⟩
    · exact inv.trails i init old
    · exact trail i
  rw [Node.initWorker]
  split
  · rename_i initialized
    exact ⟨trails _ fun _ => .skipped, iff_of_true initialized
      ⟨_, List.mem_append_right _ (List.mem_singleton_self _), rfl⟩⟩
  · refine ⟨trails _ fun _ => .begins, inv.initialized.trans ⟨?_, ?_⟩⟩
    · rintro ⟨init, member, ended⟩
      exact ⟨init, List.mem_append_left _ member, ended⟩
    · rintro ⟨init, member, ended⟩
      rcases List.mem_append.mp member with old | new
      · exact ⟨init, old, ended⟩
      · obtain rfl := List.mem_singleton.mp new
        cases hasEthereum <;> cases ended

theorem NodeInv.step {label : NodeLabel ε} (isLabel : label ∈ labels)
    (inv : NodeInv hasEthereum labels node) :
    NodeInv hasEthereum labels (nodeStep hasEthereum autoInit node label) := by
  rcases nodeStep_cases isLabel node with
    same | ⟨-, same⟩ | ⟨i, phase, next, waiting, goesOn, same⟩
  · rw [same]
    exact inv
  · rw [same]
    exact inv.initWorker
  · rw [same]
    exact inv.goOn waiting goesOn

theorem nodeInv_initial : NodeInv hasEthereum labels (.initial : Node ε) where
  trails := by
    intro i init isAt
    rw [Node.initial, List.getElem?_nil] at isAt
    cases isAt
  initialized := by
    refine iff_of_false nofun ?_
    rintro ⟨init, member, -⟩
    cases member

/-! ## After the first one has ended -/

/-- Whatever is added after an initialization has ended does nothing. -/
structure Closed (before : Nat) (node : Node ε) : Prop where
  initialized : node.workerInitialized = true
  added : ∀ i init, before ≤ i → node.inits[i]? = some init →
    init.phase = .ended ∧ init.commands = []

theorem Closed.goOn {before : Nat} (closed : Closed before node) {phase : Phase}
    {next : InitWorker ε → InitWorker ε} (waiting : phase ≠ .ended) :
    Closed before (node.goOn i phase next) := by
  rcases goOn_cases i phase next node with same | ⟨init, found, waits, step⟩
  · rw [same]
    exact closed
  · have added : ∀ j other, before ≤ j → (node.inits.set i (next init))[j]? = some other →
        other.phase = .ended ∧ other.commands = [] := by
      intro j other late isAt
      have differs : i ≠ j := by
        rintro rfl
        exact waiting (waits.symm.trans (closed.added i init late found).1)
      rw [List.getElem?_set_ne differs] at isAt
      exact closed.added j other late isAt
    rcases step with ⟨-, same⟩ | ⟨-, same⟩
    · rw [same]
      exact ⟨closed.initialized, added⟩
    · rw [same]
      exact ⟨rfl, added⟩

theorem Closed.initWorker {before : Nat} (closed : Closed before node) :
    Closed before (node.initWorker hasEthereum) := by
  rw [Node.initWorker, if_pos closed.initialized]
  refine ⟨closed.initialized, fun i init late isAt => ?_⟩
  rcases getElem?_concat_eq_some.mp isAt with old | ⟨-, rfl⟩
  · exact closed.added i init late old
  · exact ⟨rfl, rfl⟩

theorem Closed.step {before : Nat} (closed : Closed before node) (label : NodeLabel ε) :
    Closed before (nodeStep hasEthereum autoInit node label) := by
  rcases nodeStep_cases (List.mem_singleton_self label) node with
    same | ⟨-, same⟩ | ⟨i, phase, next, waiting, -, same⟩
  · rw [same]
    exact closed
  · rw [same]
    exact closed.initWorker
  · rw [same]
    exact closed.goOn waiting

/-! ## With the guard -/

/-- There is one execution at most, and the flag says whether it is in progress. -/
structure Single (hasEthereum : Bool) (labels : List (NodeLabel ε)) (node : Node ε) : Prop
    extends NodeInv hasEthereum labels node where
  length : node.inits.length ≤ 1
  progress : node.workerInitInProgress = true ↔ ∃ init ∈ node.inits, init.phase ≠ .ended

/-- Where an initialization can be, there has been none. -/
theorem Single.initWorker (single : Single hasEthereum labels node)
    (can : node.canInitWorker = true) :
    Single hasEthereum labels (node.initWorker hasEthereum) := by
  obtain ⟨notDone, notBusy⟩ :
      node.workerInitialized = false ∧ node.workerInitInProgress = false := by
    simpa [Node.canInitWorker] using can
  have noInits : node.inits = [] := by
    rw [List.eq_nil_iff_forall_not_mem]
    intro init member
    by_cases ended : init.phase = .ended
    · exact absurd (single.initialized.mpr ⟨init, member, ended⟩) (by simp [notDone])
    · exact absurd (single.progress.mpr ⟨init, member, ended⟩) (by simp [notBusy])
  refine ⟨single.toNodeInv.initWorker, ?_, ?_⟩
  · rw [Node.initWorker, if_neg (by simp [notDone]), noInits]
    exact Nat.le_refl 1
  · rw [Node.initWorker, if_neg (by simp [notDone]), noInits]
    refine iff_of_true rfl ⟨.syncState hasEthereum, List.mem_singleton_self _, ?_⟩
    cases hasEthereum <;> nofun

theorem Single.goOn (single : Single hasEthereum labels node) {phase : Phase}
    {next : InitWorker ε → InitWorker ε} (waiting : phase ≠ .ended)
    (goesOn : ∀ init, Trail hasEthereum labels i init → init.phase = phase →
      Trail hasEthereum labels i (next init)) :
    Single hasEthereum labels (node.goOn i phase next) := by
  have inv := single.toNodeInv.goOn waiting goesOn
  rcases goOn_cases i phase next node with same | ⟨init, found, waits, step⟩
  · rw [same]
    exact single
  · have inside : i < node.inits.length := (List.getElem?_eq_some_iff.mp found).1
    have isOne : node.inits.length = 1 := by
      have length := single.length
      omega
    have only : node.inits.set i (next init) = [next init] := by
      obtain ⟨first, isInits⟩ := List.length_eq_one_iff.mp isOne
      have isFirst : i = 0 := by omega
      rw [isInits, isFirst, List.set_cons_zero]
    have busy : node.workerInitInProgress = true := by
      refine single.progress.mpr ⟨init, List.mem_of_getElem? found, ?_⟩
      rw [waits]
      exact waiting
    rcases step with ⟨goes, same⟩ | ⟨ends, same⟩
    · rw [same, only] at inv
      rw [same, only]
      exact ⟨inv, Nat.le_refl 1, iff_of_true busy ⟨_, List.mem_singleton_self _, goes⟩⟩
    · rw [same, only] at inv
      rw [same, only]
      refine ⟨inv, Nat.le_refl 1, iff_of_false nofun ?_⟩
      rintro ⟨other, member, goes⟩
      obtain rfl := List.mem_singleton.mp member
      exact goes ends

theorem Single.step (single : Single hasEthereum labels node) {label : NodeLabel ε}
    (isLabel : label ∈ labels) (guarded : Guarded node label) :
    Single hasEthereum labels (nodeStep hasEthereum autoInit node label) := by
  rcases nodeStep_cases isLabel node with
    same | ⟨can, same⟩ | ⟨i, phase, next, waiting, goesOn, same⟩
  · rw [same]
    exact single
  · rw [same]
    exact single.initWorker (can guarded)
  · rw [same]
    exact single.goOn waiting goesOn

/-- A worker says that it is initializing as long as the flag is set. -/
theorem getStatus_initializing (node : Node ε) (workerParams : Except ε (Option Nat)) :
    (getStatus node workerParams).2 = some .initializing ↔ node.workerInitInProgress = true := by
  unfold getStatus
  split
  · rename_i busy
    exact iff_of_true rfl busy
  · rename_i idle
    refine iff_of_false ?_ idle
    split
    · nofun
    · repeat' split
      all_goals nofun

end

/-- Over all runs of commands, new peers and answers, the start of a worker is right. -/
theorem initWorker_run (hasEthereum autoInit : Bool) (labels : List (NodeLabel ε)) :
    StartRight hasEthereum autoInit labels := by
  have inv : NodeInv hasEthereum labels (run (nodeStep hasEthereum autoInit) .initial labels) :=
    invariant_of_mem nodeInv_initial fun node label isLabel inv => inv.step isLabel
  refine ⟨fun i init isAt => (inv.trails i init isAt).right, inv.initialized, ?_, fun guarded => ?_⟩
  · rintro before after rfl initialized i init late isAt
    have closed : Closed (run (nodeStep hasEthereum autoInit) .initial before).inits.length
        (run (nodeStep hasEthereum autoInit) .initial before) := by
      refine ⟨initialized, fun j other late isAt => ?_⟩
      have inside := (List.getElem?_eq_some_iff.mp isAt).1
      exact absurd inside (Nat.not_lt.mpr late)
    rw [run_append] at isAt
    have still : Closed _ (run (nodeStep hasEthereum autoInit) _ after) :=
      invariant_of_step closed (fun node label closed => closed.step label) after
    exact (still.added i init late isAt).2
  · have idle : ¬ ∃ init : InitWorker ε, init ∈ [] ∧ init.phase ≠ .ended := by
      rintro ⟨init, member, -⟩
      cases member
    have start : Single hasEthereum labels (.initial : Node ε) :=
      ⟨nodeInv_initial, Nat.zero_le 1, iff_of_false nofun idle⟩
    have single : Single hasEthereum labels (run (nodeStep hasEthereum autoInit) .initial labels) :=
      invariant_run start (fun node label single allowed => single.step allowed.2 allowed.1)
        (guarded.and_all fun label member => member)
    refine ⟨single.length, fun workerParams => ?_⟩
    exact (getStatus_initializing _ workerParams).trans single.progress

/-- A command that cuts in may fail because a sync is running. It ends first, and the node then
counts as initialized while the other execution has yet to sync. -/
example : (run (nodeStep true false) (.initial : Node Unit)
    [.initWorker, .initWorker, .synced 1 (some ())]).inits.map (·.phase) = [.syncState, .ended] ∧
    (run (nodeStep true false) (.initial : Node Unit)
      [.initWorker, .initWorker, .synced 1 (some ())]).canInitWorker = false ∧
    (run (nodeStep true false) (.initial : Node Unit)
      [.initWorker, .initWorker, .synced 1 (some ())]).workerInitInProgress = false := by
  decide

end Startup
