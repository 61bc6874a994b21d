import EnigmaP2P.Ethereum.Selection

/-!
# Epochs from the contract and from events

The verifier learns an epoch from the slots of the contract or from its event. The two
kinds of entries hold the same epoch, but only an entry from an event has `balances`. So
selection with the entries of the contract answers only where it finds no entry at all:
at block 0, or when the five slots are in use and all epochs begin later.
-/

namespace Ethereum

open Js Common Tasks Window

variable (addressText : Address → String)

/-- The array after the read of the slots. -/
def loadedParams (history : List Epoch) : List WorkerParams :=
  updateWorkerParamNow [] ((slotsAfter history).map (snapshotParams addressText))

/-- The array after the events of the epochs. -/
def receivedParams (history : List Epoch) : List WorkerParams :=
  (history.map (eventParams addressText)).foldl newEpochEventCallback []

/-- The same epoch is found, or none; the same group is selected; and the verdict is the
same, without an exception. -/
structure SameSelection (hash : SelectionHash) (fuel : Nat)
    (loaded received : List WorkerParams) (task : Task) (blockNumber : Nat)
    (workerAddress : String) : Prop where
  epoch : (findWorkerParamForTask loaded blockNumber = none ∧
      findWorkerParamForTask received blockNumber = none) ∨
    ∃ epoch first second, findWorkerParamForTask loaded blockNumber = some first ∧
      findWorkerParamForTask received blockNumber = some second ∧
      Describes addressText first epoch ∧ Describes addressText second epoch ∧
      ∃ group, selectWorkerGroup hash fuel task.fields.contractAddr first 1 = some (.ok group) ∧
        selectWorkerGroup hash fuel task.fields.contractAddr second 1 = some (.ok group)
  verdict : ∃ verdict,
    verifySelectedWorker hash fuel loaded task blockNumber workerAddress = some (.ok verdict) ∧
    verifySelectedWorker hash fuel received task blockNumber workerAddress = some (.ok verdict)

/-- Both ways of learning a history select alike at a block. -/
def IngestionAgrees (history : List Epoch) (blockNumber : Nat) : Prop :=
  ∀ (hash : SelectionHash) (task : Task),
    (∀ seed nonce, ∃ value, hash seed task.fields.contractAddr nonce = .ok value) →
    ∀ fuel workerAddress, SameSelection addressText hash fuel (loadedParams addressText history)
      (receivedParams addressText history) task blockNumber workerAddress

variable {addressText} {history : List Epoch} {blockNumber : Nat}

/-- The events of at most five epochs are all held. -/
theorem receivedParams_eq (short : history.length ≤ 5) :
    receivedParams addressText history = history.map (eventParams addressText) := by
  have window : receivedParams addressText history =
      latest 5 (history.map (eventParams addressText)) := by
    clear short
    induction history using List.reverseRecOn with
    | nil => rfl
    | append_singleton history epoch ih =>
        rw [receivedParams, List.map_append, List.foldl_append, ← receivedParams, ih]
        exact push_latest _ _
  rw [window, latest_of_le (by rwa [List.length_map])]

theorem held_received (short : history.length ≤ 5) :
    Held addressText history (receivedParams addressText history) := by
  rw [receivedParams_eq short, Held, List.forall₂_map_left_iff]
  exact List.forall₂_same.mpr fun epoch _ => describes_event addressText epoch

/-- The entries from the contract are those of its slots. -/
theorem mem_loadedParams {params : WorkerParams} :
    params ∈ loadedParams addressText history ↔
      ∃ slot ∈ slotsAfter history, snapshotParams addressText slot = params := by
  have valid : (((slotsAfter history).map (snapshotParams addressText)).drop 1).all
      validateWorkerParams = true := by
    rw [← List.map_drop, List.all_map, List.all_eq_true]
    exact fun _ _ => rfl
  rw [loadedParams, updateWorkerParamNow, if_pos valid, sortWorkerParams, List.mem_rotate,
    List.mem_map]

theorem findWorkerParamForTask_eq_none {workerParamArray : List WorkerParams} :
    findWorkerParamForTask workerParamArray blockNumber = none ↔
      blockNumber = 0 ∨ ∀ params ∈ workerParamArray,
        ¬ params.firstBlockNumber.lt (.num blockNumber) = true := by
  unfold findWorkerParamForTask
  by_cases empty : workerParamArray.length = 0 ∨ blockNumber = 0
  · rw [if_pos empty]
    refine iff_of_true rfl ?_
    obtain empty | zero := empty
    · rw [List.length_eq_zero_iff.mp empty]
      exact .inr fun _ member => absurd member List.not_mem_nil
    · exact .inl zero
  · obtain ⟨-, notZero⟩ := not_or.mp empty
    rw [if_neg empty, List.find?_eq_none, or_iff_right notZero]
    simp only [List.mem_reverse]

/-- No entry of the contract starts before the block. -/
theorem loaded_none_iff (ascending : Ascending history) (short : history.length ≤ 5) :
    findWorkerParamForTask (loadedParams addressText history) blockNumber = none ↔
      blockNumber = 0 ∨
        (history.length = 5 ∧ ∀ epoch ∈ history, blockNumber ≤ epoch.firstBlockNumber) := by
  obtain ⟨older, newer, ring⟩ := slotsAfter_ring ascending
  rw [latest_of_le short] at ring
  have atSlots : findWorkerParamForTask (loadedParams addressText history) blockNumber = none ↔
      blockNumber = 0 ∨ ∀ slot ∈ slotsAfter history, blockNumber ≤ slot.firstBlockNumber := by
    rw [findWorkerParamForTask_eq_none]
    refine or_congr_right ⟨fun none slot member => ?_, ?_⟩
    · have notBefore := none _ (mem_loadedParams.mpr ⟨slot, member, rfl⟩)
      exact Nat.le_of_not_lt fun before => notBefore (decide_eq_true before)
    · rintro later params member before
      obtain ⟨slot, inSlots, rfl⟩ := mem_loadedParams.mp member
      exact Nat.not_lt.mpr (later slot inSlots) (of_decide_eq_true before)
  rw [atSlots]
  by_cases zero : blockNumber = 0
  · exact iff_of_true (.inl zero) (.inl zero)
  rw [or_iff_right zero, or_iff_right zero]
  constructor
  · intro later
    refine ⟨by_contra fun notFull => zero ?_, fun epoch member => ?_⟩
    · -- an empty slot starts at block 0
      have unused : emptySlot ∈ slotsAfter history := by
        rw [ring.layout]
        refine List.mem_append_right _ (List.mem_replicate.mpr ⟨?_, rfl⟩)
        omega
      exact Nat.le_zero.mp (later _ unused)
    · exact later _ (ring.mem_of_mem member)
  · rintro ⟨full, later⟩ slot member
    rw [ring.layout, full, Nat.sub_self, List.replicate_zero, List.append_nil] at member
    obtain ⟨epoch, inRing, rfl⟩ := List.mem_map.mp member
    refine later epoch ?_
    rw [ring.split]
    exact List.mem_append.mpr (List.mem_append.mp inRing).symm

/-- Selection agrees exactly where the entries of the contract are not used. -/
theorem ingestionAgrees_iff (ascending : Ascending history) (short : history.length ≤ 5) :
    IngestionAgrees addressText history blockNumber ↔
      blockNumber = 0 ∨
        (history.length = 5 ∧ ∀ epoch ∈ history, blockNumber ≤ epoch.firstBlockNumber) := by
  rw [← @loaded_none_iff addressText history blockNumber ascending short]
  constructor
  · intro agrees
    cases found : findWorkerParamForTask (loadedParams addressText history) blockNumber with
    | none => rfl
    | some params =>
        have member : params ∈ loadedParams addressText history := by
          unfold findWorkerParamForTask at found
          split at found
          · cases found
          · exact List.mem_reverse.mp (List.mem_of_find?_eq_some found)
        obtain ⟨slot, -, rfl⟩ := mem_loadedParams.mp member
        have task : Task := .compute ⟨none, none, none, none, none, none, none⟩
        obtain ⟨verdict, answered, -⟩ :=
          (agrees (fun _ _ _ => .ok 0) task (fun _ _ => ⟨0, rfl⟩) 0 "").verdict
        rw [verifySelectedWorker_of_no_balances found rfl] at answered
        cases answered
  · intro loaded hash task _ fuel workerAddress
    have received : findWorkerParamForTask (receivedParams addressText history) blockNumber =
        none := by
      rcases (loaded_none_iff ascending short).mp loaded with zero | ⟨-, later⟩
      · exact findWorkerParamForTask_eq_none.mpr (.inl zero)
      · exact findWorkerParamForTask_none (held_received short)
          fun epoch member => Nat.not_lt.mpr (later epoch member)
    refine ⟨.inl ⟨loaded, received⟩, missingParams task, ?_, ?_⟩
    · rw [verifySelectedWorker, loaded]
    · rw [verifySelectedWorker, received]

/-- One epoch, and a block inside it: its entry from the contract ends in an exception. -/
theorem ingestion_disagrees_inside :
    ¬ IngestionAgrees plainText [plainChain 0] 1050 := by
  intro agrees
  have task : Task := .compute ⟨none, none, none, none, none, none, none⟩
  obtain ⟨verdict, answered, -⟩ :=
    (agrees (fun _ _ _ => .ok 0) task (fun _ _ => ⟨0, rfl⟩) 0 "").verdict
  rw [verifySelectedWorker_of_no_balances rfl rfl] at answered
  cases answered

/-- With five epochs both report missing parameters for a block before them. -/
theorem ingestionAgrees_before :
    IngestionAgrees plainText ((List.range 5).map plainChain) 999 := by
  refine (ingestionAgrees_iff ?_ (by simp)).mpr (.inr ⟨rfl, ?_⟩)
  · rw [Ascending, List.pairwise_map]
    exact List.pairwise_lt_range.imp fun less => plainChain_ascending less
  · intro epoch member
    obtain ⟨i, -, rfl⟩ := List.mem_map.mp member
    exact Nat.le_trans (by decide) (plainChain_ascending.monotone (Nat.zero_le i))

end Ethereum
