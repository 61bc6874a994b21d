import EnigmaP2P.Ethereum.Selection
import Mathlib.Data.List.Rotate

/-!
# Sorting and finding epochs by numbers

The slots of the contract are a ring, so what the verifier reads is a rotation of the epochs
in ascending order. With numbers as first blocks the sort turns it back, and the search from
the end finds the last epoch that began before a block.
-/

namespace Ethereum

/-- The first blocks are numbers, and ascend. -/
structure NumericAscending (workerParamArray : List WorkerParams) : Prop where
  numeric : ∀ params ∈ workerParamArray, ∃ first, params.firstBlockNumber = .num first
  ascending : workerParamArray.Pairwise fun earlier later =>
    earlier.firstBlockNumber.lt later.firstBlockNumber = true

/-- The entry with the greatest first block below the block, or `null` if there is none. -/
def IsLatestBefore (workerParamArray : List WorkerParams) (blockNumber : Nat) :
    Option WorkerParams → Prop
  | none => ∀ params ∈ workerParamArray, ∀ first, params.firstBlockNumber = .num first →
      blockNumber ≤ first
  | some params => params ∈ workerParamArray ∧ ∃ first, params.firstBlockNumber = .num first ∧
      first < blockNumber ∧ ∀ other ∈ workerParamArray, ∀ number,
        other.firstBlockNumber = .num number → number < blockNumber → number ≤ first

@[simp] theorem BlockNumber.lt_num_num (a b : Nat) :
    (BlockNumber.num a).lt (.num b) = decide (a < b) := rfl

/-- The loop of `_sortWorkerParams` shifts and pushes an element in every turn. -/
theorem sortWorkerParams_eq_loop (workerParamArray : List WorkerParams) :
    sortWorkerParams workerParamArray =
      workerParamArray.rotate' (smallestBlockIndex workerParamArray 1) :=
  List.rotate_eq_rotate' _ _

/-! ## The smallest entry -/

/-- Neighbours among ascending entries do not descend. -/
theorem NumericAscending.not_lt {previous params : WorkerParams} {rest : List WorkerParams}
    (ascending : NumericAscending (previous :: rest)) (member : params ∈ rest) :
    params.firstBlockNumber.lt previous.firstBlockNumber = false := by
  obtain ⟨a, isA⟩ := ascending.numeric previous List.mem_cons_self
  obtain ⟨b, isB⟩ := ascending.numeric params (List.mem_cons_of_mem _ member)
  have less := (List.pairwise_cons.mp ascending.ascending).1 params member
  rw [isA, isB, BlockNumber.lt_num_num, decide_eq_true_iff] at less
  rw [isA, isB, BlockNumber.lt_num_num, decide_eq_false_iff_not]
  exact Nat.lt_asymm less

theorem NumericAscending.tail {params : WorkerParams} {rest : List WorkerParams}
    (ascending : NumericAscending (params :: rest)) : NumericAscending rest :=
  ⟨fun other member => ascending.numeric other (List.mem_cons_of_mem _ member),
    (List.pairwise_cons.mp ascending.ascending).2⟩

/-- Ascending entries have no entry that is less than the one before it. -/
theorem smallestBlockIndex_of_ascending {workerParamArray : List WorkerParams}
    (ascending : NumericAscending workerParamArray) (i : Nat) :
    smallestBlockIndex workerParamArray i = 0 := by
  induction workerParamArray generalizing i with
  | nil => rfl
  | cons previous rest ih =>
      cases rest with
      | nil => rfl
      | cons params rest =>
          have noDescent := @NumericAscending.not_lt _ params _ ascending List.mem_cons_self
          rw [smallestBlockIndex, noDescent, if_neg Bool.false_ne_true]
          exact ih ascending.tail (i + 1)

/-- The first entry of the older ones is less than the last of the newer ones. -/
theorem smallestBlockIndex_of_newer {previous oldest : WorkerParams}
    {newer older : List WorkerParams} (ascending : NumericAscending (previous :: newer))
    (below : ∀ params ∈ previous :: newer,
      oldest.firstBlockNumber.lt params.firstBlockNumber = true) (i : Nat) :
    smallestBlockIndex (previous :: newer ++ oldest :: older) i = i + newer.length := by
  induction newer generalizing previous i with
  | nil =>
      have descent := below previous List.mem_cons_self
      rw [List.cons_append, List.nil_append, smallestBlockIndex, if_pos descent]
      rfl
  | cons params newer ih =>
      have noDescent := @NumericAscending.not_lt _ params _ ascending List.mem_cons_self
      have later := ih ascending.tail
        (fun other member => below other (List.mem_cons_of_mem _ member)) (i + 1)
      rw [List.cons_append, List.cons_append, smallestBlockIndex, noDescent,
        if_neg Bool.false_ne_true, List.length_cons, ← List.cons_append, later]
      omega

/-- The parts of a rotated list. -/
theorem exists_append_of_isRotated {α : Type} {list window : List α}
    (rotated : list.IsRotated window) :
    ∃ newer older, list = newer ++ older ∧ window = older ++ newer := by
  obtain ⟨n, bound, rfl⟩ := List.isRotated_iff_mod.mp rotated
  exact ⟨list.take n, list.drop n, (List.take_append_drop n list).symm,
    List.rotate_eq_drop_append_take bound⟩

/-- A rotation of ascending entries is sorted. -/
theorem sortWorkerParams_of_isRotated {list window : List WorkerParams}
    (ascending : NumericAscending window) (rotated : list.IsRotated window) :
    sortWorkerParams list = window := by
  obtain ⟨newer, older, rfl, rfl⟩ := exists_append_of_isRotated rotated
  cases newer with
  | nil =>
      rw [List.append_nil] at ascending
      rw [List.nil_append, List.append_nil, sortWorkerParams,
        smallestBlockIndex_of_ascending ascending, List.rotate_zero]
  | cons previous newer =>
      cases older with
      | nil =>
          rw [List.nil_append] at ascending
          rw [List.nil_append, List.append_nil, sortWorkerParams,
            smallestBlockIndex_of_ascending ascending, List.rotate_zero]
      | cons oldest older =>
          obtain ⟨-, newerAscending, apart⟩ := List.pairwise_append.mp ascending.ascending
          have numeric : NumericAscending (previous :: newer) :=
            ⟨fun params member => ascending.numeric params (List.mem_append_right _ member),
              newerAscending⟩
          rw [sortWorkerParams,
            smallestBlockIndex_of_newer numeric (apart oldest List.mem_cons_self),
            Nat.add_comm, ← List.length_cons (a := previous)]
          exact List.rotate_append_length_eq _ _

/-! ## The search -/

/-- The search from the end finds the latest entry that began before the block. -/
theorem findWorkerParamForTask_latest {window : List WorkerParams}
    (ascending : NumericAscending window) (blockNumber : Nat) :
    IsLatestBefore window blockNumber (findWorkerParamForTask window blockNumber) := by
  rw [findWorkerParamForTask]
  split
  · rename_i isEmpty
    rcases isEmpty with noEntry | noBlock
    · rw [List.length_eq_zero_iff.mp noEntry]
      exact List.forall_mem_nil _
    · rw [noBlock]
      exact fun _ _ first _ => Nat.zero_le first
  · cases found : window.reverse.find? _ with
    | none =>
        intro params member first isFirst
        have notBefore := List.find?_eq_none.mp found params (List.mem_reverse.mpr member)
        rw [isFirst, BlockNumber.lt_num_num, decide_eq_true_iff] at notBefore
        exact Nat.le_of_not_lt notBefore
    | some params =>
        obtain ⟨before, later, earlier, split, notLater⟩ :=
          List.find?_eq_some_iff_append.mp found
        have order : window = earlier.reverse ++ params :: later.reverse := by
          rw [← List.reverse_reverse window, split, List.reverse_append, List.reverse_cons,
            List.append_assoc, List.singleton_append]
        have member : params ∈ window := by
          rw [order]
          exact List.mem_append_right _ List.mem_cons_self
        obtain ⟨first, isFirst⟩ := ascending.numeric params member
        rw [isFirst, BlockNumber.lt_num_num, decide_eq_true_iff] at before
        refine ⟨member, first, isFirst, before, ?_⟩
        intro other isOther number isNumber below
        rw [order] at isOther
        rcases List.mem_append.mp isOther with isEarlier | isHere
        · have apart := (List.pairwise_append.mp (order ▸ ascending.ascending)).2.2
          have less := apart other isEarlier params List.mem_cons_self
          rw [isFirst, isNumber, BlockNumber.lt_num_num, decide_eq_true_iff] at less
          exact Nat.le_of_lt less
        · rcases List.mem_cons.mp isHere with rfl | isLater
          · rw [isFirst] at isNumber
            exact Nat.le_of_eq (BlockNumber.num.inj isNumber).symm
          · have notBefore := notLater other (List.mem_reverse.mp isLater)
            rw [isNumber, BlockNumber.lt_num_num, Bool.not_eq_true', decide_eq_false_iff_not]
              at notBefore
            exact absurd below notBefore

/-- Whatever rotation of ascending epochs is read, the sort gives them in their order, and
in that order the search finds the latest one before any block. -/
theorem sorted_and_found {window : List WorkerParams} (ascending : NumericAscending window) :
    (∀ list : List WorkerParams, list.IsRotated window → sortWorkerParams list = window) ∧
    ∀ blockNumber, IsLatestBefore window blockNumber (findWorkerParamForTask window blockNumber) :=
  ⟨fun _ => sortWorkerParams_of_isRotated ascending, findWorkerParamForTask_latest ascending⟩

/-- An epoch that begins at a block. -/
def epochFrom (first : Nat) : WorkerParams :=
  ⟨.num first, 0, [], none⟩

/-- Three epochs, read from the second slot on. -/
theorem sorted_and_found_three :
    sortWorkerParams [epochFrom 200, epochFrom 300, epochFrom 100] =
      [epochFrom 100, epochFrom 200, epochFrom 300] ∧
    IsLatestBefore [epochFrom 100, epochFrom 200, epochFrom 300] 300
      (findWorkerParamForTask [epochFrom 100, epochFrom 200, epochFrom 300] 300) := by
  have ascending : NumericAscending [epochFrom 100, epochFrom 200, epochFrom 300] := by
    refine ⟨fun params member => ?_, by decide⟩
    simp only [List.mem_cons, List.not_mem_nil, or_false] at member
    rcases member with rfl | rfl | rfl <;> exact ⟨_, rfl⟩
  have rotated : [epochFrom 200, epochFrom 300, epochFrom 100].IsRotated
      [epochFrom 100, epochFrom 200, epochFrom 300] := ⟨2, rfl⟩
  exact ⟨(sorted_and_found ascending).1 _ rotated, (sorted_and_found ascending).2 300⟩

end Ethereum
