import EnigmaP2P.Weighted.Choice
import Mathlib.Data.List.GetD
import Mathlib.Data.List.Nodup

/-!
# The worker parameters of the Enigma contract

The Solidity side of worker selection: five slots of epoch parameters, the lookup by
block number, and the weighted choice in signed 256-bit arithmetic. A reverted call is
`none`. The hash of seed, secret contract address and nonce is a parameter, because the
verifier computes the same one.

An `Epoch` is what the contract stores for an epoch: workers are distinct and not the
zero address, stakes are amounts of a token whose whole supply is far below the range of
a signed word. `slotsAfter` are the slots after a history of epochs.
-/

namespace Ethereum

open Weighted

/-- An `address`: twenty bytes. -/
abbrev Address := List UInt8

def zeroAddress : Address := List.replicate 20 0

/-- `EnigmaCommon.WorkersParams`. -/
structure WorkersParams where
  firstBlockNumber : Nat
  workers : List Address
  stakes : List Nat
  seed : Nat
  deriving DecidableEq

/-- A slot that was never written. -/
def emptySlot : WorkersParams := ⟨0, [], [], 0⟩

/-- The bits of a non-negative `int256`. -/
def int256Bits : Nat := 255

/-- The parameters of an epoch. -/
structure Epoch extends WorkersParams where
  started : 0 < firstBlockNumber
  distinct : workers.Nodup
  nonzero : zeroAddress ∉ workers
  sameLength : stakes.length = workers.length
  positive : 0 < stakes.sum
  fits : stakes.sum < 2 ^ int256Bits

/-- `paramIndex`: the first empty slot, or else the one with the lowest block number. -/
def paramIndex (slots : List WorkersParams) : List WorkersParams → Nat → Nat → Nat
  | [], _, best => best
  | slot :: rest, pi, best =>
      if slot.firstBlockNumber = 0 then pi
      else if slot.firstBlockNumber < (slots.getD best emptySlot).firstBlockNumber then
        paramIndex slots rest (pi + 1) pi
      else paramIndex slots rest (pi + 1) best

/-- `setWorkersParamsImpl`: the write of the slot. -/
def setWorkersParams (slots : List WorkersParams) (epoch : Epoch) : List WorkersParams :=
  slots.set (paramIndex slots slots 0 0) epoch.toWorkersParams

/-- `state.workersParams` after a history of epochs. -/
def slotsAfter (history : List Epoch) : List WorkersParams :=
  history.foldl setWorkersParams (List.replicate 5 emptySlot)

/-- `index == -1`, or the slot is newer than the one at `index`. -/
def isNewer (slots : List WorkersParams) (slot : WorkersParams) : Option Nat → Bool
  | none => true
  | some index => (slots.getD index emptySlot).firstBlockNumber < slot.firstBlockNumber

/-- The loop of `getWorkerParamsIndex`; `none` is the index -1. -/
def workerParamsIndexLoop (slots : List WorkersParams) (blockNumber : Nat) :
    List WorkersParams → Nat → Option Nat → Option Nat
  | [], _, index => index
  | slot :: rest, i, index =>
      if slot.firstBlockNumber ≤ blockNumber ∧ isNewer slots slot index then
        workerParamsIndexLoop slots blockNumber rest (i + 1) (some i)
      else workerParamsIndexLoop slots blockNumber rest (i + 1) index

/-- `getWorkerParamsIndex`. -/
def getWorkerParamsIndex (slots : List WorkersParams) (blockNumber : Nat) : Option Nat :=
  workerParamsIndexLoop slots blockNumber slots 0 none

/-- `tokenCpt`: the stakes of the workers that are not the zero address. -/
def tokenCpt : List Address → List Nat → Option Nat
  | [], _ => some 0
  | worker :: workers, stakes =>
      if worker = zeroAddress then tokenCpt workers stakes.tail
      else match stakes with
        | [] => none
        | stake :: stakes => (tokenCpt workers stakes).map (stake + ·)

/-- The loop of `selectWeightedRandomWorker`; the inner `none` is its end. -/
def selectLoop : List Address → List Nat → Int → Option (Option Address)
  | [], _, _ => some none
  | worker :: workers, stakes, randVal =>
      if worker = zeroAddress then selectLoop workers stakes.tail randVal
      else match stakes with
        | [] => none
        | stake :: stakes =>
            let randVal := wrap (int256Bits + 1) (randVal - wrap (int256Bits + 1) stake)
            if randVal ≤ 0 then some (some worker) else selectLoop workers stakes randVal

variable {A : Type} (rand : Nat → A → Nat → Nat)

/-- `selectWeightedRandomWorker`: reading a missing stake, an overflow of the checked sum
and the remainder by zero revert. -/
def selectWeightedRandomWorker (params : WorkersParams) (scAddr : A) (nonce : Nat) :
    Option Address :=
  match tokenCpt params.workers params.stakes with
  | none => none
  | some total =>
      if total = 0 ∨ 2 ^ 256 ≤ total then none
      else
        let randVal := wrap (int256Bits + 1) ((rand params.seed scAddr nonce % total : Nat) : Int)
        match selectLoop params.workers params.stakes randVal with
        | none => none
        | some (some worker) => some worker
        | some none => params.workers.getLast?

/-- The `do … while` of `getWorkerGroupImpl` for position `position`, which ends when a
worker has been written there. Each turn uses one unit of fuel. -/
def fillPosition (params : WorkersParams) (scAddr : A) (position : Nat) :
    Nat → Nat → List Address → Option (Nat × List Address)
  | 0, _, _ => none
  | fuel + 1, nonce, selectedWorkers =>
      match selectWeightedRandomWorker rand params scAddr nonce with
      | none => none
      | some worker =>
          let selectedWorkers :=
            if worker ∈ selectedWorkers then selectedWorkers
            else selectedWorkers.set position worker
          if selectedWorkers.getD position zeroAddress = zeroAddress then
            fillPosition params scAddr position fuel (nonce + 1) selectedWorkers
          else some (nonce + 1, selectedWorkers)

/-- The positions in turn. -/
def fillPositions (params : WorkersParams) (scAddr : A) (fuel : Nat) :
    List Nat → Nat → List Address → Option (List Address)
  | [], _, selectedWorkers => some selectedWorkers
  | position :: rest, nonce, selectedWorkers =>
      match fillPosition rand params scAddr position fuel nonce selectedWorkers with
      | none => none
      | some (nonce, selectedWorkers) =>
          fillPositions params scAddr fuel rest nonce selectedWorkers

/-- `getWorkerGroupImpl`. -/
def getWorkerGroup (slots : List WorkersParams) (groupSize fuel : Nat) (blockNumber : Nat)
    (scAddr : A) : Option (List Address) :=
  match getWorkerParamsIndex slots blockNumber with
  | none => none
  | some index =>
      let params := slots.getD index emptySlot
      let workerGroupSize := min params.workers.length groupSize
      fillPositions rand params scAddr fuel (List.range workerGroupSize) 0
        (List.replicate workerGroupSize zeroAddress)

/-! ## The weighted choice -/

/-- The worker of an epoch that a residue chooses. -/
def Epoch.workerAt (epoch : Epoch) (residue : Nat) : Address :=
  epoch.workers.getD (choice epoch.stakes residue) zeroAddress

theorem Epoch.stakes_ne_nil (epoch : Epoch) : epoch.stakes ≠ [] := by
  intro empty
  have positive := epoch.positive
  rw [empty] at positive
  cases positive

theorem Epoch.choice_lt (epoch : Epoch) {residue : Nat} (bound : residue ≤ epoch.stakes.sum) :
    choice epoch.stakes residue < epoch.workers.length := by
  rw [← epoch.sameLength]
  exact Weighted.choice_lt epoch.stakes_ne_nil bound

/-- A chosen worker is one of the epoch, and so not the zero address. -/
theorem Epoch.workerAt_mem (epoch : Epoch) {residue : Nat} (bound : residue ≤ epoch.stakes.sum) :
    epoch.workerAt residue ∈ epoch.workers := by
  have inRange := epoch.choice_lt bound
  rw [Epoch.workerAt, List.getD_eq_getElem _ _ inRange]
  exact List.getElem_mem inRange

theorem Epoch.workerAt_ne_zero (epoch : Epoch) {residue : Nat}
    (bound : residue ≤ epoch.stakes.sum) : epoch.workerAt residue ≠ zeroAddress := by
  intro zero
  exact epoch.nonzero (zero ▸ epoch.workerAt_mem bound)

private theorem tokenCpt_eq_sum : ∀ {workers : List Address} {stakes : List Nat},
    zeroAddress ∉ workers → stakes.length = workers.length →
      tokenCpt workers stakes = some stakes.sum
  | [], [], _, _ => rfl
  | worker :: workers, stake :: stakes, nonzero, sameLength => by
      obtain ⟨first, rest⟩ := not_or.mp (mt List.mem_cons.mpr nonzero)
      rw [tokenCpt, if_neg (Ne.symm first), tokenCpt_eq_sum rest (by simpa using sameLength)]
      rfl

/-- Where no worker is the zero address, the loop chooses by subtraction alone. -/
private theorem selectLoop_eq : ∀ {workers : List Address} {stakes : List Nat} (randVal : Int),
    zeroAddress ∉ workers → stakes.length = workers.length →
      selectLoop workers stakes randVal = some
        ((firstNonpositive (fun value stake =>
          wrap (int256Bits + 1) (value - wrap (int256Bits + 1) stake)) stakes randVal).bind
            (workers[·]?))
  | [], [], _, _, _ => rfl
  | worker :: workers, stake :: stakes, randVal, nonzero, sameLength => by
      obtain ⟨first, rest⟩ := not_or.mp (mt List.mem_cons.mpr nonzero)
      rw [selectLoop, if_neg (Ne.symm first), firstNonpositive]
      simp only
      split
      · rfl
      · rw [selectLoop_eq _ rest (by simpa using sameLength), Option.bind_map]
        rfl

/-- The contract chooses the worker at the residue of the hash. -/
theorem selectWeightedRandomWorker_eq (epoch : Epoch) (scAddr : A) (nonce : Nat) :
    selectWeightedRandomWorker rand epoch.toWorkersParams scAddr nonce =
      some (epoch.workerAt (rand epoch.seed scAddr nonce % epoch.stakes.sum)) := by
  have residue : rand epoch.seed scAddr nonce % epoch.stakes.sum < epoch.stakes.sum :=
    Nat.mod_lt _ epoch.positive
  have fits := epoch.fits
  have word : (2 : Nat) ^ 256 = 2 * 2 ^ int256Bits := by
    rw [int256Bits, ← Nat.pow_succ']
  have inRange := epoch.choice_lt (Nat.le_of_lt residue)
  have total : ¬ (epoch.stakes.sum = 0 ∨ 2 ^ 256 ≤ epoch.stakes.sum) := by
    have positive := epoch.positive
    omega
  rw [selectWeightedRandomWorker, tokenCpt_eq_sum epoch.nonzero epoch.sameLength]
  simp only [if_neg total]
  rw [wrap_of_le (by omega) (by omega), selectLoop_eq _ epoch.nonzero epoch.sameLength,
    firstNonpositive_wrap epoch.stakes_ne_nil (Nat.le_of_lt residue) fits]
  simp only [Option.bind_some, List.getElem?_eq_getElem inRange, Epoch.workerAt,
    List.getD_eq_getElem _ _ inRange]

/-- A group of one is the chosen worker, if there is fuel for one turn of the loop. -/
theorem getWorkerGroup_eq (epoch : Epoch) {slots : List WorkersParams} {blockNumber index : Nat}
    (found : getWorkerParamsIndex slots blockNumber = some index)
    (slot : slots.getD index emptySlot = epoch.toWorkersParams) (fuel : Nat) (scAddr : A) :
    getWorkerGroup rand slots 1 fuel blockNumber scAddr = if fuel = 0 then none else
      some [epoch.workerAt (rand epoch.seed scAddr 0 % epoch.stakes.sum)] := by
  have residue : rand epoch.seed scAddr 0 % epoch.stakes.sum ≤ epoch.stakes.sum :=
    Nat.le_of_lt (Nat.mod_lt _ epoch.positive)
  have someWorker : min epoch.workers.length 1 = 1 := by
    have inRange := epoch.choice_lt residue
    omega
  have nonzero := epoch.workerAt_ne_zero residue
  have fresh : epoch.workerAt (rand epoch.seed scAddr 0 % epoch.stakes.sum) ∉
      List.replicate 1 zeroAddress := by
    rw [List.mem_replicate]
    exact fun same => nonzero same.2
  rw [getWorkerGroup, found]
  simp only [slot, someWorker]
  change fillPositions rand epoch.toWorkersParams scAddr fuel [0] 0
    (List.replicate 1 zeroAddress) = _
  cases fuel with
  | zero => rfl
  | succ fuel =>
      have turn : fillPosition rand epoch.toWorkersParams scAddr 0 (fuel + 1) 0
          (List.replicate 1 zeroAddress) =
            some (1, [epoch.workerAt (rand epoch.seed scAddr 0 % epoch.stakes.sum)]) := by
        rw [fillPosition, selectWeightedRandomWorker_eq]
        simp only [if_neg fresh]
        exact if_neg nonzero
      rw [fillPositions, turn]
      rfl

/-! ## The lookup by block number -/

/-- The loop keeps the newest slot so far that has started. -/
private theorem workerParamsIndexLoop_spec {slots : List WorkersParams} {blockNumber : Nat}
    {before rest : List WorkersParams} (split : slots = before ++ rest) {index : Option Nat}
    (sofar : ∀ i, index = some i → i < before.length ∧
      (slots.getD i emptySlot).firstBlockNumber ≤ blockNumber)
    (newest : ∀ slot ∈ before, slot.firstBlockNumber ≤ blockNumber → ∃ i, index = some i ∧
      slot.firstBlockNumber ≤ (slots.getD i emptySlot).firstBlockNumber) :
    (∀ i, workerParamsIndexLoop slots blockNumber rest before.length index = some i →
      i < slots.length ∧ (slots.getD i emptySlot).firstBlockNumber ≤ blockNumber) ∧
    ∀ slot ∈ slots, slot.firstBlockNumber ≤ blockNumber → ∃ i,
      workerParamsIndexLoop slots blockNumber rest before.length index = some i ∧
      slot.firstBlockNumber ≤ (slots.getD i emptySlot).firstBlockNumber := by
  induction rest generalizing before index with
  | nil =>
      rw [List.append_nil] at split
      subst split
      exact ⟨sofar, newest⟩
  | cons slot rest ih =>
      have here : slots.getD before.length emptySlot = slot := by
        rw [split, List.getD_append_right _ _ _ _ (Nat.le_refl _), Nat.sub_self]
        rfl
      have next : before.length + 1 = (before ++ [slot]).length := by simp
      have split' : slots = (before ++ [slot]) ++ rest := by simp [split]
      by_cases taken : slot.firstBlockNumber ≤ blockNumber ∧ isNewer slots slot index
      · rw [workerParamsIndexLoop, if_pos taken, next]
        refine ih split' ?_ ?_
        · rintro i ⟨rfl⟩
          exact ⟨by simp, here ▸ taken.1⟩
        · intro other member started
          refine ⟨before.length, rfl, ?_⟩
          rw [here]
          rcases List.mem_append.mp member with earlier | last
          · obtain ⟨i, isIndex, le⟩ := newest other earlier started
            subst isIndex
            exact Nat.le_trans le (Nat.le_of_lt (of_decide_eq_true taken.2))
          · rw [List.mem_singleton.mp last]
      · rw [workerParamsIndexLoop, if_neg taken, next]
        refine ih split' ?_ ?_
        · intro i isIndex
          obtain ⟨inRange, started⟩ := sofar i isIndex
          exact ⟨by simp only [← next]; omega, started⟩
        · intro other member started
          rcases List.mem_append.mp member with earlier | last
          · exact newest other earlier started
          · rw [List.mem_singleton.mp last] at started ⊢
            cases index with
            | none => exact absurd ⟨started, rfl⟩ taken
            | some i =>
                refine ⟨i, rfl, Nat.le_of_not_lt fun newer => taken ⟨started, ?_⟩⟩
                exact decide_eq_true newer

/-- The index that is found is that of the newest slot that has started. -/
theorem getWorkerParamsIndex_spec (slots : List WorkersParams) (blockNumber : Nat) :
    (∀ i, getWorkerParamsIndex slots blockNumber = some i →
      i < slots.length ∧ (slots.getD i emptySlot).firstBlockNumber ≤ blockNumber) ∧
    ∀ slot ∈ slots, slot.firstBlockNumber ≤ blockNumber → ∃ i,
      getWorkerParamsIndex slots blockNumber = some i ∧
      slot.firstBlockNumber ≤ (slots.getD i emptySlot).firstBlockNumber :=
  @workerParamsIndexLoop_spec slots blockNumber [] slots rfl none nofun nofun

end Ethereum
