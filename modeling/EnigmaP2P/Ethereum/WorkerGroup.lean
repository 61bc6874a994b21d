import EnigmaP2P.Ethereum.Selection
import EnigmaP2P.Sampling.FirstDistinct

/-!
# The selected group

`selectWorkerGroup` draws a worker with each nonce and keeps those it does not have yet. Where
the residues of the hash hit every value below the total, a group that is not greater than the
number of workers that can be picked is found, and it is the first distinct picks. The loop
tests the size after a turn: a group for no worker has one.
-/

namespace Ethereum

open Js Sampling

/-- The choice of the scan for a residue; the last worker is the one without a scan. -/
def pickWorker (params : WorkerParams) (balances : List Nat) (residue : Nat) :
    Except Exn (Option String) := do
  let scanned ← scanWorkers params.workers balances residue
  pure (scanned <|> params.workers.getLast?)

/-- The workers that some residue below the total picks. -/
def pickedWorkers (params : WorkerParams) (balances : List Nat) : Finset String :=
  params.workers.toFinset.filter fun worker =>
    ∃ residue < balances.sum, pickWorker params balances residue = .ok (some worker)

/-- The worker that a hash picks. -/
def pickedBy (params : WorkerParams) (balances : List Nat) (value : Nat) : Option String :=
  (pickWorker params balances (value % balances.sum)).toOption.join

/-- The hashes of the nonces are numbers, and their residues hit every value below the total. -/
structure Covers (hash : SelectionHash) (secretContractAddress : Option String)
    (params : WorkerParams) (total : Nat) (number : Nat → Nat) : Prop where
  hashed : ∀ nonce, hash params.seed secretContractAddress nonce = .ok (number nonce)
  hits : ∀ residue < total, ∃ nonce, number nonce % total = residue

/-- The group has the size and different workers, the first that successive nonces pick. -/
structure IsFirstGroup (params : WorkerParams) (balances : List Nat) (number : Nat → Nat)
    (workerGroupSize : Nat) (group : List (Option String)) : Prop where
  size : group.length = workerGroupSize
  distinct : group.Nodup
  members : ∀ selectedWorker ∈ group, ∃ worker ∈ params.workers, selectedWorker = some worker
  first : ∃ turns, group =
    ((List.range turns).map fun nonce => pickedBy params balances (number nonce)).eraseDups

/-! ## One turn -/

/-- Below the total of the balances the scan stops before it misses one. -/
theorem scanWorkers_of_lt {workers : List String} {balances : List Nat} {randVal : Int}
    (nonneg : 0 ≤ randVal) (below : randVal < balances.sum) :
    ∃ scanned, scanWorkers workers balances randVal = .ok scanned ∧
      ∀ worker, scanned = some worker → worker ∈ workers := by
  induction workers generalizing balances randVal with
  | nil => exact ⟨none, rfl, nofun⟩
  | cons worker workers ih =>
      cases balances with
      | nil =>
          rw [List.sum_nil, Nat.cast_zero] at below
          omega
      | cons balance balances =>
          rw [List.sum_cons, Nat.cast_add] at below
          rw [scanWorkers]
          split
          · refine ⟨some worker, rfl, fun other isWorker => ?_⟩
            cases isWorker
            exact List.mem_cons_self
          · obtain ⟨scanned, isScanned, within⟩ :=
              @ih balances (randVal - balance) (by omega) (by omega)
            exact ⟨scanned, isScanned,
              fun other isOther => List.mem_cons_of_mem _ (within other isOther)⟩

section

variable {hash : SelectionHash} {secretContractAddress : Option String} {params : WorkerParams}
  {balances : List Nat} {number : Nat → Nat}

/-- A residue picks one of the workers, if there are any. -/
theorem pickWorker_of_lt {residue : Nat} (below : residue < balances.sum) :
    ∃ picked, pickWorker params balances residue = .ok picked ∧
      (params.workers ≠ [] → ∃ worker ∈ params.workers, picked = some worker) := by
  obtain ⟨scanned, isScanned, within⟩ :=
    @scanWorkers_of_lt params.workers balances residue (by omega) (by omega)
  refine ⟨scanned <|> params.workers.getLast?, ?_, fun nonempty => ?_⟩
  · rw [pickWorker, isScanned]
    rfl
  · cases scanned with
    | some worker => exact ⟨worker, within worker rfl, rfl⟩
    | none => exact ⟨params.workers.getLast nonempty, List.getLast_mem nonempty,
        List.getLast?_eq_some_getLast nonempty⟩

/-- A turn picks by the hash of its nonce. -/
theorem selectWorker_eq_pickedBy (staked : params.balances = some balances)
    (positive : 0 < balances.sum)
    (covers : Covers hash secretContractAddress params balances.sum number) (nonce : Nat) :
    selectWorker hash secretContractAddress params nonce =
      .ok (pickedBy params balances (number nonce)) := by
  have below := Nat.mod_lt (number nonce) positive
  obtain ⟨picked, isPicked, -⟩ := @pickWorker_of_lt params _ _ below
  have choice : pickedBy params balances (number nonce) = picked := by
    rw [pickedBy, isPicked]
    rfl
  rw [selectWorker, staked, choice]
  change (hash params.seed secretContractAddress nonce >>= _) = _
  rw [covers.hashed]
  change (if balances.sum = 0 then _ else pickWorker params balances _) = _
  rw [if_neg (Nat.ne_of_gt positive), isPicked]

/-! ## The loop -/

/-- The loop draws the picks of the nonces. -/
theorem selectTurns_eq_drawUntil (staked : params.balances = some balances)
    (positive : 0 < balances.sum)
    (covers : Covers hash secretContractAddress params balances.sum number)
    (workerGroupSize fuel nonce : Nat) (selectedWorkers : List (Option String)) :
    selectTurns hash secretContractAddress params workerGroupSize fuel nonce selectedWorkers =
      (drawUntil (fun nonce => pickedBy params balances (number nonce)) workerGroupSize fuel nonce
        selectedWorkers).map .ok := by
  induction fuel generalizing nonce selectedWorkers with
  | zero =>
      rw [selectTurns, drawUntil, selectWorker_eq_pickedBy staked positive covers]
      change (if (collect selectedWorkers _).length < workerGroupSize then _ else _) = _
      split
      · rfl
      · rfl
  | succ fuel ih =>
      rw [selectTurns, drawUntil, selectWorker_eq_pickedBy staked positive covers]
      change (if (collect selectedWorkers _).length < workerGroupSize then
        selectTurns _ _ _ _ _ _ (collect selectedWorkers _) else _) = _
      rw [ih]
      split
      · rfl
      · rfl

/-- Each worker that can be picked is drawn some time. -/
theorem drawn_of_mem_pickedWorkers
    (covers : Covers hash secretContractAddress params balances.sum number)
    {selectedWorker : Option String}
    (member : selectedWorker ∈ (pickedWorkers params balances).map .some) :
    ∃ nonce, pickedBy params balances (number nonce) = selectedWorker := by
  obtain ⟨worker, isPicked, rfl⟩ := Finset.mem_map.mp member
  obtain ⟨residue, below, picks⟩ := (Finset.mem_filter.mp isPicked).2
  obtain ⟨nonce, isResidue⟩ := covers.hits residue below
  refine ⟨nonce, ?_⟩
  rw [pickedBy, isResidue, picks]
  rfl

/-- Without workers, none can be picked. -/
theorem workers_ne_nil {workerGroupSize : Nat} (some : workerGroupSize ≠ 0)
    (enough : workerGroupSize ≤ (pickedWorkers params balances).card) : params.workers ≠ [] := by
  intro isEmpty
  rw [pickedWorkers, isEmpty, List.toFinset_nil, Finset.filter_empty, Finset.card_empty] at enough
  omega

/-- The first draws that give a number of picks are a group of that size. -/
theorem isFirstGroup_of_isTurn (positive : 0 < balances.sum) (nonempty : params.workers ≠ [])
    {workerGroupSize turns : Nat}
    (turn : IsTurn (fun nonce => pickedBy params balances (number nonce)) workerGroupSize turns) :
    IsFirstGroup params balances number workerGroupSize
      (firstDistinct (fun nonce => pickedBy params balances (number nonce)) turns) where
  size := turn.length
  distinct := nodup_firstDistinct _ _
  members := by
    intro selectedWorker member
    obtain ⟨nonce, -, rfl⟩ := (mem_firstDistinct _).mp member
    obtain ⟨picked, isPicked, within⟩ :=
      @pickWorker_of_lt params _ _ (Nat.mod_lt (number nonce) positive)
    obtain ⟨worker, isWorker, rfl⟩ := within nonempty
    refine ⟨worker, isWorker, ?_⟩
    rw [pickedBy, isPicked]
    rfl
  first := ⟨turns, rfl⟩

/-- A group for no worker has the pick of the first nonce. -/
theorem selectWorkerGroup_zero (staked : params.balances = some balances)
    (positive : 0 < balances.sum)
    (covers : Covers hash secretContractAddress params balances.sum number) (fuel : Nat) :
    selectWorkerGroup hash fuel secretContractAddress params 0 =
      some (.ok [pickedBy params balances (number 0)]) := by
  rw [selectWorkerGroup, selectTurns_eq_drawUntil staked positive covers, drawUntil_zero]
  rfl

/-- The loop ends with the first distinct picks, as many as asked for, exactly if any are. -/
theorem selectWorkerGroup_isFirstGroup_iff (staked : params.balances = some balances)
    (positive : 0 < balances.sum)
    (covers : Covers hash secretContractAddress params balances.sum number) {workerGroupSize : Nat}
    (enough : workerGroupSize ≤ (pickedWorkers params balances).card) :
    (∃ fuel group, selectWorkerGroup hash fuel secretContractAddress params workerGroupSize =
        some (.ok group) ∧ IsFirstGroup params balances number workerGroupSize group) ↔
      workerGroupSize ≠ 0 := by
  constructor
  · rintro ⟨fuel, group, isGroup, first⟩ rfl
    rw [selectWorkerGroup_zero staked positive covers] at isGroup
    cases isGroup
    cases first.size
  · intro some
    have nonempty := workers_ne_nil some enough
    rw [← Finset.card_map .some] at enough
    obtain ⟨turns, turn⟩ := exists_isTurn (fun _ => drawn_of_mem_pickedWorkers covers) enough
    cases turns with
    | zero => exact absurd turn.length.symm some
    | succ last =>
        refine ⟨last, _, ?_, isFirstGroup_of_isTurn positive nonempty turn⟩
        rw [selectWorkerGroup, selectTurns_eq_drawUntil staked positive covers]
        exact congrArg (Option.map _)
          (drawUntil_firstDistinct turn (Nat.zero_le last) (by omega))

end

/-- Two workers, of which the second has twice the stake. -/
def twoStaked : WorkerParams :=
  ⟨.num 100, 7, ["0x1d", "0x2e"], some [1, 2]⟩

/-- A hash that counts the nonces. -/
def countingHash : SelectionHash :=
  fun _ _ nonce => .ok nonce

theorem countingHash_covers : Covers countingHash none twoStaked [1, 2].sum id where
  hashed := fun _ => rfl
  hits := fun residue below => ⟨residue, Nat.mod_eq_of_lt below⟩

theorem selectWorkerGroup_isFirstGroup_iff_two :
    (∃ fuel group, selectWorkerGroup countingHash fuel none twoStaked 2 = some (.ok group) ∧
      IsFirstGroup twoStaked [1, 2] id 2 group) ↔ 2 ≠ 0 :=
  selectWorkerGroup_isFirstGroup_iff rfl (by decide) countingHash_covers (by decide)

/-- A group of no worker. -/
theorem selectWorkerGroup_zero_wrong :
    (∀ fuel, selectWorkerGroup countingHash fuel none twoStaked 0 =
      some (.ok [some "0x1d"])) ∧
    ¬ ∃ fuel group, selectWorkerGroup countingHash fuel none twoStaked 0 = some (.ok group) ∧
      IsFirstGroup twoStaked [1, 2] id 0 group := by
  have one : ∀ fuel, selectWorkerGroup countingHash fuel none twoStaked 0 =
      some (.ok [some "0x1d"]) :=
    selectWorkerGroup_zero rfl (by decide) countingHash_covers
  refine ⟨one, ?_⟩
  rintro ⟨fuel, group, isGroup, first⟩
  rw [one] at isGroup
  cases isGroup
  cases first.size

end Ethereum
