import EnigmaP2P.Ethereum.TaskCreation
import EnigmaP2P.Ethereum.WorkerParams

/-!
# The selected worker

The verifier repeats the selection of the contract: it looks up the epoch of the block
of a task, reduces a hash of seed, secret contract address and nonce modulo the stakes,
and scans the stakes. The choice is the same function of the residue on both sides. The
lookup is not: the contract takes the newest epoch with `firstBlockNumber <= block`, the
verifier compares with `>`, and so takes the epoch before at the first block of an epoch.
An entry that has no `balances` ends in an exception.
-/

namespace Ethereum

open Js Common Tasks Weighted Window

/-! ## The verifier's side -/

/-- `_findWorkerParamForTask`; a block number of 0 is falsy. -/
def findWorkerParamForTask (workerParamArray : List WorkerParams) (blockNumber : Nat) :
    Option WorkerParams :=
  if workerParamArray.length = 0 ∨ blockNumber = 0 then none
  else workerParamArray.reverse.find? fun params =>
    (BlockNumber.lt params.firstBlockNumber (.num blockNumber))

/-- The scan of `selectWorkerGroup`; the inner `none` is its end. Subtracting a balance
that is not there throws. -/
def scanWorkers : List String → List Nat → Int → Except Exn (Option String)
  | [], _, _ => .ok none
  | _ :: _, [], _ => .error .typeError
  | worker :: workers, balance :: balances, randVal =>
      if randVal - balance ≤ 0 then .ok (some worker)
      else scanWorkers workers balances (randVal - balance)

/-- `cryptography.hash(abi.rawEncode([seed, secretContractAddress, nonce]))` as a number. -/
abbrev SelectionHash := Nat → Option String → Nat → Except Exn Nat

variable (hash : SelectionHash)

/-- One turn of the loop: the worker for a nonce, `none` when there are no workers. -/
def selectWorker (secretContractAddress : Option String) (params : WorkerParams) (nonce : Nat) :
    Except Exn (Option String) :=
  match params.balances with
  | none => .error .typeError
  | some balances => do
      let randVal ← hash params.seed secretContractAddress nonce
      if balances.sum = 0 then .error .rangeError
      else
        let scanned ← scanWorkers params.workers balances (randVal % balances.sum : Nat)
        pure (scanned <|> params.workers.getLast?)

/-- The `do … while` of `selectWorkerGroup`. The outer `none` means that it goes on after
the turns that the fuel allows. -/
def selectTurns (secretContractAddress : Option String) (params : WorkerParams)
    (workerGroupSize : Nat) : Nat → Nat → List (Option String) →
      Option (Except Exn (List (Option String)))
  | fuel, nonce, selectedWorkers =>
      match selectWorker hash secretContractAddress params nonce with
      | .error exn => some (.error exn)
      | .ok selectedWorker =>
          let selectedWorkers :=
            if selectedWorker ∈ selectedWorkers then selectedWorkers
            else selectedWorkers ++ [selectedWorker]
          if selectedWorkers.length < workerGroupSize then
            match fuel with
            | 0 => none
            | fuel + 1 => selectTurns secretContractAddress params workerGroupSize fuel
                (nonce + 1) selectedWorkers
          else some (.ok selectedWorkers)

/-- `selectWorkerGroup`. -/
def selectWorkerGroup (fuel : Nat) (secretContractAddress : Option String)
    (params : WorkerParams) (workerGroupSize : Nat) :
    Option (Except Exn (List (Option String))) :=
  selectTurns hash secretContractAddress params workerGroupSize fuel 0 []

/-- `_verifySelectedWorker` once the group is there. -/
def compareWorker (secretContractAddress : Option String) (workerAddress : String)
    (group : List (Option String)) : Except Exn Verdict :=
  match group.head?.join with
  | none => .error .typeError
  | some selectedWorker =>
      if strip0x selectedWorker.toLower = workerAddress then .ok .accepted
      else .ok ⟨false, some ⟨.workerSelectionVerificationErr,
        "Not the selected worker for the " ++ orNull secretContractAddress ++ " task"⟩⟩

/-- The answer when there is no epoch for a task. -/
def missingParams (task : Task) : Verdict :=
  ⟨false, some ⟨.taskValidityErr,
    "Epoch params are missing for the task " ++ orNull task.getTaskId⟩⟩

/-- `verifySelectedWorker`; an exception rejects its promise. -/
def verifySelectedWorker (fuel : Nat) (workerParamArray : List WorkerParams) (task : Task)
    (blockNumber : Nat) (workerAddress : String) : Option (Except Exn Verdict) :=
  match findWorkerParamForTask workerParamArray blockNumber with
  | none => some (.ok (missingParams task))
  | some params =>
      let secretContractAddress := task.fields.contractAddr
      (selectWorkerGroup hash fuel secretContractAddress params 1).map fun group => do
        compareWorker secretContractAddress workerAddress (← group)

variable {hash}

/-! ## The choice of the verifier -/

private theorem scanWorkers_eq : ∀ {workers : List String} {balances : List Nat}
    (randVal : Int), balances.length = workers.length →
      scanWorkers workers balances randVal = .ok
        ((firstNonpositive (fun value stake => value - stake) balances randVal).bind (workers[·]?))
  | [], [], _, _ => rfl
  | worker :: workers, balance :: balances, randVal, sameLength => by
      rw [scanWorkers, firstNonpositive]
      split
      · rfl
      · rw [scanWorkers_eq _ (by simpa using sameLength), Option.bind_map]
        rfl

/-- The turn for a nonce chooses the worker at the residue of the hash. -/
theorem selectWorker_eq {addressText : Address → String} {params : WorkerParams} {epoch : Epoch}
    (describes : Describes addressText params epoch) (balances : params.balances ≠ none)
    {scAddr : Option String} {nonce value : Nat}
    (hashed : hash epoch.seed scAddr nonce = .ok value) :
    selectWorker hash scAddr params nonce =
      .ok (some (addressText (epoch.workerAt (value % epoch.stakes.sum)))) := by
  have stakes := describes.balances.resolve_left balances
  have residue : value % epoch.stakes.sum ≤ epoch.stakes.sum :=
    Nat.le_of_lt (Nat.mod_lt _ epoch.positive)
  have inRange := epoch.choice_lt residue
  have scanned : scanWorkers params.workers epoch.stakes (value % epoch.stakes.sum : Nat) =
      .ok (some (addressText (epoch.workerAt (value % epoch.stakes.sum)))) := by
    rw [scanWorkers_eq _ (by rw [describes.workers, List.length_map, epoch.sameLength]),
      firstNonpositive_exact epoch.stakes_ne_nil residue, describes.workers]
    simp only [Option.bind_some, List.getElem?_map, List.getElem?_eq_getElem inRange,
      Epoch.workerAt, List.getD_eq_getElem _ _ inRange, Option.map_some]
  rw [selectWorker, stakes, describes.seed]
  change (hash epoch.seed scAddr nonce >>= _) = _
  rw [hashed]
  change (if epoch.stakes.sum = 0 then _ else scanWorkers _ _ _ >>= _) = _
  rw [if_neg (Nat.ne_of_gt epoch.positive), scanned]
  rfl

/-- Texts of addresses that the verifier reduces to lower-case digits. -/
def IsAddressText (addressText : Address → String) : Prop :=
  ∀ address, strip0x (addressText address).toLower = toHexString address

section

variable {addressText : Address → String} {window before after : List Epoch} {epoch : Epoch}
  {workerParamArray : List WorkerParams} {blockNumber : Nat}

/-- The verdict for a worker where an epoch with balances was found. -/
theorem verifySelectedWorker_eq (isText : IsAddressText addressText) {params : WorkerParams}
    (found : findWorkerParamForTask workerParamArray blockNumber = some params)
    (describes : Describes addressText params epoch) (balances : params.balances ≠ none)
    {task : Task} {value : Nat} (hashed : hash epoch.seed task.fields.contractAddr 0 = .ok value)
    (fuel : Nat) (workerAddress : String) :
    verifySelectedWorker hash fuel workerParamArray task blockNumber workerAddress =
      some (.ok (if toHexString (epoch.workerAt (value % epoch.stakes.sum)) = workerAddress
        then .accepted
        else ⟨false, some ⟨.workerSelectionVerificationErr, "Not the selected worker for the " ++
          orNull task.fields.contractAddr ++ " task"⟩⟩)) := by
  have group : selectWorkerGroup hash fuel task.fields.contractAddr params 1 =
      some (.ok [some (addressText (epoch.workerAt (value % epoch.stakes.sum)))]) := by
    unfold selectWorkerGroup selectTurns
    rw [selectWorker_eq describes balances hashed]
    rfl
  rw [verifySelectedWorker, found]
  simp only [group]
  change some (compareWorker task.fields.contractAddr workerAddress
    [some (addressText (epoch.workerAt (value % epoch.stakes.sum)))]) = _
  rw [compareWorker]
  simp only [List.head?_cons, Option.join_some]
  rw [← isText (epoch.workerAt (value % epoch.stakes.sum))]
  split <;> rfl

/-- An entry without balances ends in an exception. -/
theorem verifySelectedWorker_of_no_balances {params : WorkerParams}
    (found : findWorkerParamForTask workerParamArray blockNumber = some params)
    (balances : params.balances = none) (task : Task) (fuel : Nat) (workerAddress : String) :
    verifySelectedWorker hash fuel workerParamArray task blockNumber workerAddress =
      some (.error .typeError) := by
  have group : selectWorkerGroup hash fuel task.fields.contractAddr params 1 =
      some (.error .typeError) := by
    unfold selectWorkerGroup selectTurns
    rw [selectWorker, balances]
  rw [verifySelectedWorker, found]
  simp only [group]
  rfl

/-! ## The two lookups -/

private theorem lt_num {params : WorkerParams} (describes : Describes addressText params epoch) :
    BlockNumber.lt params.firstBlockNumber (.num blockNumber) =
      decide (epoch.firstBlockNumber < blockNumber) := by
  have number := describes.firstBlockNumber
  cases value : params.firstBlockNumber with
  | missing =>
      rw [value] at number
      cases number
  | num n =>
      rw [value] at number
      cases number
      rfl
  | text n =>
      rw [value] at number
      cases number
      rfl

/-- The verifier holds the window. -/
abbrev Held (addressText : Address → String) (window : List Epoch)
    (workerParamArray : List WorkerParams) : Prop :=
  List.Forall₂ (Describes addressText) workerParamArray window

/-- No epoch before the block, no entry. -/
theorem findWorkerParamForTask_none (held : Held addressText window workerParamArray)
    (later : ∀ epoch ∈ window, ¬ epoch.firstBlockNumber < blockNumber) :
    findWorkerParamForTask workerParamArray blockNumber = none := by
  unfold findWorkerParamForTask
  split
  · rfl
  · rw [List.find?_eq_none]
    intro params member
    obtain ⟨epoch, inWindow, describes⟩ := exists_partner held (List.mem_reverse.mp member)
    rw [lt_num describes, decide_eq_true_eq]
    exact later epoch inWindow

/-- The entry that is found describes the last epoch before the block. -/
theorem findWorkerParamForTask_last
    (held : Held addressText (before ++ epoch :: after) workerParamArray)
    (started : epoch.firstBlockNumber < blockNumber)
    (later : ∀ other ∈ after, ¬ other.firstBlockNumber < blockNumber) :
    ∃ params, workerParamArray[before.length]? = some params ∧
      Describes addressText params epoch ∧
      findWorkerParamForTask workerParamArray blockNumber = some params := by
  let first := workerParamArray.take before.length
  obtain ⟨params, rest, describes, heldAfter, split⟩ :=
    List.forall₂_cons_right_iff.mp (List.forall₂_drop_append _ _ _ held)
  have heldBefore := List.forall₂_take_append _ _ _ held
  have whole : workerParamArray = workerParamArray.take before.length ++ params :: rest := by
    rw [← split, List.take_append_drop]
  have length : (workerParamArray.take before.length).length = before.length :=
    heldBefore.length_eq
  refine ⟨params, ?_, describes, ?_⟩
  · rw [whole, List.getElem?_append_right (by rw [length]), length, Nat.sub_self]
    rfl
  · have notEmpty : ¬ (workerParamArray.length = 0 ∨ blockNumber = 0) := by
      rw [whole, List.length_append, List.length_cons]
      omega
    rw [findWorkerParamForTask, if_neg notEmpty, whole, List.reverse_append, List.reverse_cons,
      List.append_assoc, List.find?_append, List.find?_eq_none.mpr, Option.none_or]
    · rw [List.singleton_append, List.find?_cons_of_pos]
      rw [lt_num describes, decide_eq_true_eq]
      exact started
    · intro other member
      obtain ⟨late, inAfter, describes'⟩ := exists_partner heldAfter (List.mem_reverse.mp member)
      rw [lt_num describes', decide_eq_true_eq]
      exact later late inAfter

/-! ## Agreement with the contract -/

/-- The address is the first of the contract's group. -/
def FirstWorker (rand : Nat → String → Nat → Nat) (slots : List WorkersParams)
    (blockNumber : Nat) (scAddr : String) (address : Address) : Prop :=
  ∃ fuel rest, getWorkerGroup rand slots 1 fuel blockNumber scAddr = some (address :: rest)

/-- The contract has an entry for the block: the slot that it finds is in use. -/
def HasEntry (slots : List WorkersParams) (blockNumber : Nat) : Prop :=
  ∃ index, getWorkerParamsIndex slots blockNumber = some index ∧
    (slots.getD index emptySlot).firstBlockNumber ≠ 0

/-- The verifier accepts exactly the contract's first worker, and reports missing
parameters exactly when the contract has none. -/
def SelectionAgrees (slots : List WorkersParams) (workerParamArray : List WorkerParams)
    (blockNumber : Nat) : Prop :=
  ∀ (rand : Nat → String → Nat → Nat) (hash : SelectionHash) (task : Task) (scAddr : String),
    task.fields.contractAddr = some scAddr →
    (∀ seed nonce, hash seed (some scAddr) nonce = .ok (rand seed scAddr nonce)) →
    ∀ fuel workerAddress,
      (verifySelectedWorker hash fuel workerParamArray task blockNumber workerAddress =
          some (.ok .accepted) ↔
        ∃ address, FirstWorker rand slots blockNumber scAddr address ∧
          workerAddress = toHexString address) ∧
      (verifySelectedWorker hash fuel workerParamArray task blockNumber workerAddress =
          some (.ok (missingParams task)) ↔ ¬ HasEntry slots blockNumber)

/-- Two epochs choose the same worker for all hash values, which are equal where the seeds
are. -/
def SameChoice (epoch previous : Epoch) : Prop :=
  ∀ value value', (epoch.seed = previous.seed → value = value') →
    epoch.workerAt (value % epoch.stakes.sum) = previous.workerAt (value' % previous.stakes.sum)

/-- The entry at an index has balances. -/
def HasBalances (workerParamArray : List WorkerParams) (index : Nat) : Prop :=
  ∃ params, workerParamArray[index]? = some params ∧ params.balances ≠ none

/-- When the lookup of the verifier does no harm: there is no epoch yet; the block is not
the first of its epoch, whose entry has balances; or it is the first of its epoch and the
epoch before it, whose entry has balances, chooses the same worker. -/
inductive LookupHarmless (window : List Epoch) (workerParamArray : List WorkerParams)
    (blockNumber : Nat) : Prop where
  | noEpoch (later : ∀ epoch ∈ window, blockNumber < epoch.firstBlockNumber)
  | inside (before after : List Epoch) (epoch : Epoch)
      (split : window = before ++ epoch :: after)
      (started : epoch.firstBlockNumber < blockNumber)
      (later : ∀ other ∈ after, blockNumber < other.firstBlockNumber)
      (balances : HasBalances workerParamArray before.length)
  | firstBlock (before after : List Epoch) (previous epoch : Epoch)
      (split : window = before ++ previous :: epoch :: after)
      (atStart : epoch.firstBlockNumber = blockNumber)
      (balances : HasBalances workerParamArray before.length)
      (same : SameChoice epoch previous)

private theorem firstWorker_iff (rand : Nat → String → Nat → Nat) (scAddr : String)
    {slots : List WorkersParams} {index : Nat}
    (found : getWorkerParamsIndex slots blockNumber = some index)
    (slot : slots.getD index emptySlot = epoch.toWorkersParams) {address : Address} :
    FirstWorker rand slots blockNumber scAddr address ↔
      address = epoch.workerAt (rand epoch.seed scAddr 0 % epoch.stakes.sum) := by
  constructor
  · rintro ⟨fuel, rest, group⟩
    rw [getWorkerGroup_eq rand epoch found slot] at group
    split at group
    · cases group
    · cases group
      rfl
  · rintro rfl
    exact ⟨1, [], getWorkerGroup_eq rand epoch found slot 1 scAddr⟩

private theorem missingParams_ne_accepted (task : Task) : missingParams task ≠ .accepted := nofun

section

variable {slots : List WorkersParams} {index : Nat}
  (found : getWorkerParamsIndex slots blockNumber = some index)
  (slot : slots.getD index emptySlot = epoch.toWorkersParams)

include found slot

private theorem hasEntry_of_found : HasEntry slots blockNumber :=
  ⟨index, found, by rw [slot]; exact Nat.ne_of_gt epoch.started⟩

/-- A verifier that accepts nobody where the contract has an epoch does not agree. -/
private theorem not_agrees_of_never
    (never : ∀ (hash : SelectionHash) (task : Task) fuel workerAddress,
      verifySelectedWorker hash fuel workerParamArray task blockNumber workerAddress ≠
        some (.ok .accepted)) :
    ¬ SelectionAgrees slots workerParamArray blockNumber := by
  intro agrees
  let task : Task := .compute ⟨none, some "", none, none, none, none, none⟩
  have chosen := (firstWorker_iff (fun _ _ _ => 0) "" found slot).mpr rfl
  exact never _ task 0 _ (((agrees (fun _ _ _ => 0) (fun _ _ _ => .ok 0) task "" rfl
    (fun _ _ => rfl) 0 _).1).mpr ⟨_, chosen, rfl⟩)

/-- Where the verifier finds the entry of some epoch, it agrees exactly when that epoch
makes the contract's choice. -/
private theorem agrees_iff_sameChoice (isText : IsAddressText addressText) {params : WorkerParams}
    {picked : Epoch} (looked : findWorkerParamForTask workerParamArray blockNumber = some params)
    (describes : Describes addressText params picked) (balances : params.balances ≠ none) :
    SelectionAgrees slots workerParamArray blockNumber ↔ SameChoice epoch picked := by
  constructor
  · intro agrees value value' sameSeed
    let rand : Nat → String → Nat → Nat := fun seed _ _ =>
      if seed = epoch.seed then value else value'
    have atEpoch : rand epoch.seed "" 0 = value := if_pos rfl
    have atPicked : rand picked.seed "" 0 = value' := by
      by_cases same : picked.seed = epoch.seed
      · exact (if_pos same).trans (sameSeed same.symm)
      · exact if_neg same
    let task : Task := .compute ⟨none, some "", none, none, none, none, none⟩
    have chosen := (firstWorker_iff rand "" found slot).mpr rfl
    have accepted := ((agrees rand (fun seed _ nonce => .ok (rand seed "" nonce)) task "" rfl
      (fun _ _ => rfl) 0 _).1).mpr ⟨_, chosen, rfl⟩
    rw [verifySelectedWorker_eq isText looked describes balances rfl, atPicked, atEpoch] at accepted
    split at accepted
    · rename_i same
      exact (toHexString_injective same).symm
    · cases accepted
  · intro same rand hash task scAddr isAddr hashed fuel workerAddress
    have value : hash picked.seed task.fields.contractAddr 0 = .ok (rand picked.seed scAddr 0) := by
      rw [isAddr, hashed]
    have choice := same (rand epoch.seed scAddr 0) (rand picked.seed scAddr 0)
      (fun seeds => by rw [seeds])
    rw [verifySelectedWorker_eq isText looked describes balances value]
    constructor
    · simp only [firstWorker_iff rand scAddr found slot, exists_eq_left, choice]
      split
      · rename_i accepted
        exact iff_of_true rfl accepted.symm
      · rename_i rejected
        exact iff_of_false nofun (Ne.symm rejected)
    · refine iff_of_false ?_ (fun none => none (hasEntry_of_found found slot))
      split <;> nofun

end

/-- Without an epoch for the block both sides say so. -/
private theorem agrees_of_none {older newer : List Epoch} {slots : List WorkersParams}
    (held : Held addressText window workerParamArray) (ring : IsRing window older newer slots)
    (later : ∀ epoch ∈ window, ¬ epoch.firstBlockNumber ≤ blockNumber) :
    SelectionAgrees slots workerParamArray blockNumber := by
  intro rand hash task scAddr _ _ fuel workerAddress
  have looked := findWorkerParamForTask_none held fun epoch member less =>
    later epoch member (Nat.le_of_lt less)
  have noEntry : ¬ HasEntry slots blockNumber := by
    rintro ⟨index, found, used⟩
    rw [ring.getWorkerParamsIndex_none later found] at used
    exact used rfl
  have noWorker : ∀ address, ¬ FirstWorker rand slots blockNumber scAddr address := by
    rintro address ⟨fuel, rest, group⟩
    unfold getWorkerGroup at group
    split at group
    · cases group
    · rename_i index found
      rw [ring.getWorkerParamsIndex_none later found] at group
      cases group
  rw [verifySelectedWorker, looked]
  refine ⟨iff_of_false nofun ?_, iff_of_true rfl noEntry⟩
  rintro ⟨address, first, -⟩
  exact noWorker address first

/-- The cases of `LookupHarmless` at the last epoch that has started. -/
private theorem lookupHarmless_iff (ascending : Ascending window)
    (split : window = before ++ epoch :: after) (started : epoch.firstBlockNumber ≤ blockNumber)
    (later : ∀ other ∈ after, ¬ other.firstBlockNumber ≤ blockNumber) :
    LookupHarmless window workerParamArray blockNumber ↔
      (epoch.firstBlockNumber < blockNumber ∧ HasBalances workerParamArray before.length) ∨
      (epoch.firstBlockNumber = blockNumber ∧ ∃ earlier previous, before = earlier ++ [previous] ∧
        HasBalances workerParamArray earlier.length ∧ SameChoice epoch previous) := by
  constructor
  · intro harmless
    cases harmless with
    | noEpoch none =>
        exact absurd (none epoch (by simp [split])) (Nat.not_lt.mpr started)
    | inside before' after' epoch' split' started' later' balances =>
        obtain ⟨rfl, rfl, -⟩ := last_unique (split.symm.trans split') started
          (Nat.le_of_lt started') later fun other member => Nat.not_le.mpr (later' other member)
        exact .inl ⟨started', balances⟩
    | firstBlock before' after' previous epoch' split' atStart balances same =>
        have split'' : window = (before' ++ [previous]) ++ epoch' :: after' := by simp [split']
        have later' : ∀ other ∈ after', ¬ other.firstBlockNumber ≤ blockNumber := by
          intro other member
          have parts := (List.pairwise_append.mp (split'' ▸ ascending)).2.1
          rw [← atStart]
          exact Nat.not_le.mpr ((List.pairwise_cons.mp parts).1 other member)
        obtain ⟨rfl, rfl, -⟩ := last_unique (split.symm.trans split'') started
          (Nat.le_of_eq atStart) later later'
        exact .inr ⟨atStart, before', previous, rfl, balances, same⟩
  · rintro (⟨less, balances⟩ | ⟨atStart, earlier, previous, rfl, balances, same⟩)
    · exact .inside before after epoch split less
        (fun other member => Nat.not_le.mp (later other member)) balances
    · exact .firstBlock earlier after previous epoch (by simp [split]) atStart balances same

/-- Where the verifier's lookup gives an entry, agreement is a matter of that entry. -/
private theorem agrees_iff_of_looked (isText : IsAddressText addressText)
    {slots : List WorkersParams} {index : Nat}
    (found : getWorkerParamsIndex slots blockNumber = some index)
    (slot : slots.getD index emptySlot = epoch.toWorkersParams) {params : WorkerParams}
    {picked : Epoch} {position : Nat} (entry : workerParamArray[position]? = some params)
    (describes : Describes addressText params picked)
    (looked : findWorkerParamForTask workerParamArray blockNumber = some params) :
    SelectionAgrees slots workerParamArray blockNumber ↔
      HasBalances workerParamArray position ∧ SameChoice epoch picked := by
  by_cases balances : params.balances = none
  · refine iff_of_false (not_agrees_of_never found slot fun hash task fuel workerAddress => ?_) ?_
    · rw [verifySelectedWorker_of_no_balances looked balances]
      nofun
    · rintro ⟨⟨params', entry', balances'⟩, -⟩
      rw [entry] at entry'
      cases entry'
      exact balances' balances
  · rw [agrees_iff_sameChoice found slot isText looked describes balances]
    exact ⟨fun same => ⟨⟨params, entry, balances⟩, same⟩, fun both => both.2⟩

/-- A verifier that holds the epochs of the contract agrees with its selection exactly
where the lookup is harmless. -/
theorem selectionAgrees_iff (isText : IsAddressText addressText) {history : List Epoch}
    (ascending : Ascending history) (held : Held addressText (latest 5 history) workerParamArray) :
    SelectionAgrees (slotsAfter history) workerParamArray blockNumber ↔
      LookupHarmless (latest 5 history) workerParamArray blockNumber := by
  obtain ⟨older, newer, ring⟩ := slotsAfter_ring ascending
  have inOrder : Ascending (latest 5 history) := ascending.sublist (latest_suffix 5 history).sublist
  generalize latest 5 history = window at held ring inOrder
  rcases none_or_last (·.firstBlockNumber ≤ blockNumber) window with
    none | ⟨before, epoch, after, split, started, later⟩
  · exact iff_of_true (agrees_of_none held ring none)
      (.noEpoch fun epoch member => Nat.not_le.mp (none epoch member))
  rw [lookupHarmless_iff inOrder split started later]
  obtain ⟨index, found, slot⟩ := ring.getWorkerParamsIndex_last inOrder split started later
  rcases Nat.lt_or_eq_of_le started with inside | atStart
  · have later' : ∀ other ∈ after, ¬ other.firstBlockNumber < blockNumber :=
      fun other member less => later other member (Nat.le_of_lt less)
    obtain ⟨params, entry, describes, looked⟩ :=
      findWorkerParamForTask_last (split ▸ held) inside later'
    have reflexive : SameChoice epoch epoch := fun value value' same => by rw [same rfl]
    have notStart := Nat.ne_of_lt inside
    rw [agrees_iff_of_looked isText found slot entry describes looked]
    simp [reflexive, inside, notStart]
  · have noLess : ¬ epoch.firstBlockNumber < blockNumber := by omega
    have later' : ∀ other ∈ epoch :: after, ¬ other.firstBlockNumber < blockNumber :=
      List.forall_mem_cons.mpr
        ⟨noLess, fun other member less => later other member (Nat.le_of_lt less)⟩
    rcases List.eq_nil_or_concat before with rfl | ⟨earlier, previous, rfl⟩
    · have looked := findWorkerParamForTask_none (split ▸ held) later'
      refine iff_of_false (not_agrees_of_never found slot fun hash task fuel workerAddress => ?_) ?_
      · rw [verifySelectedWorker, looked]
        exact fun same => missingParams_ne_accepted task (Except.ok.inj (Option.some.inj same))
      · simp [noLess]
    · have split' : window = earlier ++ previous :: epoch :: after := by simp [split]
      have less : previous.firstBlockNumber < blockNumber := by
        have apart := (List.pairwise_append.mp (split ▸ inOrder)).2.2
        rw [← atStart]
        exact apart previous (by simp) epoch List.mem_cons_self
      obtain ⟨params, entry, describes, looked⟩ :=
        findWorkerParamForTask_last (split' ▸ held) less later'
      rw [agrees_iff_of_looked isText found slot entry describes looked]
      simp [atStart]

end

/-! ## Two epochs of one worker -/

theorem plainText_isAddressText : IsAddressText plainText := by
  intro address
  have lower : ∀ n, n < 16 → (Nat.digitChar n).toLower = Nat.digitChar n := by decide
  have digits : (Hex.encode address).map Char.toLower = Hex.encode address := by
    induction address with
    | nil => rfl
    | cons b rest ih =>
        have bound : b.toNat < 256 := b.toNat_lt
        simp only [Hex.encode, List.map_cons, ih, lower _ (show b.toNat / 16 < 16 by omega),
          lower _ (Nat.mod_lt b.toNat (show 0 < 16 by decide))]
  have text : (plainText address).toLower = "0x" ++ toHexString address := by
    apply String.toList_injective
    change ((plainText address).map Char.toLower).toList = _
    simp [plainText, toHexString, digits]
  rw [text]
  simp [strip0x, toHexString]

/-- At the first block of the only epoch the contract has a worker and the verifier
reports missing parameters. -/
theorem selection_disagrees_at_first_block :
    ¬ SelectionAgrees (slotsAfter [plainChain 0]) [eventParams plainText (plainChain 0)] 1000 := by
  refine @not_agrees_of_never (plainChain 0) _ 1000 _ 0 rfl rfl ?_
  intro hash task fuel workerAddress
  have looked : findWorkerParamForTask [eventParams plainText (plainChain 0)] 1000 = none := rfl
  rw [verifySelectedWorker, looked]
  exact fun same => missingParams_ne_accepted task (Except.ok.inj (Option.some.inj same))

/-- Inside the second epoch both sides select the same worker. -/
theorem selectionAgrees_inside :
    SelectionAgrees (slotsAfter [plainChain 0, plainChain 1])
      [eventParams plainText (plainChain 0), eventParams plainText (plainChain 1)] 1150 := by
  refine (selectionAgrees_iff plainText_isAddressText ?_ ?_).mpr
    (.inside [plainChain 0] [] (plainChain 1) rfl (by decide) nofun ⟨_, rfl, nofun⟩)
  · exact List.pairwise_pair.mpr (by decide)
  · exact .cons (describes_event _ _) (.cons (describes_event _ _) .nil)

end Ethereum
