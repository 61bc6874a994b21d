import EnigmaP2P.Common.Utils
import EnigmaP2P.Ethereum.EpochSlots
import EnigmaP2P.Transition.Runs
import Mathlib.Data.Finset.Card
import Mathlib.Order.Interval.Finset.Nat
import Mathlib.Order.Monotone.Basic

/-!
# The epochs that the verifier holds

The verifier reads the slots of the contract once and appends every epoch event, dropping
the first entry of more than five. An event gives the block number as a number and the
stakes under `balances`. The contract interface gives block numbers as texts, and its
structure has `stakes` in place of `balances`.

A run is over a chain of epochs: events come from epoch `first` on, each once and in
order, and the read is answered once, with the slots after some number of epochs. The
answer replaces the array and an event is appended whatever the array holds. So the array
is right in runs where the read covers all events before its answer and none after it.
-/

namespace Ethereum

open Window Transition

/-- A `firstBlockNumber`: not there, a number, or the decimal text of a number. -/
inductive BlockNumber where
  | missing
  | num (value : Nat)
  | text (value : Nat)
  deriving DecidableEq

namespace BlockNumber

/-- The number that arithmetic comparisons see. -/
def value : BlockNumber → Option Nat
  | missing => none
  | num value | text value => some value

/-- `<`: two texts are compared as texts, and nothing is less than a missing number. -/
def lt : BlockNumber → BlockNumber → Bool
  | text a, text b => Nat.toDigits 10 a < Nat.toDigits 10 b
  | a, b => match a.value, b.value with
    | some a, some b => a < b
    | _, _ => false

end BlockNumber

/-- The fields of an entry that the verifier reads. -/
structure WorkerParams where
  firstBlockNumber : BlockNumber
  seed : Nat
  workers : List String
  balances : Option (List Nat)
  deriving DecidableEq

/-- `_validateWorkerParams`. -/
def validateWorkerParams (params : WorkerParams) : Bool :=
  params.firstBlockNumber ≠ .missing

/-- The array after `_newEpochEventCallback`. -/
def newEpochEventCallback (workerParamArray : List WorkerParams) (event : WorkerParams) :
    List WorkerParams :=
  if validateWorkerParams event then push 5 workerParamArray event else workerParamArray

/-- `smallestBlockIndex`: the first entry that is less than the one before it, or 0. -/
def smallestBlockIndex : List WorkerParams → Nat → Nat
  | previous :: params :: rest, i =>
      if params.firstBlockNumber.lt previous.firstBlockNumber then i
      else smallestBlockIndex (params :: rest) (i + 1)
  | _, _ => 0

/-- `_sortWorkerParams`: the entries before the smallest one move to the end. -/
def sortWorkerParams (workerParamArray : List WorkerParams) : List WorkerParams :=
  workerParamArray.rotate (smallestBlockIndex workerParamArray 1)

/-- The array after `_updateWorkerParamNow`. The loop of the check begins at index 1. -/
def updateWorkerParamNow (workerParamArray snapshot : List WorkerParams) :
    List WorkerParams :=
  if (snapshot.drop 1).all validateWorkerParams then sortWorkerParams snapshot
  else workerParamArray

/-- From the first slot to the oldest epoch, block numbers compare as texts like they do
as numbers. -/
def TextOrder : List WorkersParams → Prop
  | previous :: slot :: rest =>
      (Nat.toDigits 10 slot.firstBlockNumber < Nat.toDigits 10 previous.firstBlockNumber ↔
        slot.firstBlockNumber < previous.firstBlockNumber) ∧
      (previous.firstBlockNumber < slot.firstBlockNumber → TextOrder (slot :: rest))
  | _ => True

instance decidableTextOrder : DecidablePred TextOrder
  | [] => isTrue trivial
  | [_] => isTrue trivial
  | _ :: slot :: rest =>
      have := decidableTextOrder (slot :: rest)
      inferInstanceAs (Decidable (_ ∧ (_ → _)))

section

variable (addressText : Address → String)

/-- The parsed event of an epoch. -/
def eventParams (epoch : Epoch) : WorkerParams :=
  ⟨.num epoch.firstBlockNumber, epoch.seed, epoch.workers.map addressText, some epoch.stakes⟩

/-- A slot as the contract interface returns it. -/
def snapshotParams (slot : WorkersParams) : WorkerParams :=
  ⟨.text slot.firstBlockNumber, slot.seed, slot.workers.map addressText, none⟩

/-- The entry is about the epoch, in either form. -/
structure Describes (params : WorkerParams) (epoch : Epoch) : Prop where
  firstBlockNumber : params.firstBlockNumber.value = some epoch.firstBlockNumber
  seed : params.seed = epoch.seed
  workers : params.workers = epoch.workers.map addressText
  balances : params.balances = none ∨ params.balances = some epoch.stakes

theorem describes_event (epoch : Epoch) :
    Describes addressText (eventParams addressText epoch) epoch :=
  ⟨rfl, rfl, rfl, .inr rfl⟩

theorem describes_snapshot (epoch : Epoch) :
    Describes addressText (snapshotParams addressText epoch.toWorkersParams) epoch :=
  ⟨rfl, rfl, rfl, .inl rfl⟩

/-! ## Sorting a snapshot -/

private theorem smallestBlockIndex_cons (previous slot : WorkersParams)
    (rest : List WorkersParams) (i : Nat) :
    smallestBlockIndex ((previous :: slot :: rest).map (snapshotParams addressText)) i =
      if Nat.toDigits 10 slot.firstBlockNumber < Nat.toDigits 10 previous.firstBlockNumber then i
      else smallestBlockIndex ((slot :: rest).map (snapshotParams addressText)) (i + 1) := by
  change (if decide (_ < _) = true then _ else _) = _
  simp only [decide_eq_true_eq]
  rfl

/-- Ascending slots are left as they are. -/
private theorem smallestBlockIndex_ascending {epochs : List Epoch} (ascending : Ascending epochs)
    (order : TextOrder (epochs.map Epoch.toWorkersParams)) (i : Nat) :
    smallestBlockIndex ((epochs.map Epoch.toWorkersParams).map (snapshotParams addressText)) i =
      0 := by
  induction epochs generalizing i with
  | nil => rfl
  | cons previous epochs ih =>
      cases epochs with
      | nil => rfl
      | cons epoch epochs =>
          obtain ⟨above, ascending⟩ := List.pairwise_cons.mp ascending
          have less := above epoch List.mem_cons_self
          have later := order.2 less
          have noDescent : ¬ Nat.toDigits 10 epoch.firstBlockNumber <
              Nat.toDigits 10 previous.firstBlockNumber :=
            fun descent => Nat.lt_asymm less (order.1.mp descent)
          change smallestBlockIndex
            (List.map (snapshotParams addressText) (previous.toWorkersParams ::
              epoch.toWorkersParams :: epochs.map Epoch.toWorkersParams)) i = _
          rw [smallestBlockIndex_cons, if_neg noDescent]
          exact ih ascending later (i + 1)

/-- The oldest epoch is found behind the newer ones. -/
private theorem smallestBlockIndex_oldest {previous oldest : Epoch} {newer older : List Epoch}
    (ascending : Ascending (previous :: newer))
    (below : ∀ epoch ∈ previous :: newer, oldest.firstBlockNumber < epoch.firstBlockNumber)
    (order : TextOrder ((previous :: newer ++ oldest :: older).map Epoch.toWorkersParams))
    (i : Nat) :
    smallestBlockIndex (((previous :: newer ++ oldest :: older).map Epoch.toWorkersParams).map
      (snapshotParams addressText)) i = i + newer.length := by
  induction newer generalizing previous i with
  | nil =>
      have descent := order.1.mpr (below previous List.mem_cons_self)
      change smallestBlockIndex
        (List.map (snapshotParams addressText) (previous.toWorkersParams ::
          oldest.toWorkersParams :: older.map Epoch.toWorkersParams)) i = _
      rw [smallestBlockIndex_cons, if_pos descent]
      rfl
  | cons epoch newer ih =>
      obtain ⟨above, ascending⟩ := List.pairwise_cons.mp ascending
      have less := above epoch List.mem_cons_self
      have noDescent : ¬ Nat.toDigits 10 epoch.firstBlockNumber <
          Nat.toDigits 10 previous.firstBlockNumber :=
        fun descent => Nat.lt_asymm less (order.1.mp descent)
      have later := ih ascending (fun other member => below other (List.mem_cons_of_mem _ member))
        (order.2 less) (i + 1)
      change smallestBlockIndex
        (List.map (snapshotParams addressText) (previous.toWorkersParams ::
          epoch.toWorkersParams :: (newer ++ oldest :: older).map Epoch.toWorkersParams)) i = _
      rw [smallestBlockIndex_cons, if_neg noDescent, List.length_cons]
      rw [Nat.add_comm newer.length, ← Nat.add_assoc]
      exact later

/-- Sorting turns a full ring into its window. -/
theorem sortWorkerParams_ring {window older newer : List Epoch} {slots : List WorkersParams}
    (ring : IsRing window older newer slots) (full : window.length = 5)
    (ascending : Ascending window) (order : TextOrder slots) :
    sortWorkerParams (slots.map (snapshotParams addressText)) =
      window.map fun epoch => snapshotParams addressText epoch.toWorkersParams := by
  obtain ⟨split, layout, turn⟩ := ring
  rw [full, Nat.sub_self, List.replicate_zero, List.append_nil] at layout
  subst layout
  obtain ⟨olderAscending, newerAscending, apart⟩ := List.pairwise_append.mp (split ▸ ascending)
  cases newer with
  | nil =>
      rw [List.append_nil] at split
      subst split
      rw [sortWorkerParams, List.nil_append, smallestBlockIndex_ascending _ ascending order,
        List.rotate_zero, List.map_map]
      rfl
  | cons previous newer =>
      cases older with
      | nil =>
          have short := turn.mp rfl
          omega
      | cons oldest older =>
          rw [sortWorkerParams, smallestBlockIndex_oldest _ newerAscending
            (apart oldest List.mem_cons_self) order, Nat.add_comm,
            ← List.length_cons (a := previous),
            List.map_append, List.map_append,
            ← List.length_map (f := Epoch.toWorkersParams),
            ← List.length_map (f := snapshotParams addressText),
            List.rotate_append_length_eq, split]
          simp [Function.comp_def]

end

/-! ## Runs -/

/-- What happens to the verifier: the next epoch event is delivered, or the read is
answered with the slots after `known` epochs of the chain. -/
inductive EpochLabel where
  | deliver
  | answer (known : Nat)

/-- The array, the number of events so far, and the answer. -/
structure EpochState where
  workerParamArray : List WorkerParams
  delivered : Nat
  snapshot : Option Nat

def EpochState.initial : EpochState := ⟨[], 0, none⟩

/-- The epochs of the chain before `known`. -/
def historyBefore (chain : Nat → Epoch) (known : Nat) : List Epoch :=
  (List.range known).map chain

section

variable (addressText : Address → String) (chain : Nat → Epoch) (first : Nat)

/-- The second answer of a read does not exist, and the label then changes nothing. -/
def epochStep (state : EpochState) : EpochLabel → EpochState
  | .deliver =>
      { state with
        workerParamArray := newEpochEventCallback state.workerParamArray
          (eventParams addressText (chain (first + state.delivered)))
        delivered := state.delivered + 1 }
  | .answer known =>
      match state.snapshot with
      | some _ => state
      | none =>
          { state with
            workerParamArray := updateWorkerParamNow state.workerParamArray
              ((slotsAfter (historyBefore chain known)).map (snapshotParams addressText))
            snapshot := some known }

/-- The epochs in the snapshot and those delivered. -/
def seenEpochs (known delivered : Nat) : Finset Nat :=
  Finset.Ico (known - 5) known ∪ Finset.Ico first (first + delivered)

/-- The array consists of the latest five of the epochs, in order. -/
structure HoldsLatest (seen : Finset Nat) (workerParamArray : List WorkerParams) : Prop where
  ascending : workerParamArray.Pairwise fun earlier later =>
    ∃ a b, earlier.firstBlockNumber.value = some a ∧ later.firstBlockNumber.value = some b ∧ a < b
  noDuplicates : workerParamArray.Nodup
  atMost : workerParamArray.length ≤ 5
  latest : ∃ epochs : List Nat,
    List.Forall₂ (fun params i => Describes addressText params (chain i)) workerParamArray epochs ∧
    ∀ i, i ∈ epochs ↔ i ∈ seen ∧ (seen.filter (i < ·)).card < 5

/-- Once the read has been answered the array holds the latest epochs. -/
def WindowRight (state : EpochState) : Prop :=
  ∀ known, state.snapshot = some known →
    HoldsLatest addressText chain (seenEpochs first known state.delivered) state.workerParamArray

/-- After the answer an event is about an epoch that the snapshot does not have. The
answer comes with all five slots in use, has every epoch that was delivered before it or
a later one, and its block numbers compare as texts like they do as numbers. -/
def CleanLabel (state : EpochState) : EpochLabel → Prop
  | .deliver => ∀ known, state.snapshot = some known → known ≤ first + state.delivered
  | .answer known => state.snapshot = none →
      5 ≤ known ∧ (state.delivered = 0 ∨ first + state.delivered ≤ known) ∧
      TextOrder (slotsAfter (historyBefore chain known))

variable {addressText chain first}

/-- The array is the window of all epochs that were seen. -/
private def WindowInv (addressText : Address → String) (chain : Nat → Epoch) (first : Nat)
    (state : EpochState) : Prop :=
  ∀ known, state.snapshot = some known → ∃ sorted : List Nat, sorted.Pairwise (· < ·) ∧
    (∀ i, i ∈ sorted ↔ i ∈ seenEpochs first known state.delivered) ∧
    List.Forall₂ (fun params i => Describes addressText params (chain i))
      state.workerParamArray (latest 5 sorted)

private theorem ascending_historyBefore
    (ascending : StrictMono fun i => (chain i).firstBlockNumber) (known : Nat) :
    Ascending (historyBefore chain known) := by
  rw [Ascending, historyBefore, List.pairwise_map]
  exact List.pairwise_lt_range.imp fun less => ascending less

private theorem latest_historyBefore {known : Nat} (full : 5 ≤ known) :
    latest 5 (historyBefore chain known) = (List.range' (known - 5) 5).map chain := by
  rw [historyBefore, latest_map, latest, List.length_range, List.range_eq_range',
    List.drop_range']
  congr 2
  · omega
  · omega

/-- The answer, when the conditions are met, is the window of its history. -/
private theorem updateWorkerParamNow_window
    (ascending : StrictMono fun i => (chain i).firstBlockNumber) {known : Nat} (full : 5 ≤ known)
    (order : TextOrder (slotsAfter (historyBefore chain known)))
    (workerParamArray : List WorkerParams) :
    List.Forall₂ (fun params i => Describes addressText params (chain i))
      (updateWorkerParamNow workerParamArray
        ((slotsAfter (historyBefore chain known)).map (snapshotParams addressText)))
      (List.range' (known - 5) 5) := by
  have valid : (((slotsAfter (historyBefore chain known)).map
      (snapshotParams addressText)).drop 1).all validateWorkerParams := by
    rw [← List.map_drop, List.all_map, List.all_eq_true]
    exact fun _ _ => rfl
  obtain ⟨older, newer, ring⟩ := slotsAfter_ring (ascending_historyBefore ascending known)
  have window := @latest_historyBefore chain known full
  have sorted := sortWorkerParams_ring addressText ring (by rw [window]; simp)
    ((ascending_historyBefore ascending known).sublist (latest_suffix _ _).sublist) order
  rw [updateWorkerParamNow, if_pos valid, sorted, window, List.map_map]
  rw [List.forall₂_map_left_iff, List.forall₂_same]
  exact fun i _ => describes_snapshot addressText (chain i)

private theorem windowInv_step (ascending : StrictMono fun i => (chain i).firstBlockNumber)
    (state : EpochState) (label : EpochLabel) (inv : WindowInv addressText chain first state)
    (clean : CleanLabel chain first state label) :
    WindowInv addressText chain first (epochStep addressText chain first state label) := by
  cases label with
  | deliver =>
      intro known answered
      obtain ⟨sorted, isSorted, members, window⟩ := inv known answered
      have unseen := clean known answered
      refine ⟨sorted ++ [first + state.delivered], ?_, ?_, ?_⟩
      · refine List.pairwise_append.mpr ⟨isSorted, List.pairwise_singleton _ _, ?_⟩
        intro i member j last
        have seen := (members i).mp member
        rw [List.mem_singleton.mp last]
        simp only [seenEpochs, Finset.mem_union, Finset.mem_Ico] at seen
        omega
      · intro i
        simp only [epochStep, seenEpochs, List.mem_append, members i, Finset.mem_union,
          Finset.mem_Ico, List.mem_singleton]
        omega
      · rw [← push_latest]
        exact push_forall₂ window (describes_event addressText _)
  | answer known =>
      cases snapshot : state.snapshot with
      | some earlier =>
          simp only [epochStep, snapshot]
          exact inv
      | none =>
          obtain ⟨full, covered, order⟩ := clean snapshot
          simp only [epochStep, snapshot]
          rintro _ ⟨rfl⟩
          -- events of epochs that the snapshot no longer has stay outside the window
          let early := min state.delivered (known - 5 - first)
          refine ⟨List.range' first early ++ List.range' (known - 5) 5, ?_, ?_, ?_⟩
          · refine List.pairwise_append.mpr
              ⟨List.pairwise_lt_range', List.pairwise_lt_range', ?_⟩
            intro i before j late
            rw [List.mem_range'_1] at before late
            omega
          · intro i
            simp only [seenEpochs, List.mem_append, List.mem_range'_1, Finset.mem_union,
              Finset.mem_Ico]
            omega
          · have last : latest 5 (List.range' first early ++ List.range' (known - 5) 5) =
                List.range' (known - 5) 5 := by
              rw [latest, List.length_append, List.length_range', List.length_range',
                Nat.add_sub_cancel, List.drop_append_of_le_length (by simp), List.drop_eq_nil_of_le
                  (by simp), List.nil_append]
            rw [last]
            exact updateWorkerParamNow_window ascending full order _

/-- Entries about ascending epochs have ascending block numbers. -/
private theorem numbers_ascending (ascending : StrictMono fun i => (chain i).firstBlockNumber)
    {workerParamArray : List WorkerParams} {epochs : List Nat}
    (window : List.Forall₂ (fun params i => Describes addressText params (chain i))
      workerParamArray epochs) (sorted : epochs.Pairwise (· < ·)) :
    workerParamArray.Pairwise fun earlier later => ∃ a b,
      earlier.firstBlockNumber.value = some a ∧ later.firstBlockNumber.value = some b ∧ a < b := by
  induction window with
  | nil => exact List.Pairwise.nil
  | cons describes rest ih =>
      obtain ⟨below, sorted⟩ := List.pairwise_cons.mp sorted
      refine List.pairwise_cons.mpr ⟨?_, ih sorted⟩
      intro params member
      obtain ⟨i, inRest, describes'⟩ := exists_partner rest member
      exact ⟨_, _, describes.firstBlockNumber, describes'.firstBlockNumber,
        ascending (below i inRest)⟩

/-- The window of what was seen is what the array should hold. -/
private theorem WindowInv.right (ascending : StrictMono fun i => (chain i).firstBlockNumber)
    {state : EpochState} (inv : WindowInv addressText chain first state) :
    WindowRight addressText chain first state := by
  intro known answered
  obtain ⟨sorted, isSorted, members, window⟩ := inv known answered
  have inOrder := numbers_ascending ascending window
    (isSorted.sublist (latest_suffix 5 sorted).sublist)
  have seen : seenEpochs first known state.delivered = sorted.toFinset := by
    ext i
    rw [← members i, List.mem_toFinset]
  refine ⟨inOrder, ?_, ?_, latest 5 sorted, window, ?_⟩
  · refine inOrder.imp ?_
    rintro earlier later ⟨a, b, hearlier, hlater, less⟩ rfl
    rw [hearlier] at hlater
    cases hlater
    exact Nat.lt_irrefl _ less
  · rw [window.length_eq, length_latest]
    exact Nat.min_le_left _ _
  · intro i
    have newer : (sorted.toFinset.filter (i < ·)).card = (sorted.filter (i < ·)).length := by
      rw [← List.toFinset_card_of_nodup (List.Nodup.filter _ (isSorted.imp Nat.ne_of_lt)),
        List.toFinset_filter]
      simp
    rw [mem_latest_iff isSorted, members i, seen, newer]

/-- In every state of a run whose labels are clean, the array holds the latest epochs of
the snapshot and the events once the read has been answered. -/
theorem workerParamArray_window (ascending : StrictMono fun i => (chain i).firstBlockNumber)
    {labels : List EpochLabel}
    (clean : Meets (CleanLabel chain first) (epochStep addressText chain first)
      EpochState.initial labels) {passed : List EpochLabel} (before : passed <+: labels) :
    WindowRight addressText chain first
      (run (epochStep addressText chain first) EpochState.initial passed) := by
  obtain ⟨later, rfl⟩ := before
  refine WindowInv.right ascending (invariant_run ?_ (windowInv_step ascending) clean.of_append)
  exact nofun

end

/-! ## Runs that lose or repeat an epoch -/

/-- A text for an address. -/
def plainText (address : Address) : String :=
  "0x" ++ Common.toHexString address

/-- Epochs of a hundred blocks with one worker. -/
def plainChain (i : Nat) : Epoch where
  firstBlockNumber := 1000 + 100 * i
  workers := [List.replicate 20 1]
  stakes := [1]
  seed := i
  started := by omega
  distinct := by simp
  nonzero := by decide
  sameLength := rfl
  positive := by decide
  fits := by decide

theorem plainChain_ascending : StrictMono fun i => (plainChain i).firstBlockNumber :=
  fun _ _ less => Nat.add_lt_add_left (Nat.mul_lt_mul_of_pos_left less (by decide)) 1000

/-- A snapshot of five epochs overwrites the sixth that was delivered before the answer;
an event about an epoch of the snapshot is stored again. -/
theorem workerParamArray_lost_and_repeated :
    ¬ WindowRight plainText plainChain 5
        (run (epochStep plainText plainChain 5) EpochState.initial [.deliver, .answer 5]) ∧
    ¬ WindowRight plainText plainChain 4
        (run (epochStep plainText plainChain 4) EpochState.initial [.answer 5, .deliver]) := by
  constructor
  · intro right
    obtain ⟨epochs, window, members⟩ := (right 5 rfl).latest
    have newest : 5 ∈ epochs := (members 5).mpr (by decide)
    obtain ⟨params, held, describes⟩ := exists_partner window.flip newest
    have others : ∀ params ∈ (run (epochStep plainText plainChain 5) EpochState.initial
        [.deliver, .answer 5]).workerParamArray,
          params.firstBlockNumber.value ≠ some 1500 := by decide
    exact others params held describes.firstBlockNumber
  · intro right
    have ascending := (right 5 rfl).ascending
    have twice : (run (epochStep plainText plainChain 4) EpochState.initial
        [.answer 5, .deliver]).workerParamArray.map (·.firstBlockNumber.value) =
          [some 1100, some 1200, some 1300, some 1400, some 1400] := by decide
    have pairs :
        ([some 1100, some 1200, some 1300, some 1400, some 1400] : List (Option Nat)).Pairwise
        fun earlier later => ∃ a b, earlier = some a ∧ later = some b ∧ a < b := by
      rw [← twice]
      exact List.pairwise_map.mpr ascending
    obtain ⟨_, _, ⟨rfl⟩, ⟨rfl⟩, less⟩ :=
      List.pairwise_iff_getElem.mp pairs 3 4 (by decide) (by decide) (by decide)
    exact Nat.lt_irrefl _ less

/-- The same chain with an event of the next epoch after the answer. -/
theorem workerParamArray_window_plain :
    WindowRight plainText plainChain 5
      (run (epochStep plainText plainChain 5) EpochState.initial [.answer 5, .deliver]) := by
  have clean : Meets (CleanLabel plainChain 5) (epochStep plainText plainChain 5)
      EpochState.initial [.answer 5, .deliver] := by
    refine ⟨fun _ => ⟨by decide, .inl rfl, by decide⟩, ?_, trivial⟩
    rintro _ ⟨rfl⟩
    decide
  exact workerParamArray_window plainChain_ascending clean List.prefix_rfl

end Ethereum
