import EnigmaP2P.Common.Constants
import EnigmaP2P.Ethereum.StateSync
import EnigmaP2P.Tasks.Result
import Mathlib.Order.Interval.Set.Defs
import Mathlib.Tactic.Linarith

/-!
# Removal of contracts and deltas

Two senders ask the core to remove deltas: the sync, for a contract that is ahead of the
chain, and the commit of a receipt that failed. A `RemoveDeltas` range has the ends `from`
and `to`. The sync writes the last delta as `to`, the commit the one after it, so no
reading of the upper end is right for both.
-/

namespace Core

open Js Common Tasks Ethereum

/-- The messages `RemoveContract` and `RemoveDeltas`; the latter has one range, from
`fromKey` to `toKey`. -/
inductive Removal where
  | removeContract (address : Option String)
  | removeDeltas (address : Option String) (fromKey toKey : Option Json)

/-- The `type` of the message. -/
def Removal.type : Removal → String
  | removeContract _ => CoreRequests.removeContract
  | removeDeltas .. => CoreRequests.removeDeltas

/-- The message of the sync for a contract that the node has in excess. -/
def excessRemoval (contract : ExcessState) : Removal :=
  if contract.remoteTip = -1 then .removeContract (some contract.address)
  else .removeDeltas (some contract.address) (some (.num (contract.remoteTip + 1 : Int)))
    (some (.num (contract.localTip : Nat)))

/-- `key + 1`: a number is increased, and everything else is made a text, to which `1` is
appended. `none` is `NaN` where a key is missing. -/
def plusOne : Option Json → Except Exn (Option Json)
  | none => .ok none
  | some .null => .ok (some (.num 1))
  | some (.bool b) => .ok (some (.num (if b then 2 else 1)))
  | some (.num q) => .ok (some (.num (q + 1)))
  | some value => value.toKey.map fun text => some (.str (text ++ "1"))

/-- The message of `_revertState` for the delta of a computation. -/
def deltaRemoval (address : Option String) (deltaKey : Option Json) : Except Exn Removal :=
  (plusOne deltaKey).map (.removeDeltas address deltaKey ·)

/-! ## What a range removes -/

/-- The upper end of a range belongs to it, or does not. -/
inductive UpperEnd where
  | inclusive
  | exclusive
  deriving DecidableEq

/-- The deltas of a range. -/
def removedDeltas (upperEnd : UpperEnd) : Removal → Set Nat
  | .removeContract _ => Set.univ
  | .removeDeltas _ fromKey toKey =>
      { key | ∃ lower upper : Rat, fromKey = some (.num lower) ∧ toKey = some (.num upper) ∧
        lower ≤ key ∧ match upperEnd with
          | .inclusive => (key : Rat) ≤ upper
          | .exclusive => (key : Rat) < upper }

/-- The range of the sync removes the deltas behind the remote tip. -/
def ExcessRemoved (upperEnd : UpperEnd) (contract : ExcessState) : Prop :=
  removedDeltas upperEnd (excessRemoval contract) =
    { key : Nat | contract.remoteTip + 1 ≤ (key : Int) ∧ key ≤ contract.localTip }

/-- The range of the commit removes the one delta. -/
def DeltaRemoved (upperEnd : UpperEnd) (address : Option String) (deltaKey : Nat) : Prop :=
  ∃ message, deltaRemoval address (some (.num deltaKey)) = .ok message ∧
    removedDeltas upperEnd message = {deltaKey}

theorem mem_removedDeltas_num {upperEnd : UpperEnd} {address : Option String} {lower upper : Rat}
    {key : Nat} :
    key ∈ removedDeltas upperEnd (.removeDeltas address (some (.num lower)) (some (.num upper))) ↔
      lower ≤ key ∧ match upperEnd with
        | .inclusive => (key : Rat) ≤ upper
        | .exclusive => (key : Rat) < upper := by
  constructor
  · rintro ⟨_, _, ⟨rfl⟩, ⟨rfl⟩, ends⟩
    exact ends
  · exact fun ends => ⟨lower, upper, rfl, rfl, ends⟩

/-- The commit writes ranges without their upper end. -/
theorem deltaRemoved_iff (upperEnd : UpperEnd) (address : Option String) (deltaKey : Nat) :
    DeltaRemoved upperEnd address deltaKey ↔ upperEnd = .exclusive := by
  have members : DeltaRemoved upperEnd address deltaKey ↔
      ∀ key, key ∈ removedDeltas upperEnd (.removeDeltas address (some (.num (deltaKey : Rat)))
        (some (.num ((deltaKey : Rat) + 1)))) ↔ key = deltaKey := by
    constructor
    · rintro ⟨message, sent, removed⟩ key
      cases sent
      exact Set.ext_iff.mp removed key
    · exact fun same => ⟨_, rfl, Set.ext same⟩
  rw [members]
  cases upperEnd with
  | inclusive =>
      refine iff_of_false (fun same => ?_) nofun
      have next := (same (deltaKey + 1)).mp (mem_removedDeltas_num.mpr ⟨?_, ?_⟩)
      · omega
      · push_cast
        linarith
      · push_cast
        exact le_refl _
  | exclusive =>
      refine iff_of_true (fun key => mem_removedDeltas_num.trans ?_) rfl
      constructor
      · rintro ⟨lower, upper⟩
        have lower : deltaKey ≤ key := by exact_mod_cast lower
        have upper : key < deltaKey + 1 := by exact_mod_cast upper
        omega
      · rintro rfl
        exact ⟨le_refl _, by linarith⟩

/-- The sync writes ranges with their upper end. -/
theorem excessRemoved_iff (upperEnd : UpperEnd) {contract : ExcessState}
    (listed : 0 ≤ contract.remoteTip) (excess : contract.remoteTip < contract.localTip) :
    ExcessRemoved upperEnd contract ↔ upperEnd = .inclusive := by
  have message : excessRemoval contract = .removeDeltas (some contract.address)
      (some (.num (contract.remoteTip + 1 : Int))) (some (.num (contract.localTip : Nat))) :=
    if_neg (by omega)
  have members : ExcessRemoved upperEnd contract ↔ ∀ key, key ∈ removedDeltas upperEnd
      (.removeDeltas (some contract.address) (some (.num (contract.remoteTip + 1 : Int)))
        (some (.num (contract.localTip : Nat)))) ↔
      contract.remoteTip + 1 ≤ (key : Int) ∧ key ≤ contract.localTip := by
    rw [ExcessRemoved, message]
    exact Set.ext_iff
  have lower : ∀ key : Nat, ((contract.remoteTip + 1 : Int) : Rat) ≤ key ↔
      contract.remoteTip + 1 ≤ (key : Int) := by
    intro key
    rw [← Int.cast_natCast (R := Rat) key, Int.cast_le]
  rw [members]
  cases upperEnd with
  | inclusive =>
      refine iff_of_true (fun key => mem_removedDeltas_num.trans ?_) rfl
      rw [lower, Nat.cast_le]
  | exclusive =>
      refine iff_of_false (fun same => ?_) nofun
      have last := mem_removedDeltas_num.mp ((same contract.localTip).mpr ⟨?_, le_refl _⟩)
      · exact lt_irrefl _ last.2
      · omega

/-- No reading of the upper end is right for both senders. -/
theorem removals_disagree (upperEnd : UpperEnd) {contract : ExcessState}
    (listed : 0 ≤ contract.remoteTip) (excess : contract.remoteTip < contract.localTip)
    (address : Option String) (deltaKey : Nat) :
    ¬ (ExcessRemoved upperEnd contract ∧ DeltaRemoved upperEnd address deltaKey) := by
  rw [excessRemoved_iff upperEnd listed excess, deltaRemoved_iff]
  rintro ⟨rfl, other⟩
  cases other

/-- A contract with two excess deltas. -/
def twoInExcess : ExcessState := ⟨"0a", 0, 2⟩

theorem removals_disagree_two :
    ¬ (ExcessRemoved .exclusive twoInExcess ∧ DeltaRemoved .exclusive (some "0a") 3) :=
  removals_disagree .exclusive (Int.le_refl 0) (by decide) (some "0a") 3

/-- There is no common reading for all excess contracts and all deltas. -/
theorem no_common_reading :
    ¬ ∃ upperEnd, (∀ contract : ExcessState, 0 ≤ contract.remoteTip →
        contract.remoteTip < contract.localTip → ExcessRemoved upperEnd contract) ∧
      ∀ address deltaKey, DeltaRemoved upperEnd address deltaKey := by
  rintro ⟨upperEnd, sync, commit⟩
  have inclusive := (excessRemoved_iff upperEnd (Int.le_refl 0) (by decide)).mp
    (sync twoInExcess (Int.le_refl 0) (by decide))
  have exclusive := (deltaRemoved_iff upperEnd none 0).mp (commit none 0)
  rw [inclusive] at exclusive
  cases exclusive

end Core
