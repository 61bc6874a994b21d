import EnigmaP2P.Ethereum.Selection

/-!
# How many residues choose a worker

The scan of `selectWorkerGroup` subtracts balances from a residue below their total and
stops when the rest is not positive. The comment wants it negative: the residue that
uses up the balance of a worker belongs to the next one. So the first worker has a residue
too many, also without a balance, and the last one with a balance has one too few. All
residues are counted.
-/

namespace Ethereum

open Js Weighted

/-- The scan of `selectWorkerGroup` with the position where it stops; `none` is its end. -/
def scanPosition : List String → List Nat → Int → Except Exn (Option Nat)
  | [], _, _ => .ok none
  | _ :: _, [], _ => .error .typeError
  | _ :: workers, balance :: balances, randVal =>
      if randVal - balance ≤ 0 then .ok (some 0)
      else (scanPosition workers balances (randVal - balance)).map (·.map (· + 1))

/-- The residues below the total for which the scan picks the worker at a position. -/
def residuesOf (workers : List String) (balances : List Nat) (i : Nat) : Finset Nat :=
  (Finset.range balances.sum).filter fun residue =>
    scanPosition workers balances residue = .ok (some i)

/-- The worker that is picked is the one at the position. -/
theorem scanWorkers_eq_scanPosition (workers : List String) (balances : List Nat)
    (randVal : Int) : scanWorkers workers balances randVal =
      (scanPosition workers balances randVal).map (·.bind (workers[·]?)) := by
  induction workers generalizing balances randVal with
  | nil => rfl
  | cons worker workers ih =>
      cases balances with
      | nil => rfl
      | cons balance balances =>
          rw [scanWorkers, scanPosition]
          split
          · rfl
          · rw [ih]
            cases scanPosition workers balances (randVal - balance) with
            | error exn => rfl
            | ok position => cases position <;> rfl

/-- With a balance for each worker the scan stops at the choice of the residue. -/
theorem scanPosition_eq {workers : List String} {balances : List Nat} (randVal : Int)
    (parallel : balances.length = workers.length) :
    scanPosition workers balances randVal =
      .ok (firstNonpositive (fun value stake => value - stake) balances randVal) := by
  induction workers generalizing balances randVal with
  | nil =>
      rw [List.length_nil, List.length_eq_zero_iff] at parallel
      rw [parallel]
      rfl
  | cons worker workers ih =>
      cases balances with
      | nil => cases parallel
      | cons balance balances =>
          rw [scanPosition, firstNonpositive]
          split
          · rfl
          · rw [ih (randVal - balance) (Nat.succ.inj parallel)]
            rfl

/-- The residues of a worker are as many as its balance exactly if it is the first one and
has everything, or a later one that has nothing or is followed by a worker with a balance. -/
theorem card_residuesOf_iff {workers : List String} {balances : List Nat}
    (parallel : balances.length = workers.length) (staked : 0 < balances.sum) {i : Nat}
    (inside : i < balances.length) :
    (residuesOf workers balances i).card = balances[i] ↔
      (i = 0 ∧ balances[i] = balances.sum) ∨
      (i ≠ 0 ∧ (balances[i] = 0 ∨ (balances.take (i + 1)).sum < balances.sum)) := by
  have nonempty : balances ≠ [] := by
    rintro rfl
    cases inside
  have chosen : residuesOf workers balances i =
      (Finset.range balances.sum).filter fun residue => choice balances residue = i := by
    refine Finset.filter_congr fun residue below => ?_
    have bound : residue ≤ balances.sum := Nat.le_of_lt (Finset.mem_range.mp below)
    rw [scanPosition_eq _ parallel, firstNonpositive_exact nonempty bound, Except.ok.injEq,
      Option.some.injEq]
  rw [chosen]
  exact card_choice_eq_iff inside staked

/-- Two equal balances get all residues and none, and a worker without a balance is picked. -/
theorem card_residuesOf_wrong :
    (residuesOf ["a", "b"] [1, 1] 0).card = 2 ∧ (residuesOf ["a", "b"] [1, 1] 1).card = 0 ∧
      (residuesOf ["a", "b"] [0, 2] 0).card = 1 := by
  decide

/-- A worker between two others has its share. -/
theorem card_residuesOf_middle : (residuesOf ["a", "b", "c"] [1, 2, 3] 1).card = 2 :=
  (card_residuesOf_iff rfl (by decide) (by decide)).mpr (.inr ⟨by decide, .inr (by decide)⟩)

end Ethereum
