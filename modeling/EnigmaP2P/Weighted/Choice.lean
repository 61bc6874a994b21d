import Mathlib.Algebra.BigOperators.Group.List.Basic
import Mathlib.Algebra.GroupWithZero.Nat
import Mathlib.Order.Interval.Finset.Nat
import Mathlib.Order.Lattice.Nat

/-!
# Choice weighted by stakes

A number below the total of a list of stakes chooses the first position at which the
running total reaches it. A program finds the position by subtracting stakes until the
rest is not positive; the subtraction may be exact or wrap around like a signed machine
word. Both ways of counting find the same position as long as the total fits the word.
-/

namespace Weighted

/-- The first position at which the running total reaches `value`, or the length. -/
def choice : List Nat → Nat → Nat
  | [], _ => 0
  | stake :: rest, value => if value ≤ stake then 0 else choice rest (value - stake) + 1

/-- A value up to the total chooses a position of the list. -/
theorem choice_lt {stakes : List Nat} {value : Nat} (nonempty : stakes ≠ [])
    (bound : value ≤ stakes.sum) : choice stakes value < stakes.length := by
  induction stakes generalizing value with
  | nil => exact absurd rfl nonempty
  | cons stake rest ih =>
      rw [choice]
      split
      · exact Nat.succ_pos _
      · rename_i beyond
        rw [List.sum_cons] at bound
        have more : rest ≠ [] := by
          rintro rfl
          rw [List.sum_nil] at bound
          omega
        exact Nat.succ_lt_succ (ih more (by omega))

/-- The first position is chosen up to its stake, and another one beyond the total of those
before it, up to the total with its own. -/
theorem choice_eq_iff {stakes : List Nat} {value i : Nat} (bound : value ≤ stakes.sum)
    (inside : i < stakes.length) : choice stakes value = i ↔
      (i = 0 ∨ (stakes.take i).sum < value) ∧ value ≤ (stakes.take (i + 1)).sum := by
  induction stakes generalizing value i with
  | nil => cases inside
  | cons stake rest ih =>
      rw [List.sum_cons] at bound
      rw [choice]
      cases i with
      | zero =>
          have own : ((stake :: rest).take (0 + 1)).sum = stake := by simp
          rw [own]
          split
          · omega
          · omega
      | succ i =>
          rw [List.take_succ_cons, List.take_succ_cons, List.sum_cons, List.sum_cons]
          split
          · omega
          · have later := @ih (value - stake) i (by omega) (Nat.lt_of_succ_lt_succ inside)
            rw [Nat.add_right_cancel_iff, later]
            constructor
            · rintro ⟨beyond, upTo⟩
              refine ⟨.inr ?_, by omega⟩
              rcases beyond with rfl | beyond
              · rw [List.take_zero, List.sum_nil]
                omega
              · omega
            · rintro ⟨beyond, upTo⟩
              exact ⟨.inr (by omega), by omega⟩

/-- How many residues below the total choose a position: the first one has one too many, and
the last one with a stake has one too few. -/
theorem card_choice {stakes : List Nat} {i : Nat} (inside : i < stakes.length) :
    ((Finset.range stakes.sum).filter fun residue => choice stakes residue = i).card =
      min ((stakes.take (i + 1)).sum + 1) stakes.sum -
        if i = 0 then 0 else (stakes.take i).sum + 1 := by
  have filtered : (Finset.range stakes.sum).filter (fun residue => choice stakes residue = i) =
      Finset.Ico (if i = 0 then 0 else (stakes.take i).sum + 1)
        (min ((stakes.take (i + 1)).sum + 1) stakes.sum) := by
    ext residue
    rw [Finset.mem_filter, Finset.mem_range, Finset.mem_Ico]
    constructor
    · rintro ⟨below, chosen⟩
      obtain ⟨beyond, upTo⟩ := (choice_eq_iff (Nat.le_of_lt below) inside).mp chosen
      refine ⟨?_, by omega⟩
      split
      · exact Nat.zero_le _
      · omega
    · rintro ⟨beyond, upTo⟩
      have below : residue < stakes.sum := by omega
      refine ⟨below, (choice_eq_iff (Nat.le_of_lt below) inside).mpr ⟨?_, by omega⟩⟩
      split at beyond
      · rename_i first
        exact .inl first
      · exact .inr beyond
  rw [filtered, Nat.card_Ico]

/-- A position is chosen by as many residues as its stake exactly if it is the first one and
has the whole total, or a later one that either has no stake or is followed by one. -/
theorem card_choice_eq_iff {stakes : List Nat} {i : Nat} (inside : i < stakes.length)
    (positive : 0 < stakes.sum) :
    ((Finset.range stakes.sum).filter fun residue => choice stakes residue = i).card = stakes[i] ↔
      (i = 0 ∧ stakes[i] = stakes.sum) ∨
      (i ≠ 0 ∧ (stakes[i] = 0 ∨ (stakes.take (i + 1)).sum < stakes.sum)) := by
  have upTo : (stakes.take (i + 1)).sum = (stakes.take i).sum + stakes[i] :=
    List.sum_take_succ stakes i inside
  have whole : (stakes.take (i + 1)).sum + (stakes.drop (i + 1)).sum = stakes.sum := by
    rw [← List.sum_append, List.take_append_drop]
  rw [card_choice inside]
  by_cases first : i = 0
  · have before : (stakes.take i).sum = 0 := by
      rw [first, List.take_zero, List.sum_nil]
    rw [if_pos first]
    omega
  · rw [if_neg first]
    omega

/-- Subtract stakes until the rest is not positive, and answer the position. -/
def firstNonpositive (sub : Int → Nat → Int) : List Nat → Int → Option Nat
  | [], _ => none
  | stake :: rest, value =>
      if sub value stake ≤ 0 then some 0
      else (firstNonpositive sub rest (sub value stake)).map (· + 1)

/-- Any subtraction that is exact on the values that occur finds the choice. -/
theorem firstNonpositive_eq_choice {sub : Int → Nat → Int} {limit : Nat}
    (isExact : ∀ (value stake : Nat), value ≤ limit → stake ≤ limit →
      sub value stake = (value : Int) - stake)
    {stakes : List Nat} {value : Nat} (nonempty : stakes ≠ []) (bound : value ≤ stakes.sum)
    (fits : stakes.sum ≤ limit) :
    firstNonpositive sub stakes value = some (choice stakes value) := by
  induction stakes generalizing value with
  | nil => exact absurd rfl nonempty
  | cons stake rest ih =>
      rw [List.sum_cons] at bound fits
      rw [firstNonpositive, choice, isExact value stake (by omega) (by omega)]
      by_cases reached : value ≤ stake
      · rw [if_pos reached, if_pos (by omega)]
      · have more : rest ≠ [] := by
          rintro rfl
          rw [List.sum_nil] at bound
          omega
        have left : (value : Int) - stake = ((value - stake : Nat) : Int) := by omega
        rw [if_neg reached, if_neg (by omega), left, ih more (by omega) (by omega)]
        rfl

/-- Exact subtraction. -/
theorem firstNonpositive_exact {stakes : List Nat} {value : Nat} (nonempty : stakes ≠ [])
    (bound : value ≤ stakes.sum) :
    firstNonpositive (fun value stake => value - stake) stakes value =
      some (choice stakes value) :=
  firstNonpositive_eq_choice (fun _ _ _ _ => rfl) nonempty bound (Nat.le_refl _)

/-- The value of a machine word of `bits` bits, read as a signed number. -/
def wrap (bits : Nat) (value : Int) : Int :=
  value.bmod (2 ^ bits)

theorem wrap_of_le {bits : Nat} {value : Int} (low : -(2 ^ bits : Nat) ≤ value)
    (high : value < (2 ^ bits : Nat)) : wrap (bits + 1) value = value := by
  have double : (2 ^ (bits + 1) : Nat) = 2 * 2 ^ bits := by rw [Nat.pow_succ, Nat.mul_comm]
  rw [wrap, double, Int.bmod_eq_of_le]
  · omega
  · omega

/-- Subtraction in signed words, for totals within their range. -/
theorem firstNonpositive_wrap {bits : Nat} {stakes : List Nat} {value : Nat}
    (nonempty : stakes ≠ []) (bound : value ≤ stakes.sum) (fits : stakes.sum < 2 ^ bits) :
    firstNonpositive (fun value stake => wrap (bits + 1) (value - wrap (bits + 1) stake))
        stakes value = some (choice stakes value) := by
  refine @firstNonpositive_eq_choice _ (2 ^ bits - 1) ?_ _ _ nonempty bound (by omega)
  intro value stake hvalue hstake
  have positive : 0 < 2 ^ bits := Nat.two_pow_pos bits
  have small : wrap (bits + 1) (stake : Int) = stake := wrap_of_le (by omega) (by omega)
  change wrap (bits + 1) ((value : Int) - wrap (bits + 1) (stake : Int)) = _
  rw [small, wrap_of_le (by omega) (by omega)]

end Weighted
